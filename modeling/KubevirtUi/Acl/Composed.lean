import KubevirtUi.Acl.Render
import KubevirtUi.Go.NetipText

/-!
# What the composed list does

For an isolated tenant network the verdict is meant to depend on which networks
an address lies in and on nothing else. The bands keep that promise as long as
the numbers handed out to shared prefixes stay below the management deny: the
hundredth and later ones reach the band of the network itself, which is harmless,
and from the two hundredth on they reach the deny.
-/

namespace Acl

open Go Go.Netip List

/-- The text names an IPv4 prefix. -/
def IsIPv4 (cidr : String) : Prop := ∃ p : Block 32, parsePrefix cidr = some (.v4 p)

instance (cidr : String) : Decidable (IsIPv4 cidr) :=
  match h : parsePrefix cidr with
  | some (.v4 p) => .isTrue ⟨p, h⟩
  | some (.v6 _) => .isFalse fun ⟨_, hq⟩ => by simp [h] at hq
  | none => .isFalse fun ⟨_, hq⟩ => by simp [h] at hq

/-- An isolated tenant network with a supernet, IPv4 throughout and without
rules added by hand. -/
structure Input.Tenant (i : Input) : Prop where
  role : i.role = ""
  isolated : i.isolated = true
  manual : i.manual = []
  subnet : IsIPv4 i.subnetCIDR
  supernet : IsIPv4 i.supernet
  tenants : ∀ c ∈ i.tenantCIDRs, IsIPv4 c
  peers : ∀ c ∈ i.peerCIDRs, IsIPv4 c
  shared : ∀ c ∈ i.sharedCIDRs, IsIPv4 c
  mgmt : ∀ c ∈ i.mgmtCIDRs, IsIPv4 c

/-- The verdict as a statement about networks. -/
def composedVerdict (i : Input) (x : Addr) (direction : String) : Verdict :=
  if direction = "to-lport" ∧ i.mgmtCIDRs.any (inCIDR x) then .dropped
  else if inCIDR x i.subnetCIDR ∨ i.sharedCIDRs.any (inCIDR x) ∨ i.peerCIDRs.any (inCIDR x) then
    .allowed
  else if inCIDR x i.supernet ∨ i.tenantCIDRs.any (inCIDR x) then .dropped
  else .allowed

/-- No shared prefix from the two hundredth on overlaps a management prefix. -/
def MgmtOnTop (i : Input) : Prop :=
  ∀ k shared, 200 ≤ k → (dedupe i.sharedCIDRs)[k]? = some shared →
    ∀ mgmt ∈ i.mgmtCIDRs, ¬ cidrsOverlap mgmt shared

namespace IsIPv4

variable {cidr : String}

theorem trimmed (h : IsIPv4 cidr) : trimSpace cidr = cidr ∧ cidr ≠ "" := by
  obtain ⟨p, hp⟩ := h
  refine ⟨?_, ne_empty_of_parsePrefix hp⟩
  rw [trimSpace, trimChars_of_forall (isSpace_of_parsePrefix_v4 hp), String.ofList_toList]

theorem matchPrefix_src (h : IsIPv4 cidr) :
    matchPrefix ("ip4.src == " ++ cidr) = parsePrefix cidr := by
  obtain ⟨p, hp⟩ := h
  have hspace := isSpace_of_parsePrefix_v4 hp
  have hfield : String.ofList (trimChars ['i', 'p', '4', '.', 's', 'r', 'c', ' ']) = "ip4.src" := by
    decide
  simp [matchPrefix, splitN2, cutChars, trimSpace, trimChars_space_cons hspace, hfield]

theorem matchPrefix_dst (h : IsIPv4 cidr) :
    matchPrefix ("ip4.dst == " ++ cidr) = parsePrefix cidr := by
  obtain ⟨p, hp⟩ := h
  have hspace := isSpace_of_parsePrefix_v4 hp
  have hfield : String.ofList (trimChars ['i', 'p', '4', '.', 'd', 's', 't', ' ']) = "ip4.dst" := by
    decide
  simp [matchPrefix, splitN2, cutChars, trimSpace, trimChars_space_cons hspace, hfield]

theorem applies_src (h : IsIPv4 cidr) (action direction d : String) (n : Int) (x : Addr) :
    (Rule.mk action direction ("ip4.src == " ++ cidr) n).applies x d =
      (decide (direction = d) && inCIDR x cidr) := by
  rw [Rule.applies, h.matchPrefix_src]
  rfl

theorem applies_dst (h : IsIPv4 cidr) (action direction d : String) (n : Int) (x : Addr) :
    (Rule.mk action direction ("ip4.dst == " ++ cidr) n).applies x d =
      (decide (direction = d) && inCIDR x cidr) := by
  rw [Rule.applies, h.matchPrefix_dst]
  rfl

end IsIPv4

theorem mem_dedupe_cidrs {xs : List String} {v : String} (h : ∀ x ∈ xs, IsIPv4 x) :
    v ∈ dedupe xs ↔ v ∈ xs := mem_dedupe fun x hx => (h x hx).trimmed

section Votes

variable {rules rules' : List Rule} {x : Addr} {d : String} {p : Int} {drop : Bool}

@[simp] theorem hasVote_append : HasVote (rules ++ rules') x d p drop ↔
      HasVote rules x d p drop ∨ HasVote rules' x d p drop := by
  simp only [HasVote, mem_append, or_and_right, exists_or]

theorem hasVote_flatMap {β : Type} {xs : List β} {f : β → List Rule} :
    HasVote (xs.flatMap f) x d p drop ↔ ∃ b ∈ xs, HasVote (f b) x d p drop := by
  simp only [HasVote, mem_flatMap]
  constructor
  · rintro ⟨rule, ⟨b, hb, hrule⟩, happ⟩
    exact ⟨b, hb, rule, hrule, happ⟩
  · rintro ⟨b, hb, rule, hrule, happ⟩
    exact ⟨rule, ⟨b, hb, hrule⟩, happ⟩

/-- A pair of rules casts one vote in each direction, on the addresses of its
prefix. -/
theorem hasVote_rulePair {action cidr : String} {n : Int} (h : IsIPv4 cidr)
    (hd : d = "from-lport" ∨ d = "to-lport") : HasVote (rulePair action cidr n) x d p drop ↔
      inCIDR x cidr = true ∧ p = n ∧ drop = decide (action = "drop") := by
  simp only [HasVote, rulePair, mem_cons, not_mem_nil, or_false, exists_eq_or_imp,
    exists_eq_left, h.applies_src, h.applies_dst, Rule.vote, Ranking.Vote.mk.injEq]
  rcases hd with rfl | rfl <;> simp [@eq_comm _ p, @eq_comm _ drop]

theorem hasVote_mgmtRules {xs : List String} (h : ∀ c ∈ xs, IsIPv4 c) :
    HasVote ((dedupe xs).map mgmtRule) x d p drop ↔
      d = "to-lport" ∧ xs.any (inCIDR x) = true ∧ p = priorityMgmtDeny ∧ drop = true := by
  simp only [HasVote, mem_map, any_eq_true]
  constructor
  · rintro ⟨_, ⟨c, hc, rfl⟩, happ, hvote⟩
    rw [mem_dedupe_cidrs h] at hc
    rw [mgmtRule, (h c hc).applies_src, Bool.and_eq_true, decide_eq_true_eq] at happ
    simp only [Rule.vote, mgmtRule, Ranking.Vote.mk.injEq, decide_true] at hvote
    exact ⟨happ.1.symm, ⟨c, hc, happ.2⟩, hvote.1.symm, hvote.2.symm⟩
  · rintro ⟨rfl, ⟨c, hc, hx⟩, rfl, rfl⟩
    refine ⟨_, ⟨c, (mem_dedupe_cidrs h).mpr hc, rfl⟩, ?_, rfl⟩
    rw [mgmtRule, (h c hc).applies_src, hx]
    rfl

end Votes

theorem Input.Tenant.outside_subset {i : Input} (h : i.Tenant) {c : String}
    (hc : c ∈ (floors i).2) : c ∈ i.tenantCIDRs := by
  obtain ⟨agg, hagg⟩ := h.supernet
  simp only [floors, outside, ne_empty_of_parsePrefix hagg, if_false, hagg, mem_filter] at hc
  have hmem := (mem_dedupe_cidrs fun x hx =>
    h.tenants x (mem_of_mem_filter hx)).mp hc.1
  exact mem_of_mem_filter hmem

theorem Input.Tenant.floors_isIPv4 {i : Input} (h : i.Tenant) : ∀ c ∈ (floors i).1, IsIPv4 c := by
  intro c hc
  simp only [floors] at hc
  obtain hsuper | hout := mem_append.mp hc
  · split at hsuper
    · rw [mem_singleton.mp hsuper]
      exact h.supernet
    · simp at hsuper
  · exact h.tenants c (h.outside_subset hout)

/-- Away from its own subnet, the floor covers the supernet and every tenant:
a tenant that is not named is inside the supernet. -/
theorem Input.Tenant.floors_cover {i : Input} (h : i.Tenant) {x : Addr}
    (hx : inCIDR x i.subnetCIDR = false) : (∃ c ∈ (floors i).1, inCIDR x c = true) ↔
      inCIDR x i.supernet = true ∨ i.tenantCIDRs.any (inCIDR x) = true := by
  obtain ⟨agg, hagg⟩ := h.supernet
  have hne := ne_empty_of_parsePrefix hagg
  constructor
  · rintro ⟨c, hc, hxc⟩
    simp only [floors, ne_eq, hne, not_false_eq_true, if_true, singleton_append, mem_cons] at hc
    obtain rfl | hc := hc
    · exact .inl hxc
    · exact .inr (any_eq_true.mpr ⟨c, h.outside_subset hc, hxc⟩)
  · rintro (hsuper | htenant)
    · exact ⟨i.supernet, by simp [floors, hne], hsuper⟩
    · obtain ⟨c, hc, hxc⟩ := any_eq_true.mp htenant
      obtain ⟨p, hp⟩ := h.tenants c hc
      have hself : c ≠ i.subnetCIDR := by
        rintro rfl
        simp [hx] at hxc
      have hdedupe : c ∈ dedupe (without i.tenantCIDRs i.subnetCIDR) :=
        (mem_dedupe_cidrs fun y hy => h.tenants y (mem_of_mem_filter hy)).mpr
          (mem_filter.mpr ⟨hc, by simpa using hself⟩)
      by_cases hcover : agg.Overlaps p ∧ agg.bits ≤ p.bits
      · refine ⟨i.supernet, by simp [floors, hne], ?_⟩
        cases x <;> simp [inCIDR, hp, hagg, Prefix.contains] at hxc ⊢
        exact hcover.1.contains hcover.2 hxc
      · refine ⟨c, mem_append_right _ ?_, hxc⟩
        simp only [outside, hne, if_false, hagg, mem_filter, hdedupe, hp, Prefix.overlaps,
          Prefix.bits, true_and, ← Block.overlaps_iff_agree, Bool.or_eq_true, Bool.not_eq_true',
          decide_eq_false_iff_not]
        by_cases hover : agg.Overlaps p
        · exact .inr (decide_eq_true (not_le.mp fun hle => hcover ⟨hover, hle⟩))
        · exact .inl hover

theorem cidrsOverlap_of_inCIDR {a b : String} (ha : IsIPv4 a) (hb : IsIPv4 b) {x : Addr}
    (hxa : inCIDR x a = true) (hxb : inCIDR x b = true) : cidrsOverlap a b := by
  obtain ⟨p, hp⟩ := ha
  obtain ⟨q, hq⟩ := hb
  refine ⟨.v4 p, .v4 q, hp, hq, ?_⟩
  cases x <;> simp [inCIDR, hp, hq, Prefix.contains] at hxa hxb
  rw [Prefix.overlaps, decide_eq_true_eq, ← Block.overlaps_iff_agree]
  exact ⟨_, hxa, hxb⟩

theorem exists_inCIDR_of_cidrsOverlap {a b : String} (ha : IsIPv4 a) (h : cidrsOverlap a b) :
    ∃ x : BitVec 32, inCIDR (.v4 x) a = true ∧ inCIDR (.v4 x) b = true := by
  obtain ⟨_, q, hp, hq, hover⟩ := h
  obtain ⟨p, hp'⟩ := ha
  obtain rfl := Option.mem_unique hp' hp
  cases q with
  | v6 q => simp [Prefix.overlaps] at hover
  | v4 q =>
    rw [Prefix.overlaps, decide_eq_true_eq, ← Block.overlaps_iff_agree] at hover
    obtain ⟨x, hxp, hxq⟩ := hover
    exact ⟨x, by simpa [inCIDR, hp, Prefix.contains] using hxp,
      by simpa [inCIDR, hq, Prefix.contains] using hxq⟩

theorem Input.Tenant.hasVote_render {i : Input} (h : i.Tenant) {x : Addr} {d : String}
    (hd : d = "from-lport" ∨ d = "to-lport") {p : Int} {drop : Bool} :
    HasVote (render i).1 x d p drop ↔
      (d = "to-lport" ∧ i.mgmtCIDRs.any (inCIDR x) = true ∧ p = priorityMgmtDeny ∧ drop = true) ∨
      (inCIDR x i.subnetCIDR = true ∧ p = priorityOwn ∧ drop = false) ∨
      (∃ k : Nat, ∃ shared, (dedupe i.sharedCIDRs)[k]? = some shared ∧
        inCIDR x shared = true ∧ p = priorityException + k ∧ drop = false) ∨
      (∃ peer ∈ i.peerCIDRs, peer ≠ i.subnetCIDR ∧
        inCIDR x peer = true ∧ p = priorityException ∧ drop = false) ∨
      ((∃ c ∈ (floors i).1, inCIDR x c = true) ∧ p = priorityDrop ∧ drop = true) := by
  obtain ⟨own, hown⟩ := h.subnet
  have hvote : HasVote (render i).1 x d p drop ↔
      HasVote ((dedupe i.mgmtCIDRs).map mgmtRule) x d p drop ∨
      HasVote (isolationRules i) x d p drop := by
    simp [render, h.role, h.isolated, h.manual, HasVote, mem_normalise, or_and_right, exists_or]
  have hshared : ∀ b ∈ (dedupe i.sharedCIDRs).zipIdx, IsIPv4 b.1 := by
    intro b hb
    have hmem := mem_of_getElem? (mem_zipIdx_iff_getElem?.mp hb)
    exact h.shared _ ((mem_dedupe_cidrs h.shared).mp hmem)
  rw [hvote, hasVote_mgmtRules h.mgmt, isolationRules, if_pos (ne_empty_of_parsePrefix hown),
    hasVote_append, hasVote_append, hasVote_append, hasVote_rulePair h.subnet hd,
    hasVote_flatMap, hasVote_flatMap, hasVote_flatMap]
  simp only [or_assoc]
  refine or_congr_right (or_congr (by simp) (or_congr ?_ (or_congr ?_ ?_)))
  · constructor
    · rintro ⟨⟨shared, k⟩, hmem, hv⟩
      rw [hasVote_rulePair (hshared _ hmem) hd] at hv
      exact ⟨k, shared, mem_zipIdx_iff_getElem?.mp hmem, by simpa using hv⟩
    · rintro ⟨k, shared, hk, hv⟩
      have hmem : (shared, k) ∈ (dedupe i.sharedCIDRs).zipIdx :=
        mem_zipIdx_iff_getElem?.mpr hk
      exact ⟨(shared, k), hmem, (hasVote_rulePair (hshared _ hmem) hd).mpr (by simpa using hv)⟩
  · constructor
    · rintro ⟨peer, hmem, hv⟩
      obtain ⟨hpeer, hself⟩ := mem_filter.mp hmem
      rw [mem_dedupe_cidrs h.peers] at hpeer
      rw [hasVote_rulePair (h.peers _ hpeer) hd] at hv
      exact ⟨peer, hpeer, by simpa using hself, by simpa using hv⟩
    · rintro ⟨peer, hpeer, hself, hv⟩
      refine ⟨peer, mem_filter.mpr ⟨(mem_dedupe_cidrs h.peers).mpr hpeer, by simpa⟩, ?_⟩
      exact (hasVote_rulePair (h.peers _ hpeer) hd).mpr (by simpa using hv)
  · constructor
    · rintro ⟨c, hc, hv⟩
      rw [mem_dedupe_cidrs h.floors_isIPv4] at hc
      rw [hasVote_rulePair (h.floors_isIPv4 _ hc) hd] at hv
      exact ⟨⟨c, hc, hv.1⟩, by simpa using hv.2⟩
    · rintro ⟨⟨c, hc, hx⟩, hv⟩
      refine ⟨c, (mem_dedupe_cidrs h.floors_isIPv4).mpr hc, ?_⟩
      exact (hasVote_rulePair (h.floors_isIPv4 _ hc) hd).mpr ⟨hx, by simpa using hv⟩

namespace Input.Tenant

variable {i : Input} {x : Addr} {d : String}

section

variable (h : i.Tenant) (hd : d = "from-lport" ∨ d = "to-lport")

include h hd

theorem hasVote_allow {p : Int} : HasVote (render i).1 x d p false ↔
      (inCIDR x i.subnetCIDR = true ∧ p = priorityOwn) ∨
      (∃ k : Nat, ∃ shared, (dedupe i.sharedCIDRs)[k]? = some shared ∧
        inCIDR x shared = true ∧ p = priorityException + k) ∨
      (∃ peer ∈ i.peerCIDRs, peer ≠ i.subnetCIDR ∧ inCIDR x peer = true ∧
        p = priorityException) := by
  rw [h.hasVote_render hd]
  simp

theorem hasVote_drop {p : Int} : HasVote (render i).1 x d p true ↔
      (d = "to-lport" ∧ i.mgmtCIDRs.any (inCIDR x) = true ∧ p = priorityMgmtDeny) ∨
      ((∃ c ∈ (floors i).1, inCIDR x c = true) ∧ p = priorityDrop) := by
  rw [h.hasVote_render hd]
  simp

/-- An address of the network itself, of a shared prefix or of a peer has an
allow at the exception band or above. -/
theorem exists_allow (hx : inCIDR x i.subnetCIDR = true ∨ i.sharedCIDRs.any (inCIDR x) = true ∨
      i.peerCIDRs.any (inCIDR x) = true) :
    ∃ p, priorityException ≤ p ∧ HasVote (render i).1 x d p false := by
  obtain hown | hshared | hpeer := hx
  · exact ⟨priorityOwn, by decide, (h.hasVote_allow hd).mpr (.inl ⟨hown, rfl⟩)⟩
  · obtain ⟨shared, hmem, hxs⟩ := any_eq_true.mp hshared
    obtain ⟨k, hk⟩ := mem_iff_getElem?.mp ((mem_dedupe_cidrs h.shared).mpr hmem)
    exact ⟨priorityException + k, by omega,
      (h.hasVote_allow hd).mpr (.inr (.inl ⟨k, shared, hk, hxs, rfl⟩))⟩
  · obtain ⟨peer, hmem, hxp⟩ := any_eq_true.mp hpeer
    by_cases hself : peer = i.subnetCIDR
    · exact ⟨priorityOwn, by decide, (h.hasVote_allow hd).mpr (.inl ⟨hself ▸ hxp, rfl⟩)⟩
    · exact ⟨priorityException, le_rfl,
        (h.hasVote_allow hd).mpr (.inr (.inr ⟨peer, hmem, hself, hxp, rfl⟩))⟩

theorem mem_of_allow {p : Int} (hp : HasVote (render i).1 x d p false) :
    inCIDR x i.subnetCIDR = true ∨ i.sharedCIDRs.any (inCIDR x) = true ∨
      i.peerCIDRs.any (inCIDR x) = true := by
  obtain ⟨hx, -⟩ | ⟨k, shared, hk, hx, -⟩ | ⟨peer, hmem, -, hx, -⟩ := (h.hasVote_allow hd).mp hp
  · exact .inl hx
  · have hmem := (mem_dedupe_cidrs h.shared).mp (mem_of_getElem? hk)
    exact .inr (.inl (any_eq_true.mpr ⟨shared, hmem, hx⟩))
  · exact .inr (.inr (any_eq_true.mpr ⟨peer, hmem, hx⟩))

end

/-- On a management address the deny outranks every allow, as long as the shared
prefixes that hold the address are among the first two hundred. -/
theorem allow_lt_mgmtDeny (h : i.Tenant) (htop : MgmtOnTop i)
    (hd : d = "from-lport" ∨ d = "to-lport") (hx : i.mgmtCIDRs.any (inCIDR x) = true) {p : Int}
    (hp : HasVote (render i).1 x d p false) : p < priorityMgmtDeny := by
  obtain ⟨-, rfl⟩ | ⟨k, shared, hk, hxs, rfl⟩ | ⟨-, -, -, -, rfl⟩ := (h.hasVote_allow hd).mp hp
  · decide
  · obtain ⟨mgmt, hmem, hxm⟩ := any_eq_true.mp hx
    have hshared := (mem_dedupe_cidrs h.shared).mp (mem_of_getElem? hk)
    have hover := cidrsOverlap_of_inCIDR (h.mgmt _ hmem) (h.shared _ hshared) hxm hxs
    have hlow : ¬ 200 ≤ k := fun hle => htop k shared hle hk mgmt hmem hover
    simp only [priorityException, priorityMgmtDeny]
    omega
  · decide

/-- The list does what it is composed for wherever the deny stays on top. -/
theorem evaluate_of_mgmtOnTop (h : i.Tenant) (htop : MgmtOnTop i)
    (hd : d = "from-lport" ∨ d = "to-lport") :
    evaluate (render i).1 x d = composedVerdict i x d := by
  unfold composedVerdict
  by_cases hmgmt : d = "to-lport" ∧ i.mgmtCIDRs.any (inCIDR x) = true
  · rw [if_pos hmgmt]
    exact evaluate_eq_dropped (by decide) ((h.hasVote_drop hd).mpr (.inl ⟨hmgmt.1, hmgmt.2, rfl⟩))
      fun q hq => h.allow_lt_mgmtDeny htop hd hmgmt.2 hq
  · rw [if_neg hmgmt]
    -- the only drop left is the floor
    have hdrop : ∀ q, HasVote (render i).1 x d q true → q = priorityDrop := by
      intro q hq
      obtain ⟨hto, hx, -⟩ | ⟨-, hq⟩ := (h.hasVote_drop hd).mp hq
      · exact absurd ⟨hto, hx⟩ hmgmt
      · exact hq
    split
    · rename_i hexempt
      obtain ⟨p, hp, hvote⟩ := h.exists_allow hd hexempt
      refine evaluate_eq_allowed hvote fun q hq => ?_
      rw [hdrop q hq]
      exact lt_of_lt_of_le (by decide) hp
    · rename_i hexempt
      have hallow : ∀ q, ¬ HasVote (render i).1 x d q false :=
        fun q hq => hexempt (h.mem_of_allow hd hq)
      have hown : inCIDR x i.subnetCIDR = false := by
        simpa using fun hx => hexempt (.inl hx)
      split
      · rename_i hfloor
        exact evaluate_eq_dropped (by decide)
          ((h.hasVote_drop hd).mpr (.inr ⟨(h.floors_cover hown).mpr hfloor, rfl⟩))
          fun q hq => absurd hq (hallow q)
      · rename_i hfloor
        refine evaluate_eq_allowed_of_forall_not fun q hq => ?_
        obtain ⟨hto, hx, -⟩ | ⟨hx, -⟩ := (h.hasVote_drop hd).mp hq
        · exact hmgmt ⟨hto, hx⟩
        · exact hfloor ((h.floors_cover hown).mp hx)

/-- A late shared prefix that overlaps a management one lets traffic through. -/
theorem evaluate_ne_dropped_of_late (h : i.Tenant) {k : Nat} {shared : String} (hk : 200 ≤ k)
    (hshared : (dedupe i.sharedCIDRs)[k]? = some shared) (hx : inCIDR x shared = true)
    (hd : d = "from-lport" ∨ d = "to-lport") : evaluate (render i).1 x d ≠ .dropped := by
  refine evaluate_ne_dropped (p := priorityException + k) (by simp [priorityException]; omega)
    ((h.hasVote_allow hd).mpr (.inr (.inl ⟨k, shared, hshared, hx, rfl⟩))) fun q hq => ?_
  rcases (h.hasVote_drop hd).mp hq with ⟨-, -, rfl⟩ | ⟨-, rfl⟩ <;>
    simp only [priorityMgmtDeny, priorityDrop, priorityException] <;> omega

end Input.Tenant

/-- The composed list decides by network membership alone exactly when no shared
prefix from the two hundredth on reaches into a management network. -/
theorem evaluate_render_iff {i : Input} (h : i.Tenant) :
    (∀ (x : BitVec 32) (d : String), d = "from-lport" ∨ d = "to-lport" →
      evaluate (render i).1 (.v4 x) d = composedVerdict i (.v4 x) d) ↔ MgmtOnTop i := by
  constructor
  · intro hall k shared hk hshared mgmt hmgmt hover
    obtain ⟨x, hxm, hxs⟩ := exists_inCIDR_of_cidrsOverlap (h.mgmt mgmt hmgmt) hover
    have hverdict := hall x "to-lport" (.inr rfl)
    have hany : i.mgmtCIDRs.any (inCIDR (.v4 x)) = true := any_eq_true.mpr ⟨mgmt, hmgmt, hxm⟩
    rw [composedVerdict, if_pos ⟨rfl, hany⟩] at hverdict
    exact h.evaluate_ne_dropped_of_late hk hshared hxs (.inr rfl) hverdict
  · intro htop x d hd
    exact h.evaluate_of_mgmtOnTop htop hd

/-- One tenant among two, with a shared network and management out of range. -/
def office : Input where
  subnetCIDR := "10.16.1.0/24"
  supernet := "10.16.0.0/12"
  tenantCIDRs := ["10.16.1.0/24", "10.16.2.0/24", "172.20.0.0/16"]
  peerCIDRs := ["10.16.2.0/24"]
  sharedCIDRs := ["10.200.0.0/24"]
  mgmtCIDRs := ["192.168.196.0/24"]
  manual := []
  isolated := true
  role := ""

theorem office_tenant : office.Tenant :=
  ⟨rfl, rfl, rfl, by decide, by decide, by decide, by decide, by decide, by decide⟩

theorem evaluate_render_office : evaluate (render office).1 (.v4 0x0A100105#32) "to-lport" =
      composedVerdict office (.v4 0x0A100105#32) "to-lport" := by
  refine (evaluate_render_iff office_tenant).mpr ?_ _ _ (.inr rfl)
  intro k shared hk hshared
  have hlen : (dedupe office.sharedCIDRs).length ≤ 200 := by decide
  rw [List.getElem?_eq_none (hlen.trans hk)] at hshared
  contradiction

/-- The network `10.200.n.0/24`. -/
def sharedNetwork (n : Nat) : Block 32 :=
    ⟨BitVec.ofNat 32 (0x0AC80000 + n * 256), 24, Block.le_bits_24⟩

/-- Two hundred and one shared networks, the last of which is also a management
network. -/
def crowded : Input where
  subnetCIDR := "10.16.1.0/24"
  supernet := "10.16.0.0/12"
  tenantCIDRs := ["10.16.1.0/24", "10.16.2.0/24"]
  peerCIDRs := []
  sharedCIDRs := (List.range 201).map fun n => prefixString (.v4 (sharedNetwork n))
  mgmtCIDRs := [prefixString (.v4 (sharedNetwork 200))]
  manual := []
  isolated := true
  role := ""

theorem crowded_tenant : crowded.Tenant where
  role := rfl
  isolated := rfl
  manual := rfl
  subnet := by decide
  supernet := by decide
  tenants := by decide
  peers := by decide
  shared := by
    intro c hc
    obtain ⟨n, -, rfl⟩ := mem_map.mp hc
    exact ⟨_, parsePrefix_prefixString _⟩
  mgmt := by
    intro c hc
    rw [crowded, mem_singleton] at hc
    exact ⟨_, hc ▸ parsePrefix_prefixString _⟩

theorem dedupe_crowded : dedupe crowded.sharedCIDRs = crowded.sharedCIDRs := by
  refine dedupe_of_nodup (fun c hc => (crowded_tenant.shared c hc).trimmed) ?_
  refine List.Nodup.map_on ?_ nodup_range
  intro m hm n hn h
  have hblock := congrArg (fun p => p.addr) (prefixString_injective h)
  simp only [Prefix.addr, sharedNetwork, Addr.v4.injEq, ← BitVec.toNat_inj,
    BitVec.toNat_ofNat] at hblock
  rw [mem_range] at hm hn
  omega

/-- At `10.200.200.1` the last shared prefix has caught up with the deny. -/
theorem crowded_conflicted :
    crowded.Tenant ∧ composedVerdict crowded (.v4 0x0AC8C801) "to-lport" = .dropped ∧
      evaluate (render crowded).1 (.v4 0x0AC8C801) "to-lport" = .conflicted := by
  have hin : inCIDR (.v4 0x0AC8C801) (prefixString (.v4 (sharedNetwork 200))) = true := by
    rw [inCIDR, parsePrefix_prefixString]
    decide
  have hmgmt : crowded.mgmtCIDRs.any (inCIDR (.v4 0x0AC8C801)) = true := by
    simpa [crowded] using hin
  have hto : ("to-lport" : String) = "from-lport" ∨ ("to-lport" : String) = "to-lport" := .inr rfl
  refine ⟨crowded_tenant, if_pos ⟨rfl, hmgmt⟩, ?_⟩
  refine evaluate_eq_conflicted (p := priorityMgmtDeny) (by decide) ?_ ?_ ?_
  · refine (crowded_tenant.hasVote_allow hto).mpr (.inr (.inl ⟨200, _, ?_, hin, rfl⟩))
    rw [dedupe_crowded]
    rfl
  · exact (crowded_tenant.hasVote_drop hto).mpr (.inl ⟨rfl, hmgmt, rfl⟩)
  · intro q side hq
    rcases (crowded_tenant.hasVote_render hto).mp hq with ⟨-, -, rfl, -⟩ | ⟨-, rfl, -⟩ |
      ⟨k, shared, hk, -, rfl, -⟩ | ⟨-, -, -, -, rfl, -⟩ | ⟨-, rfl, -⟩
    · exact le_rfl
    · decide
    · have hlen := (List.getElem?_eq_some_iff.mp hk).1
      rw [dedupe_crowded, crowded, length_map, length_range] at hlen
      simp only [priorityException, priorityMgmtDeny]
      omega
    · decide
    · decide

end Acl
