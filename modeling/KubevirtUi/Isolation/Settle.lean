import KubevirtUi.Isolation.Separation

/-!
# One subnet, pass after pass

As long as no failure ends it, a pass does with each subnet what it would do with it alone. What it
reads back of a list that it has written itself is what it wrote there, if the numbers of the
exceptions stay below the subnet's own band, and then a second pass finds nothing to change.
-/

namespace Isolation

open Acl Go.Netip List

/-- The subnet after a pass that gets as far as it. -/
def settle (parse6 : String → Option (Block 128)) (r : Reading) (s : Subnet) : Subnet :=
  if s.isTenant then
    match rewrite parse6 r s with
    | .patched acls => { s with acls := acls }
    | _ => s
  else s

/-- Two readings that a pass cannot tell apart. -/
structure SameCensus (r r' : Reading) : Prop where
  supernet : r'.supernet = r.supernet
  mgmt : r'.mgmt = r.mgmt
  peered : r'.peered = r.peered
  peers : ∀ s, r'.peers s = r.peers s

/-- The subnet is one of those whose rules the pass keeps in order. -/
structure Subnet.Maintained (s : Subnet) : Prop where
  tenant : s.isTenant = true
  owner : s.aclOwner ≠ aclOwnerOperator
  role : vpcRole s = none
  closed : isolationOptedOut s = false

instance (s : Subnet) : Decidable s.Maintained :=
  decidable_of_iff (s.isTenant = true ∧ s.aclOwner ≠ aclOwnerOperator ∧ vpcRole s = none ∧
    isolationOptedOut s = false)
    ⟨fun ⟨htenant, howner, hrole, hclosed⟩ => ⟨htenant, howner, hrole, hclosed⟩,
      fun h => ⟨h.tenant, h.owner, h.role, h.closed⟩⟩

/-- The exceptions of the subnet are few enough to stay below its own band. -/
def Limited (parse6 : String → Option (Block 128)) (r : Reading) (s : Subnet) : Prop :=
  s.Maintained → ∀ shared, sharedFrom parse6 r.supernet s.acls = some shared →
    (r.exceptions s shared).length ≤ 100

instance (parse6 : String → Option (Block 128)) (r : Reading) (s : Subnet) :
    Decidable (Limited parse6 r s) :=
  inferInstanceAs (Decidable (s.Maintained → ∀ shared ∈ sharedFrom parse6 r.supernet s.acls,
    (r.exceptions s shared).length ≤ 100))

variable {parse6 : String → Option (Block 128)} {r : Reading} {s : Subnet} {subnets : List Subnet}
  {acls : List Rule} {shared mgmt : List String} {c : String} {rule : Rule}

section Settle

variable {r' : Reading}

theorem exists_settle (parse6 : String → Option (Block 128)) (r : Reading) (s : Subnet) :
    ∃ acls, settle parse6 r s = { s with acls := acls } := by
  rw [settle]
  split
  · split
    · exact ⟨_, rfl⟩
    · exact ⟨s.acls, rfl⟩
  · exact ⟨s.acls, rfl⟩

theorem settle_of_patched (htenant : s.isTenant = true) (h : rewrite parse6 r s = .patched acls) :
    settle parse6 r s = { s with acls := acls } := by
  rw [settle, if_pos htenant, h]

theorem settle_of_kept (h : rewrite parse6 r s = .kept) : settle parse6 r s = s := by
  rw [settle, h, ite_self]

/-- A list that is written unless it stands there already stands there afterwards. -/
theorem settle_of_patchUnlessSame (htenant : s.isTenant = true) {body : List Rule}
    (h : rewrite parse6 r s = patchUnlessSame s.acls body) :
    settle parse6 r s = { s with acls := body } := by
  rw [patchUnlessSame] at h
  split at h
  · next hsame => rw [settle_of_kept h, hsame]
  · exact settle_of_patched htenant h

theorem afterPass_eq_map (h : ∀ s ∈ subnets, s.isTenant = true → rewrite parse6 r s ≠ .raised) :
    afterPass parse6 r subnets = subnets.map (settle parse6 r) := by
  rw [afterPass]
  induction subnets with
  | nil => rfl
  | cons s rest ih =>
    have hrest := ih fun t ht => h t (mem_cons_of_mem s ht)
    rw [outcomes, map_cons]
    split
    · next htenant =>
      split
      · next hraised => exact absurd hraised (h s mem_cons_self htenant)
      · next hkept => rw [map_cons, hrest, settle_of_kept hkept]; rfl
      · next acls hpatched =>
        rw [map_cons, hrest, settle_of_patched htenant hpatched]
        rfl
    · next hother =>
      rw [map_cons, hrest, settle, if_neg hother]
      rfl

theorem afterPass_eq_self (h : ∀ s ∈ subnets, settle parse6 r s = s) :
    afterPass parse6 r subnets = subnets := by
  rw [afterPass]
  induction subnets with
  | nil => rfl
  | cons s rest ih =>
    have hrest := ih fun t ht => h t (mem_cons_of_mem s ht)
    rw [outcomes]
    split
    · next htenant =>
      split
      · rw [map_cons, map_map]
        exact congrArg (s :: ·) (map_id rest)
      · rw [map_cons, hrest]
        rfl
      · next acls hpatched =>
        have hsame := h s mem_cons_self
        rw [settle_of_patched htenant hpatched] at hsame
        rw [map_cons, hrest]
        exact congrArg (· :: rest) hsame
    · rw [map_cons, hrest]
      rfl

theorem SameCensus.rewrite_eq (h : SameCensus r r') (s : Subnet) :
    rewrite parse6 r' s = rewrite parse6 r s := by
  simp only [rewrite, h.supernet, h.mgmt, h.peers, Reading.exceptions, h.peered]

theorem SameCensus.settle_eq (h : SameCensus r r') (s : Subnet) :
    settle parse6 r' s = settle parse6 r s := by
  rw [settle, settle, h.rewrite_eq]

theorem sameCensus_map {supernet : String} {vpcs : List Vpc} {f : Subnet → Subnet}
    (hf : ∀ s, ∃ acls, f s = { s with acls := acls }) :
    SameCensus (readAll supernet mgmt subnets vpcs)
      (readAll supernet mgmt (subnets.map f) vpcs) := by
  -- what is not about the rules is the same before and after
  have hfield {β : Type} (g : Subnet → β) (hg : ∀ s acls, g { s with acls := acls } = g s) :
      g ∘ f = g := by
    funext s
    obtain ⟨acls, hacls⟩ := hf s
    rw [Function.comp_apply, hacls, hg]
  have htenants : (subnets.map f).filter (·.isTenant) = (subnets.filter (·.isTenant)).map f := by
    rw [filter_map, hfield _ fun _ _ => rfl]
  have hcidr := hfield (·.cidrBlock) fun _ _ => rfl
  refine ⟨rfl, rfl, ?_, fun s => ?_⟩
  · have hcidrs : cidrsOf ((subnets.filter (·.isTenant)).map f) =
        cidrsOf (subnets.filter (·.isTenant)) := by
      funext vpc
      rw [cidrsOf, cidrsOf, filter_map, map_map, hcidr, hfield _ fun _ _ => rfl]
    funext vpc
    simp only [readAll, htenants, peered, hcidrs]
  · have hothers : ((((subnets.filter (·.isTenant)).map f).filter fun t =>
        t.name ≠ s.name && (vpcRole t).isNone).map (·.cidrBlock)) =
        ((subnets.filter (·.isTenant)).filter fun t =>
          t.name ≠ s.name && (vpcRole t).isNone).map (·.cidrBlock) := by
      rw [filter_map, map_map, hcidr, hfield _ fun _ _ => rfl]
    simp only [Reading.peers, readAll, htenants, hothers]

end Settle

/-- A rule as the product writes it. -/
def Written (mgmt : List String) (rule : Rule) : Prop :=
  Plain rule ∧ (rule.action = "allow-related" ∧ isolationPriorityShared ≤ rule.priority ∨
    rule.action = "drop" ∧ rule.priority = isolationPriorityDrop ∨ rule ∈ buildMgmtDenyAcls mgmt)

/-- Both allows of the prefix are on the list, below the subnet's own band. -/
def Stands (acls : List Rule) (cidr : String) : Prop :=
  ∃ n, isolationPriorityShared ≤ n ∧ n < isolationPriorityOwn ∧
    ∀ rule ∈ rulePair "allow-related" cidr n, rule ∈ acls

section Written

variable {cidrs targets : List String} {x : Addr} {d : String}

theorem of_mem_rulePair {action cidr : String} {n : Int} (h : rule ∈ rulePair action cidr n) :
    rule.action = action ∧ rule.priority = n := by
  simp only [rulePair, mem_cons, not_mem_nil, or_false] at h
  obtain rfl | rfl := h <;> exact ⟨rfl, rfl⟩

theorem mem_sharedAcls : rule ∈ sharedAcls cidrs ↔ ∃ k : Nat, ∃ c,
    (cidrs.filter (· ≠ ""))[k]? = some c ∧
      rule ∈ rulePair "allow-related" c (isolationPriorityShared + k) := by
  rw [sharedAcls, mem_flatMap]
  constructor
  · rintro ⟨⟨c, k⟩, hmem, hrule⟩
    exact ⟨k, c, mem_zipIdx_iff_getElem?.mp hmem, hrule⟩
  · rintro ⟨k, c, hk, hrule⟩
    exact ⟨(c, k), mem_zipIdx_iff_getElem?.mpr hk, hrule⟩

/-- The allows of a short list of prefixes are below the subnet's own band. -/
theorem stands_of_mem (hlimit : cidrs.length ≤ 100) (hcidrs : ∀ c ∈ cidrs, IsIPv4 c)
    (hc : c ∈ cidrs) : Stands (sharedAcls cidrs) c := by
  obtain ⟨k, hk⟩ := mem_iff_getElem?.mp hc
  have hlt := (List.getElem?_eq_some_iff.mp hk).1
  refine ⟨isolationPriorityShared + k, by omega, ?_, fun rule hrule => ?_⟩
  · simp only [isolationPriorityShared, isolationPriorityOwn]
    omega
  · exact mem_sharedAcls.mpr ⟨k, c, by rwa [filter_ne_empty hcidrs], hrule⟩

theorem Stands.mono {acls' : List Rule} (h : Stands acls c)
    (hmem : ∀ rule ∈ acls, BelowOwn rule → isolationPriorityShared ≤ rule.priority →
      rule ∈ acls') : Stands acls' c := by
  obtain ⟨n, hlow, hhigh, hpair⟩ := h
  refine ⟨n, hlow, hhigh, fun rule hrule => ?_⟩
  obtain ⟨haction, hpriority⟩ := of_mem_rulePair hrule
  refine hmem rule (hpair rule hrule) ⟨haction, ?_⟩ ?_
  · rwa [hpriority]
  · rwa [hpriority]

theorem Stands.mem_allowTexts (h : Stands acls c) (hc : IsIPv4 c)
    (hplain : ∀ rule ∈ acls, BelowOwn rule → Plain rule) : c ∈ allowTexts acls := by
  obtain ⟨n, -, hhigh, hpair⟩ := h
  have hfirst : ⟨"allow-related", "from-lport", "ip4.dst == " ++ c, n⟩ ∈
      rulePair "allow-related" c n := mem_cons_self
  exact (Isolation.mem_allowTexts hplain).mpr
    ⟨_, hpair _ hfirst, ⟨rfl, hhigh⟩, compares_of_mem_rulePair hc hfirst⟩

/-- A prefix that stands on a list as the product writes it passes, but for what management may
not do. -/
theorem Stands.evaluate (h : Stands acls c) (hc : IsIPv4 c) (hmgmt : ∀ c ∈ mgmt, IsIPv4 c)
    (hwritten : ∀ rule ∈ acls, Written mgmt rule) (hd : d = "from-lport" ∨ d = "to-lport")
    (hx : inCIDR x c = true) (hno : ¬ (d = "to-lport" ∧ mgmt.any (inCIDR x) = true)) :
    evaluate acls x d = .allowed := by
  obtain ⟨n, hlow, -, hpair⟩ := h
  have hallow : HasVote (rulePair "allow-related" c n) x d n false :=
    (hasVote_rulePair hc hd).mpr ⟨hx, rfl, rfl⟩
  obtain ⟨rule, hrule, hvote⟩ := hallow
  refine evaluate_eq_allowed ⟨rule, hpair rule hrule, hvote⟩ fun q hq => ?_
  obtain ⟨drop, hdrop, happ, hvote⟩ := hq
  have haction : drop.action = "drop" := by
    simpa [Rule.vote] using congrArg (·.against) hvote
  have hpriority : drop.priority = q := congrArg (·.rank) hvote
  obtain ⟨-, ⟨hallow, -⟩ | ⟨-, hfloor⟩ | hdeny⟩ := hwritten drop hdrop
  · rw [hallow] at haction
    exact absurd haction (by decide)
  · rw [← hpriority, hfloor]
    exact lt_of_lt_of_le (by decide) hlow
  · have hvotes := (hasVote_buildMgmtDenyAcls hmgmt).mp ⟨drop, hdeny, happ, hvote⟩
    exact absurd ⟨hvotes.1, hvotes.2.1⟩ hno

theorem written_of_mem {own : String} (hown : IsIPv4 own) (hcidrs : ∀ c ∈ cidrs, IsIPv4 c)
    (htargets : ∀ c ∈ targets, IsIPv4 c) (hmgmt : ∀ c ∈ mgmt, IsIPv4 c)
    (hrule : rule ∈ rulePair "allow-related" own isolationPriorityOwn ++ sharedAcls cidrs ++
      dropAcls targets ++ buildMgmtDenyAcls mgmt) : Written mgmt rule := by
  refine ⟨plain_of_mem hown hcidrs htargets hmgmt hrule, ?_⟩
  simp only [mem_append] at hrule
  obtain ((hrule | hrule) | hrule) | hrule := hrule
  · obtain ⟨haction, hpriority⟩ := of_mem_rulePair hrule
    refine .inl ⟨haction, ?_⟩
    rw [hpriority]
    decide
  · obtain ⟨k, c, -, hpair⟩ := mem_sharedAcls.mp hrule
    obtain ⟨haction, hpriority⟩ := of_mem_rulePair hpair
    exact .inl ⟨haction, by omega⟩
  · obtain ⟨c, -, hpair⟩ := mem_flatMap.mp hrule
    exact .inr (.inl (of_mem_rulePair hpair))
  · exact .inr (.inr hrule)

theorem Legible.written_rules (h : Legible r s shared) (hrule : rule ∈ r.rules s shared) :
    Written r.mgmt rule :=
  written_of_mem h.own h.exceptions h.targets h.mgmt hrule

theorem Legible.stands_rules (h : Legible r s shared)
    (hlimit : (r.exceptions s shared).length ≤ 100) (hc : c ∈ r.exceptions s shared) :
    Stands (r.rules s shared) c :=
  (stands_of_mem hlimit h.exceptions hc).mono fun rule hrule _ _ => by
    simp [Reading.rules, hrule]

theorem Legible.of_compares (h : Legible r s shared) (hrule : rule ∈ r.rules s shared)
    (hallow : rule.action ≠ "drop") (hcidr : Compares rule c) :
    c = s.cidrBlock ∧ rule.priority = isolationPriorityOwn ∨ c ∈ r.exceptions s shared := by
  simp only [Reading.rules, mem_append] at hrule
  obtain ((hown | hshared) | hdrop) | hmgmt := hrule
  · exact .inl ⟨hcidr.unique (compares_of_mem_rulePair h.own hown), (of_mem_rulePair hown).2⟩
  · obtain ⟨k, c', hk, hpair⟩ := mem_sharedAcls.mp hshared
    rw [filter_ne_empty h.exceptions] at hk
    have hc' := mem_of_getElem? hk
    obtain rfl := hcidr.unique (compares_of_mem_rulePair (h.exceptions c' hc') hpair)
    exact .inr hc'
  · obtain ⟨c', -, hpair⟩ := mem_flatMap.mp hdrop
    exact absurd (of_mem_rulePair hpair).1 hallow
  · obtain ⟨_, _, _, rfl⟩ := mem_buildMgmtDenyAcls.mp hmgmt
    exact absurd rfl hallow

theorem Legible.mem_allowTexts_rules (h : Legible r s shared)
    (hlimit : (r.exceptions s shared).length ≤ 100) :
    c ∈ allowTexts (r.rules s shared) ↔ c ∈ r.exceptions s shared := by
  have hplain : ∀ rule ∈ r.rules s shared, BelowOwn rule → Plain rule :=
    fun rule hrule _ => h.plain_rules hrule
  constructor
  · intro hc
    obtain ⟨rule, hrule, ⟨haction, hlow⟩, hcidr⟩ := (mem_allowTexts hplain).mp hc
    have hallow : rule.action ≠ "drop" := by
      rw [haction]
      decide
    refine (h.of_compares hrule hallow hcidr).resolve_left fun hown => ?_
    exact absurd hown.2 hlow.ne
  · intro hc
    exact (h.stands_rules hlimit hc).mem_allowTexts (h.exceptions c hc) hplain

theorem fits_iff : r.fits s shared = true ↔
    ((r.exceptions s shared).filter (· ≠ "")).length ≤ 29668 := by
  rw [Reading.fits, all_eq_true]
  constructor
  · intro h
    by_contra hlong
    have hlt : 29668 < ((r.exceptions s shared).filter (· ≠ "")).length := by omega
    have hk := List.getElem?_eq_getElem hlt
    have hlast := h _ (mem_append_left _ (mem_append_right _
      (mem_sharedAcls.mpr ⟨29668, _, hk, mem_cons_self⟩)))
    exact absurd hlast (by simp [isolationPriorityShared, maxPriority])
  · intro h rule hrule
    rw [decide_eq_true_eq]
    simp only [mem_append] at hrule
    obtain (hown | hshared) | hdrop := hrule
    · rw [(of_mem_rulePair hown).2]
      decide
    · obtain ⟨k, c, hk, hpair⟩ := mem_sharedAcls.mp hshared
      have hlt := (List.getElem?_eq_some_iff.mp hk).1
      rw [(of_mem_rulePair hpair).2]
      simp only [isolationPriorityShared, maxPriority]
      omega
    · obtain ⟨c, -, hpair⟩ := mem_flatMap.mp hdrop
      rw [(of_mem_rulePair hpair).2]
      decide

theorem fits_of_length_le (hlimit : (r.exceptions s shared).length ≤ 100) :
    r.fits s shared = true := by
  have hfilter := length_filter_le (· ≠ "") (r.exceptions s shared)
  exact fits_iff.mpr (by omega)

theorem aboutSame_comm (a b : Rule) : aboutSame a b = aboutSame b a := by
  simp only [aboutSame, eq_comm]

theorem mem_of_mem_retire (h : rule ∈ retire mgmt acls) :
    rule ∈ acls ∨ rule ∈ buildMgmtDenyAcls mgmt := by
  simp only [retire, mem_append, mem_filter] at h
  exact h.imp And.left And.left

theorem retire_retire (mgmt : List String) (acls : List Rule) :
    retire mgmt (retire mgmt acls) = retire mgmt acls := by
  have hstays : ((retire mgmt acls).filter fun a => a.action ≠ "drop" ||
      (buildMgmtDenyAcls mgmt).any (aboutSame a)) = retire mgmt acls := by
    rw [filter_eq_self]
    intro rule hrule
    rw [retire, mem_append] at hrule
    obtain hkept | hadded := hrule
    · exact (mem_filter.mp hkept).2
    · rw [Bool.or_eq_true, any_eq_true]
      exact .inr ⟨rule, mem_of_mem_filter hadded, by simp [aboutSame]⟩
  have hnone : ((buildMgmtDenyAcls mgmt).filter fun b =>
      !(retire mgmt acls).any (aboutSame b)) = [] := by
    rw [filter_eq_nil_iff]
    intro deny hdeny hmissing
    obtain ⟨rule, hrule, -, hsame⟩ := exists_mem_retire acls hdeny
    rw [Bool.not_eq_true', any_eq_false] at hmissing
    exact hmissing rule hrule (aboutSame_comm deny rule ▸ hsame)
  calc retire mgmt (retire mgmt acls) = ((retire mgmt acls).filter fun a => a.action ≠ "drop" ||
          (buildMgmtDenyAcls mgmt).any (aboutSame a)) ++
        (buildMgmtDenyAcls mgmt).filter fun b =>
          !((retire mgmt acls).filter fun a => a.action ≠ "drop" ||
            (buildMgmtDenyAcls mgmt).any (aboutSame a)).any (aboutSame b) := rfl
    _ = retire mgmt acls := by rw [hstays, hnone, append_nil]

theorem written_retire (hmgmt : ∀ c ∈ mgmt, IsIPv4 c) (hacls : ∀ rule ∈ acls, Written mgmt rule)
    (hrule : rule ∈ retire mgmt acls) : Written mgmt rule := by
  obtain hmem | hdeny := mem_of_mem_retire hrule
  · exact hacls rule hmem
  · obtain ⟨c, hc, -, rfl⟩ := mem_buildMgmtDenyAcls.mp hdeny
    exact ⟨⟨c, hmgmt c hc, .inl rfl⟩, .inr (.inr hdeny)⟩

theorem Stands.retire (h : Stands acls c) : Stands (retire mgmt acls) c := by
  refine h.mono fun rule hrule hbelow _ => ?_
  have hallow : rule.action ≠ "drop" := by
    rw [hbelow.1]
    decide
  simp only [Isolation.retire, mem_append, mem_filter]
  exact .inl ⟨hrule, by simp [hallow]⟩

theorem Stands.withoutBlocking (h : Stands acls c) : Stands (withoutBlocking acls) c := by
  refine h.mono fun rule hrule hbelow hlow => mem_filter.mpr ⟨hrule, ?_⟩
  have hhigh := hbelow.2
  simp only [isolationPriorityOwn, isolationPriorityShared] at hhigh hlow
  simp only [isolationPriorityDrop, mgmtDenyPriority, mem_cons, not_mem_nil, or_false,
    decide_eq_true_eq]
  omega

theorem withoutBlocking_withoutBlocking (acls : List Rule) :
    withoutBlocking (withoutBlocking acls) = withoutBlocking acls := by
  simp [withoutBlocking]

end Written

section Cases

theorem settle_of_owner (howner : s.aclOwner = aclOwnerOperator) : settle parse6 r s = s :=
  settle_of_kept (if_pos howner)

theorem settle_of_role (htenant : s.isTenant = true) (howner : s.aclOwner ≠ aclOwnerOperator)
    (hrole : (vpcRole s).isSome = true) :
    settle parse6 r s = { s with acls := withoutBlocking s.acls } :=
  settle_of_patchUnlessSame htenant ((if_neg howner).trans (if_pos hrole))

theorem settle_of_optedOut (hrole : vpcRole s = none) (hopted : isolationOptedOut s = true) :
    settle parse6 r s = s := by
  refine settle_of_kept ?_
  rw [rewrite_eq hrole, if_pos (.inr hopted)]

namespace Subnet.Maintained

section

variable (h : s.Maintained) (hshared : sharedFrom parse6 r.supernet s.acls = some shared)

include h hshared

theorem rewrite_eq : rewrite parse6 r s =
      if s.cidrBlock = "" ∨ r.targets s = [] then patchUnlessSame s.acls (retire r.mgmt s.acls)
      else if r.fits s shared then .patched (r.rules s shared) else .raised := by
  have hopen : ¬ (s.aclOwner = aclOwnerOperator ∨ isolationOptedOut s = true) := by
    simp [h.owner, h.closed]
  rw [Isolation.rewrite_eq h.role, if_neg hopen, hshared]

theorem settle_retire (hnone : s.cidrBlock = "" ∨ r.targets s = []) :
    settle parse6 r s = { s with acls := retire r.mgmt s.acls } := by
  refine settle_of_patchUnlessSame h.tenant ?_
  rw [h.rewrite_eq hshared, if_pos hnone]

theorem settle_rules (hsome : ¬ (s.cidrBlock = "" ∨ r.targets s = []))
    (hlimit : (r.exceptions s shared).length ≤ 100) :
    settle parse6 r s = { s with acls := r.rules s shared } := by
  refine settle_of_patched h.tenant ?_
  rw [h.rewrite_eq hshared, if_neg hsome, if_pos (fits_of_length_le hlimit)]

end

theorem with_acls (h : s.Maintained) (acls : List Rule) : { s with acls := acls }.Maintained :=
  ⟨h.tenant, h.owner, h.role, h.closed⟩

end Subnet.Maintained

/-- Who a subnet belongs to and what it is for decide what a pass does with it. -/
theorem Subnet.cases_of_tenant (htenant : s.isTenant = true) : s.aclOwner = aclOwnerOperator ∨
      s.aclOwner ≠ aclOwnerOperator ∧ (vpcRole s).isSome = true ∨
      vpcRole s = none ∧ isolationOptedOut s = true ∨ s.Maintained := by
  by_cases howner : s.aclOwner = aclOwnerOperator
  · exact .inl howner
  · cases hrole : vpcRole s with
    | some role => exact .inr (.inl ⟨howner, rfl⟩)
    | none =>
      cases hopted : isolationOptedOut s with
      | true => exact .inr (.inr (.inl ⟨rfl, rfl⟩))
      | false => exact .inr (.inr (.inr ⟨htenant, howner, hrole, hopted⟩))

theorem mem_of_mem_settle_of_optedOut (hopted : isolationOptedOut s = true)
    (hrule : rule ∈ (settle parse6 r s).acls) : rule ∈ s.acls := by
  by_cases htenant : s.isTenant = true
  · obtain howner | ⟨howner, hrole⟩ | ⟨hrole, -⟩ | hmaintained := s.cases_of_tenant htenant
    · rwa [settle_of_owner howner] at hrule
    · rw [settle_of_role htenant howner hrole] at hrule
      exact mem_of_mem_filter hrule
    · rwa [settle_of_optedOut hrole hopted] at hrule
    · rw [hmaintained.closed] at hopted
      cases hopted
  · rwa [settle, if_neg htenant] at hrule

end Cases

namespace WellFormed

section Keeps

variable {supernet : String} {vpcs : List Vpc}

section

variable (h : WellFormed supernet mgmt subnets vpcs)

include h

theorem exists_shared (parse6 : String → Option (Block 128))
    (hwritten : ∀ rule ∈ acls, Written mgmt rule) :
    ∃ shared, sharedFrom parse6 supernet acls = some shared ∧
      ∀ c, c ∈ shared ↔ c ∈ allowTexts acls ∧ ¬ Inside c supernet :=
  exists_sharedFrom parse6 (fun rule hrule _ => (hwritten rule hrule).1) h.supernet

theorem legible_of_written (hs : s ∈ subnets) (htenant : s.isTenant = true)
    (hwritten : ∀ rule ∈ s.acls, Written mgmt rule)
    (hread : ∀ c, c ∈ shared ↔ c ∈ allowTexts s.acls ∧ ¬ Inside c supernet) :
    Legible (readAll supernet mgmt subnets vpcs) s shared :=
  h.legible hs htenant (fun rule hrule _ => (hwritten rule hrule).1) fun c hc => ((hread c).mp hc).1

theorem rewrite_ne_raised (hwritten : ∀ rule ∈ s.acls, Written mgmt rule)
    (htenant : s.isTenant = true) (hlimit : Limited parse6 (readAll supernet mgmt subnets vpcs) s) :
    rewrite parse6 (readAll supernet mgmt subnets vpcs) s ≠ .raised := by
  obtain ⟨shared, hshared, -⟩ := h.exists_shared parse6 hwritten
  have hsame (body : List Rule) : patchUnlessSame s.acls body ≠ .raised := by
    rw [patchUnlessSame]
    split <;> simp
  obtain howner | ⟨howner, hrole⟩ | ⟨hrole, hopted⟩ | hmaintained := s.cases_of_tenant htenant
  · rw [rewrite, if_pos howner]
    simp
  · rw [rewrite, if_neg howner, if_pos hrole]
    exact hsame _
  · rw [rewrite_eq hrole, if_pos (.inr hopted)]
    simp
  · rw [hmaintained.rewrite_eq hshared,
      if_pos (fits_of_length_le (hlimit hmaintained shared hshared))]
    split
    · exact hsame _
    · simp

theorem written_settle (hs : s ∈ subnets) (hwritten : ∀ rule ∈ s.acls, Written mgmt rule)
    (hlimit : Limited parse6 (readAll supernet mgmt subnets vpcs) s)
    (hrule : rule ∈ (settle parse6 (readAll supernet mgmt subnets vpcs) s).acls) :
    Written mgmt rule := by
  by_cases htenant : s.isTenant = true
  · obtain howner | ⟨howner, hrole⟩ | ⟨hrole, hopted⟩ | hmaintained := s.cases_of_tenant htenant
    · rw [settle_of_owner howner] at hrule
      exact hwritten rule hrule
    · rw [settle_of_role htenant howner hrole] at hrule
      exact hwritten rule (mem_of_mem_filter hrule)
    · rw [settle_of_optedOut hrole hopted] at hrule
      exact hwritten rule hrule
    · obtain ⟨shared, hshared, hread⟩ := h.exists_shared parse6 hwritten
      by_cases hnone : s.cidrBlock = "" ∨ (readAll supernet mgmt subnets vpcs).targets s = []
      · rw [hmaintained.settle_retire hshared hnone] at hrule
        exact written_retire h.mgmt hwritten hrule
      · rw [hmaintained.settle_rules hshared hnone (hlimit hmaintained shared hshared)] at hrule
        exact (h.legible_of_written hs htenant hwritten hread).written_rules hrule
  · rw [settle, if_neg htenant] at hrule
    exact hwritten rule hrule

/-- A prefix outside the supernet that stands on the list keeps standing there. -/
theorem stands_settle (hs : s ∈ subnets) (hwritten : ∀ rule ∈ s.acls, Written mgmt rule)
    (hlimit : Limited parse6 (readAll supernet mgmt subnets vpcs) s) (hc : IsIPv4 c)
    (hout : ¬ Inside c supernet) (hstands : Stands s.acls c) :
    Stands (settle parse6 (readAll supernet mgmt subnets vpcs) s).acls c := by
  by_cases htenant : s.isTenant = true
  · obtain howner | ⟨howner, hrole⟩ | ⟨hrole, hopted⟩ | hmaintained := s.cases_of_tenant htenant
    · rwa [settle_of_owner howner]
    · rw [settle_of_role htenant howner hrole]
      exact hstands.withoutBlocking
    · rwa [settle_of_optedOut hrole hopted]
    · obtain ⟨shared, hshared, hread⟩ := h.exists_shared parse6 hwritten
      by_cases hnone : s.cidrBlock = "" ∨ (readAll supernet mgmt subnets vpcs).targets s = []
      · rw [hmaintained.settle_retire hshared hnone]
        exact hstands.retire
      · have hlimit := hlimit hmaintained shared hshared
        rw [hmaintained.settle_rules hshared hnone hlimit]
        refine (h.legible_of_written hs htenant hwritten hread).stands_rules hlimit ?_
        have htext := hstands.mem_allowTexts hc fun rule hrule _ => (hwritten rule hrule).1
        exact mem_sortedSet.mpr (mem_append_left _ ((hread c).mpr ⟨htext, hout⟩))
  · rwa [settle, if_neg htenant]

theorem settle_settle (hs : s ∈ subnets) (hwritten : ∀ rule ∈ s.acls, Written mgmt rule)
    (hlimit : Limited parse6 (readAll supernet mgmt subnets vpcs) s) :
    settle parse6 (readAll supernet mgmt subnets vpcs)
        (settle parse6 (readAll supernet mgmt subnets vpcs) s) =
      settle parse6 (readAll supernet mgmt subnets vpcs) s := by
  by_cases htenant : s.isTenant = true
  · obtain howner | ⟨howner, hrole⟩ | ⟨hrole, hopted⟩ | hmaintained := s.cases_of_tenant htenant
    · rw [settle_of_owner howner, settle_of_owner howner]
    · have hsecond : settle parse6 (readAll supernet mgmt subnets vpcs)
          { s with acls := withoutBlocking s.acls } =
          { s with acls := withoutBlocking (withoutBlocking s.acls) } :=
        settle_of_role htenant howner hrole
      rw [settle_of_role htenant howner hrole, hsecond, withoutBlocking_withoutBlocking]
    · rw [settle_of_optedOut hrole hopted, settle_of_optedOut hrole hopted]
    · obtain ⟨shared, hshared, hread⟩ := h.exists_shared parse6 hwritten
      by_cases hnone : s.cidrBlock = "" ∨ (readAll supernet mgmt subnets vpcs).targets s = []
      · obtain ⟨left, hleft, -⟩ := h.exists_shared parse6
          fun rule hrule => written_retire h.mgmt hwritten hrule
        have hsecond : settle parse6 (readAll supernet mgmt subnets vpcs)
            { s with acls := retire mgmt s.acls } =
            { s with acls := retire mgmt (retire mgmt s.acls) } :=
          (hmaintained.with_acls (retire mgmt s.acls)).settle_retire hleft hnone
        rw [retire_retire] at hsecond
        rw [hmaintained.settle_retire hshared hnone]
        exact hsecond
      · have hlimit := hlimit hmaintained shared hshared
        have hlegible := h.legible_of_written hs htenant hwritten hread
        obtain ⟨shared', hshared', hread'⟩ := h.exists_shared parse6
          fun rule hrule => hlegible.written_rules hrule
        -- what is read back and is not peered is what was read the first time
        have hsame : (readAll supernet mgmt subnets vpcs).exceptions s shared' =
            (readAll supernet mgmt subnets vpcs).exceptions s shared := by
          refine sortedSet_eq_iff.mpr fun c => ?_
          rw [mem_append, mem_append, hread', hlegible.mem_allowTexts_rules hlimit,
            Reading.exceptions, mem_sortedSet, mem_append]
          constructor
          · rintro (⟨hmem, -⟩ | hpeered)
            · exact hmem
            · exact .inr hpeered
          · rintro (hmem | hpeered)
            · exact .inl ⟨.inl hmem, ((hread c).mp hmem).2⟩
            · exact .inr hpeered
        have hrules : (readAll supernet mgmt subnets vpcs).rules s shared' =
            (readAll supernet mgmt subnets vpcs).rules s shared := by
          rw [Reading.rules, hsame]
          rfl
        have hsecond := (hmaintained.with_acls
          ((readAll supernet mgmt subnets vpcs).rules s shared)).settle_rules hshared' hnone
          (hsame.symm ▸ hlimit)
        rw [hmaintained.settle_rules hshared hnone hlimit]
        exact hsecond.trans (congrArg (fun acls => { s with acls := acls }) hrules)
  · have hkept : settle parse6 (readAll supernet mgmt subnets vpcs) s = s := by
      rw [settle, if_neg htenant]
    rw [hkept, hkept]

end

end Keeps

end WellFormed

end Isolation
