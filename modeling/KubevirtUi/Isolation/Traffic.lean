import KubevirtUi.Isolation.Pass

/-!
# What a rewritten list does

Whether an address is inside the supernet is a matter of addresses and not of texts. A list that
a pass has written decides by the networks that an address lies in: those of the management first,
then those that the subnet may reach, and then those of the other tenants.
-/

namespace Isolation

open Acl Go.Netip Python Python.Ipaddress List

/-- Every address of the one network is an address of the other. -/
def Inside (cidr supernet : String) : Prop :=
  ∀ x : BitVec 32, inCIDR (.v4 x) cidr = true → inCIDR (.v4 x) supernet = true

variable {parse6 : String → Option (Block 128)} {cidr supernet d : String} {existing : List Rule}
  {rule : Rule} {shared mgmt : List String} {x : Addr}

section Inside

variable {p : Block 32}

/-- A text that is read as an IPv4 prefix in one language is read as the same one in the other,
which clears the host bits. -/
theorem ipNetwork_of_parsePrefix (h : parsePrefix cidr = some (.v4 p)) :
    ipNetwork parse6 cidr = some (.v4 p.masked) := by
  obtain ⟨a, b, ip, n, htext, hip, hn, hp⟩ := parsePrefixChars_eq_some h
  obtain ⟨x, rfl⟩ : ∃ x, ip = .v4 x := by
    cases ip with
    | zero => simp [prefixFrom] at hp
    | v4 x => exact ⟨x, rfl⟩
    | v6 x =>
      simp only [prefixFrom] at hp
      split at hp <;> simp at hp
  simp only [prefixFrom] at hp
  split at hp
  · next hle =>
    obtain rfl := Prefix.v4.inj (Option.some.inj hp)
    have hdigits := isDigit_of_parseBits hn
    have hslash : '/' ∉ b := fun hmem => absurd (hdigits _ hmem) (by decide)
    obtain ⟨hne, hvalue⟩ : b ≠ [] ∧ Nat.ofDigitChars 10 b 0 = n := by
      cases b with
      | nil => cases hn
      | cons c b =>
        refine ⟨cons_ne_nil _ _, ?_⟩
        simp only [parseBits] at hn
        split at hn
        · cases hn
        · split at hn
          · exact Option.some.inj hn
          · cases hn
    have hmask : makeNetmask b = some n := by
      rw [makeNetmask, prefixFromPrefixString, if_pos ⟨hne, all_eq_true.mpr hdigits⟩]
      simp [hvalue, hle]
    have hsplit : cidr.toList.splitOn '/' = [formatIPv4 x, b] := by
      rw [htext, eq_formatIPv4_of_parseAddr hip, splitOn_append_cons_self,
        splitOn_eq_singleton (foreign_slash.not_mem_formatIPv4 x),
        splitOn_eq_singleton hslash, singleton_append]
    rw [ipNetwork, ipv4Network, hsplit]
    simp [ipIntFromString_formatIPv4, hmask, network, hle]
  · cases hp

theorem ne_empty_of_inside (hcidr : IsIPv4 cidr) (h : Inside cidr supernet) : supernet ≠ "" := by
  rintro rfl
  obtain ⟨p, hp⟩ := hcidr
  have hbase : inCIDR (.v4 p.base) cidr = true := by
    simp [inCIDR, hp, Prefix.contains, p.contains_base]
  have hnone : parsePrefix "" = none := by decide
  have hempty := h _ hbase
  rw [inCIDR, hnone] at hempty
  cases hempty

theorem within_of_isIPv4 (parse6 : String → Option (Block 128)) (hcidr : IsIPv4 cidr)
    (hsupernet : supernet = "" ∨ IsIPv4 supernet) :
    ∃ b, within parse6 cidr supernet = some b ∧ (b = true ↔ Inside cidr supernet) := by
  obtain ⟨p, hp⟩ := hcidr
  have hne := ne_empty_of_parsePrefix hp
  obtain rfl | ⟨q, hq⟩ := hsupernet
  · exact ⟨false, if_pos (.inr rfl), iff_of_false Bool.false_ne_true fun h =>
      ne_empty_of_inside ⟨p, hp⟩ h rfl⟩
  · have hnone := not_or.mpr ⟨hne, ne_empty_of_parsePrefix hq⟩
    refine ⟨blockSubnetOf p.masked q.masked, ?_, ?_⟩
    · rw [within, if_neg hnone, ipNetwork_of_parsePrefix hp, ipNetwork_of_parsePrefix hq]
      rfl
    · rw [blockSubnetOf_iff_forall p.masked_masked q.masked_masked]
      simp [Inside, inCIDR, hp, hq, Prefix.contains]

theorem within_eq_true_iff (hcidr : IsIPv4 cidr) (hsupernet : supernet = "" ∨ IsIPv4 supernet) :
    within parse6 cidr supernet = some true ↔ Inside cidr supernet := by
  obtain ⟨b, hb, hinside⟩ := within_of_isIPv4 parse6 hcidr hsupernet
  rw [hb, Option.some.injEq, hinside]

end Inside

/-- The match compares an address with one IPv4 prefix, and does nothing else. -/
def Compares (rule : Rule) (cidr : String) : Prop :=
  IsIPv4 cidr ∧ (rule.matchExpr = "ip4.src == " ++ cidr ∨ rule.matchExpr = "ip4.dst == " ++ cidr)

def Plain (rule : Rule) : Prop := ∃ cidr, Compares rule cidr

/-- An allow below the subnet's own band, which is what a pass reads back. -/
def BelowOwn (rule : Rule) : Prop :=
  rule.action = "allow-related" ∧ rule.priority < isolationPriorityOwn

instance (rule : Rule) : Decidable (BelowOwn rule) := inferInstanceAs (Decidable (_ ∧ _))

theorem compares_of_mem_rulePair {action : String} {n : Int} (hcidr : IsIPv4 cidr)
    (h : rule ∈ rulePair action cidr n) : Compares rule cidr := by
  simp only [rulePair, mem_cons, not_mem_nil, or_false] at h
  obtain rfl | rfl := h
  · exact ⟨hcidr, .inr rfl⟩
  · exact ⟨hcidr, .inl rfl⟩

section ReadBack

theorem Compares.afterLast (h : Compares rule cidr) :
    Go.afterLast "== ".toList rule.matchExpr.toList = some cidr.toList := by
  obtain ⟨⟨p, hp⟩, hmatch⟩ := h
  have hspace : ' ' ∉ cidr.toList := fun hmem =>
    absurd (isSpace_of_parsePrefix_v4 hp ' ' hmem) (by decide)
  have hnone : Go.afterLast ['=', '=', ' '] cidr.toList = none :=
    Go.afterLast_eq_none (by decide) hspace
  have hlast : Go.afterLast "== ".toList ("== ".toList ++ cidr.toList) = some cidr.toList := by
    show Go.afterLast ['=', '=', ' '] ('=' :: '=' :: ' ' :: cidr.toList) = _
    simp [Go.afterLast, hnone]
  have hsrc : "ip4.src == ".toList = "ip4.src ".toList ++ "== ".toList := by decide
  have hdst : "ip4.dst == ".toList = "ip4.dst ".toList ++ "== ".toList := by decide
  obtain hmatch | hmatch := hmatch
  · rw [hmatch, String.toList_append, hsrc, append_assoc]
    exact Go.afterLast_append hlast _
  · rw [hmatch, String.toList_append, hdst, append_assoc]
    exact Go.afterLast_append hlast _

theorem Compares.unique {other : String} (h : Compares rule cidr) (h' : Compares rule other) :
    cidr = other := by
  have heq := h.afterLast.symm.trans h'.afterLast
  exact String.toList_injective (Option.some.inj heq)

/-- The texts that are read back are the prefixes of the allows below the subnet's own band. -/
theorem mem_allowTexts (hplain : ∀ rule ∈ existing, BelowOwn rule → Plain rule) {c : String} :
    c ∈ allowTexts existing ↔ ∃ rule ∈ existing, BelowOwn rule ∧ Compares rule c := by
  rw [allowTexts, mem_filterMap]
  constructor
  · rintro ⟨rule, hrule, htext⟩
    split at htext
    · next hbelow =>
      obtain ⟨cidr, hcidr⟩ := hplain rule hrule hbelow
      rw [hcidr.afterLast, Option.map_some, String.ofList_toList] at htext
      obtain rfl := Option.some.inj htext
      exact ⟨rule, hrule, hbelow, hcidr⟩
    · cases htext
  · rintro ⟨rule, hrule, hbelow, hcidr⟩
    refine ⟨rule, hrule, (if_pos hbelow).trans ?_⟩
    rw [hcidr.afterLast, Option.map_some, String.ofList_toList]

theorem isIPv4_of_mem_allowTexts (hplain : ∀ rule ∈ existing, BelowOwn rule → Plain rule)
    {c : String} (hc : c ∈ allowTexts existing) : IsIPv4 c := by
  obtain ⟨_, _, _, hcidr⟩ := (mem_allowTexts hplain).mp hc
  exact hcidr.1

/-- Where all allows are plain, what is read back are the prefixes outside the supernet. -/
theorem exists_sharedFrom (parse6 : String → Option (Block 128))
    (hplain : ∀ rule ∈ existing, BelowOwn rule → Plain rule)
    (hsupernet : supernet = "" ∨ IsIPv4 supernet) :
    ∃ shared, sharedFrom parse6 supernet existing = some shared ∧
      ∀ c, c ∈ shared ↔ c ∈ allowTexts existing ∧ ¬ Inside c supernet := by
  have hsome : ((allowTexts existing).all fun m => (within parse6 m supernet).isSome) = true := by
    rw [all_eq_true]
    intro c hc
    obtain ⟨b, hb, -⟩ := within_of_isIPv4 parse6 (isIPv4_of_mem_allowTexts hplain hc) hsupernet
    rw [hb]
    rfl
  refine ⟨_, if_pos hsome, fun c => ?_⟩
  rw [mem_filter]
  refine and_congr_right fun hc => ?_
  rw [decide_eq_true_eq, ne_eq, not_iff_not]
  exact within_eq_true_iff (isIPv4_of_mem_allowTexts hplain hc) hsupernet

end ReadBack

section Votes

variable {r : Reading} {s : Subnet} {p : Int} {drop : Bool} {cidrs targets : List String}

theorem filter_ne_empty (h : ∀ c ∈ cidrs, IsIPv4 c) : cidrs.filter (· ≠ "") = cidrs :=
  filter_eq_self.mpr fun c hc => decide_eq_true (h c hc).trimmed.2

theorem hasVote_sharedAcls (h : ∀ c ∈ cidrs, IsIPv4 c) (hd : d = "from-lport" ∨ d = "to-lport") :
    HasVote (sharedAcls cidrs) x d p drop ↔ ∃ k : Nat, ∃ c, cidrs[k]? = some c ∧
      inCIDR x c = true ∧ p = isolationPriorityShared + k ∧ drop = false := by
  rw [sharedAcls, filter_ne_empty h, hasVote_flatMap]
  constructor
  · rintro ⟨⟨c, k⟩, hmem, hvote⟩
    have hk := mem_zipIdx_iff_getElem?.mp hmem
    rw [hasVote_rulePair (h c (mem_of_getElem? hk)) hd] at hvote
    exact ⟨k, c, hk, by simpa using hvote⟩
  · rintro ⟨k, c, hk, hvote⟩
    refine ⟨(c, k), mem_zipIdx_iff_getElem?.mpr hk, ?_⟩
    exact (hasVote_rulePair (h c (mem_of_getElem? hk)) hd).mpr (by simpa using hvote)

theorem hasVote_dropAcls (h : ∀ c ∈ targets, IsIPv4 c) (hd : d = "from-lport" ∨ d = "to-lport") :
    HasVote (dropAcls targets) x d p drop ↔
      (∃ c ∈ targets, inCIDR x c = true) ∧ p = isolationPriorityDrop ∧ drop = true := by
  rw [dropAcls, hasVote_flatMap]
  constructor
  · rintro ⟨c, hc, hvote⟩
    rw [hasVote_rulePair (h c hc) hd] at hvote
    exact ⟨⟨c, hc, hvote.1⟩, by simpa using hvote.2⟩
  · rintro ⟨⟨c, hc, hx⟩, hvote⟩
    exact ⟨c, hc, (hasVote_rulePair (h c hc) hd).mpr ⟨hx, by simpa using hvote⟩⟩

theorem mem_buildMgmtDenyAcls : rule ∈ buildMgmtDenyAcls mgmt ↔
    ∃ c ∈ mgmt, c ≠ "" ∧ rule = ⟨"drop", "to-lport", "ip4.src == " ++ c, mgmtDenyPriority⟩ := by
  simp only [buildMgmtDenyAcls, mem_map, mem_eraseDups, mem_filter, decide_eq_true_eq,
    and_assoc, @eq_comm _ rule]

theorem hasVote_buildMgmtDenyAcls (h : ∀ c ∈ mgmt, IsIPv4 c) :
    HasVote (buildMgmtDenyAcls mgmt) x d p drop ↔
      d = "to-lport" ∧ mgmt.any (inCIDR x) = true ∧ p = mgmtDenyPriority ∧ drop = true := by
  simp only [HasVote, any_eq_true]
  constructor
  · rintro ⟨rule, hrule, happ, hvote⟩
    obtain ⟨c, hc, -, rfl⟩ := mem_buildMgmtDenyAcls.mp hrule
    rw [(h c hc).applies_src, Bool.and_eq_true, decide_eq_true_eq] at happ
    simp only [Rule.vote, Ranking.Vote.mk.injEq, decide_true] at hvote
    exact ⟨happ.1.symm, ⟨c, hc, happ.2⟩, hvote.1.symm, hvote.2.symm⟩
  · rintro ⟨rfl, ⟨c, hc, hx⟩, rfl, rfl⟩
    refine ⟨_, mem_buildMgmtDenyAcls.mpr ⟨c, hc, (h c hc).trimmed.2, rfl⟩, ?_, rfl⟩
    rw [(h c hc).applies_src, hx]
    rfl

theorem plain_of_mem {own : String} (hown : IsIPv4 own) (hcidrs : ∀ c ∈ cidrs, IsIPv4 c)
    (htargets : ∀ c ∈ targets, IsIPv4 c) (hmgmt : ∀ c ∈ mgmt, IsIPv4 c)
    (hrule : rule ∈ rulePair "allow-related" own isolationPriorityOwn ++ sharedAcls cidrs ++
      dropAcls targets ++ buildMgmtDenyAcls mgmt) : Plain rule := by
  simp only [mem_append] at hrule
  obtain ((hrule | hrule) | hrule) | hrule := hrule
  · exact ⟨own, compares_of_mem_rulePair hown hrule⟩
  · rw [sharedAcls, filter_ne_empty hcidrs, mem_flatMap] at hrule
    obtain ⟨⟨c, k⟩, hmem, hrule⟩ := hrule
    have hk := mem_zipIdx_iff_getElem?.mp hmem
    exact ⟨c, compares_of_mem_rulePair (hcidrs c (mem_of_getElem? hk)) hrule⟩
  · obtain ⟨c, hc, hrule⟩ := mem_flatMap.mp hrule
    exact ⟨c, compares_of_mem_rulePair (htargets c hc) hrule⟩
  · obtain ⟨c, hc, -, rfl⟩ := mem_buildMgmtDenyAcls.mp hrule
    exact ⟨c, hmgmt c hc, .inl rfl⟩

/-- All that a list is written from are IPv4 prefixes. -/
structure Legible (r : Reading) (s : Subnet) (shared : List String) : Prop where
  own : IsIPv4 s.cidrBlock
  exceptions : ∀ c ∈ r.exceptions s shared, IsIPv4 c
  targets : ∀ c ∈ r.targets s, IsIPv4 c
  mgmt : ∀ c ∈ r.mgmt, IsIPv4 c

/-- No exception has a number that reaches the management deny and overlaps what it is for. -/
def DenyAbove (r : Reading) (s : Subnet) (shared : List String) : Prop :=
  ∀ k c, 200 ≤ k → (r.exceptions s shared)[k]? = some c → ∀ m ∈ r.mgmt, ¬ cidrsOverlap m c

namespace Legible

section

variable (h : Legible r s shared)

include h

theorem hasVote_rules (hd : d = "from-lport" ∨ d = "to-lport") :
    HasVote (r.rules s shared) x d p drop ↔
      (inCIDR x s.cidrBlock = true ∧ p = isolationPriorityOwn ∧ drop = false) ∨
      (∃ k : Nat, ∃ c, (r.exceptions s shared)[k]? = some c ∧ inCIDR x c = true ∧
        p = isolationPriorityShared + k ∧ drop = false) ∨
      ((∃ c ∈ r.targets s, inCIDR x c = true) ∧ p = isolationPriorityDrop ∧ drop = true) ∨
      (d = "to-lport" ∧ r.mgmt.any (inCIDR x) = true ∧ p = mgmtDenyPriority ∧ drop = true) := by
  rw [Reading.rules, hasVote_append, hasVote_append, hasVote_append, hasVote_rulePair h.own hd,
    hasVote_sharedAcls h.exceptions hd, hasVote_dropAcls h.targets hd,
    hasVote_buildMgmtDenyAcls h.mgmt, or_assoc, or_assoc]
  simp

theorem hasVote_allow (hd : d = "from-lport" ∨ d = "to-lport") :
    HasVote (r.rules s shared) x d p false ↔
      (inCIDR x s.cidrBlock = true ∧ p = isolationPriorityOwn) ∨
      (∃ k : Nat, ∃ c, (r.exceptions s shared)[k]? = some c ∧ inCIDR x c = true ∧
        p = isolationPriorityShared + k) := by
  rw [h.hasVote_rules hd]
  simp

theorem hasVote_drop (hd : d = "from-lport" ∨ d = "to-lport") :
    HasVote (r.rules s shared) x d p true ↔
      ((∃ c ∈ r.targets s, inCIDR x c = true) ∧ p = isolationPriorityDrop) ∨
      (d = "to-lport" ∧ r.mgmt.any (inCIDR x) = true ∧ p = mgmtDenyPriority) := by
  rw [h.hasVote_rules hd]
  simp

theorem evaluate_mgmt (habove : DenyAbove r s shared) (hx : r.mgmt.any (inCIDR x) = true) :
    evaluate (r.rules s shared) x "to-lport" = .dropped := by
  refine evaluate_eq_dropped (p := mgmtDenyPriority) (by decide)
    ((h.hasVote_drop (.inr rfl)).mpr (.inr ⟨rfl, hx, rfl⟩)) fun q hq => ?_
  obtain ⟨-, rfl⟩ | ⟨k, c, hk, hxc, rfl⟩ := (h.hasVote_allow (.inr rfl)).mp hq
  · decide
  · obtain ⟨m, hm, hxm⟩ := any_eq_true.mp hx
    have hover := cidrsOverlap_of_inCIDR (h.mgmt m hm) (h.exceptions c (mem_of_getElem? hk)) hxm hxc
    have hlow : ¬ 200 ≤ k := fun hle => habove k c hle hk m hm hover
    simp only [isolationPriorityShared, mgmtDenyPriority]
    omega

/-- What the subnet may reach passes: the only other drop is the one of the tenants. -/
theorem evaluate_reach (hd : d = "from-lport" ∨ d = "to-lport")
    (hmgmt : ¬ (d = "to-lport" ∧ r.mgmt.any (inCIDR x) = true))
    (hx : inCIDR x s.cidrBlock = true ∨ ∃ c ∈ r.exceptions s shared, inCIDR x c = true) :
    evaluate (r.rules s shared) x d = .allowed := by
  have hdrop : ∀ q, HasVote (r.rules s shared) x d q true → q = isolationPriorityDrop := by
    intro q hq
    obtain ⟨-, hq⟩ | ⟨hto, hm, -⟩ := (h.hasVote_drop hd).mp hq
    · exact hq
    · exact absurd ⟨hto, hm⟩ hmgmt
  obtain hown | ⟨c, hc, hxc⟩ := hx
  · refine evaluate_eq_allowed ((h.hasVote_allow hd).mpr (.inl ⟨hown, rfl⟩)) fun q hq => ?_
    rw [hdrop q hq]
    decide
  · obtain ⟨k, hk⟩ := mem_iff_getElem?.mp hc
    refine evaluate_eq_allowed ((h.hasVote_allow hd).mpr (.inr ⟨k, c, hk, hxc, rfl⟩)) fun q hq => ?_
    rw [hdrop q hq]
    simp only [isolationPriorityDrop, isolationPriorityShared]
    omega

theorem evaluate_target (hd : d = "from-lport" ∨ d = "to-lport")
    (hreach : ¬ (inCIDR x s.cidrBlock = true ∨ ∃ c ∈ r.exceptions s shared, inCIDR x c = true))
    (hx : ∃ c ∈ r.targets s, inCIDR x c = true) : evaluate (r.rules s shared) x d = .dropped := by
  refine evaluate_eq_dropped (p := isolationPriorityDrop) (by decide)
    ((h.hasVote_drop hd).mpr (.inl ⟨hx, rfl⟩)) fun q hq => ?_
  obtain ⟨hown, -⟩ | ⟨k, c, hk, hxc, -⟩ := (h.hasVote_allow hd).mp hq
  · exact absurd (.inl hown) hreach
  · exact absurd (.inr ⟨c, mem_of_getElem? hk, hxc⟩) hreach

theorem plain_rules (hrule : rule ∈ r.rules s shared) : Plain rule :=
  plain_of_mem h.own h.exceptions h.targets h.mgmt hrule

end

end Legible

end Votes

section Retired

theorem of_mem_retire (h : rule ∈ retire mgmt existing) : rule ∈ existing ∧ rule.action ≠ "drop" ∨
      ∃ c ∈ mgmt, c ≠ "" ∧ rule.direction = "to-lport" ∧ rule.matchExpr = "ip4.src == " ++ c := by
  simp only [retire, mem_append, mem_filter, Bool.or_eq_true, decide_eq_true_eq] at h
  obtain ⟨hrule, hstays | hsame⟩ | ⟨hadded, -⟩ := h
  · exact .inl ⟨hrule, hstays⟩
  · obtain ⟨deny, hdeny, hsame⟩ := any_eq_true.mp hsame
    obtain ⟨c, hc, hne, rfl⟩ := mem_buildMgmtDenyAcls.mp hdeny
    simp only [aboutSame, Bool.and_eq_true, decide_eq_true_eq] at hsame
    exact .inr ⟨c, hc, hne, hsame⟩
  · obtain ⟨c, hc, hne, rfl⟩ := mem_buildMgmtDenyAcls.mp hadded
    exact .inr ⟨c, hc, hne, rfl, rfl⟩

/-- Every management prefix has a rule of its own in the list: the deny, or one that says the same
of it. -/
theorem exists_mem_retire (existing : List Rule) {deny : Rule} (h : deny ∈ buildMgmtDenyAcls mgmt) :
    ∃ rule ∈ retire mgmt existing,
      (rule = deny ∨ rule ∈ existing) ∧ aboutSame rule deny = true := by
  simp only [retire, mem_append]
  by_cases hbody : (existing.filter fun a => a.action ≠ "drop" ||
      (buildMgmtDenyAcls mgmt).any (aboutSame a)).any (aboutSame deny) = true
  · obtain ⟨rule, hrule, hsame⟩ := any_eq_true.mp hbody
    refine ⟨rule, .inl hrule, .inr (mem_of_mem_filter hrule), ?_⟩
    simp only [aboutSame, Bool.and_eq_true, decide_eq_true_eq] at hsame ⊢
    exact ⟨hsame.1.symm, hsame.2.symm⟩
  · refine ⟨deny, .inr (mem_filter.mpr ⟨h, by simpa using hbody⟩), .inl rfl, ?_⟩
    simp [aboutSame]

/-- Nothing on the list reaches the management deny or takes its place. -/
def DenyAlone (mgmt : List String) (existing : List Rule) : Prop :=
  ∀ rule ∈ existing, (rule.action ≠ "drop" → rule.priority < mgmtDenyPriority) ∧
    ∀ deny ∈ buildMgmtDenyAcls mgmt, aboutSame rule deny = true → rule = deny

theorem evaluate_retire_mgmt (h : ∀ c ∈ mgmt, IsIPv4 c) (halone : DenyAlone mgmt existing)
    (hx : mgmt.any (inCIDR x) = true) :
    evaluate (retire mgmt existing) x "to-lport" = .dropped := by
  obtain ⟨c, hc, hxc⟩ := any_eq_true.mp hx
  have hdeny := mem_buildMgmtDenyAcls.mpr ⟨c, hc, (h c hc).trimmed.2, rfl⟩
  obtain ⟨rule, hrule, hfrom, hsame⟩ := exists_mem_retire existing hdeny
  obtain rfl := hfrom.elim id fun hmem => (halone rule hmem).2 _ hdeny hsame
  refine evaluate_eq_dropped (p := mgmtDenyPriority) (by decide) ⟨_, hrule, ?_, rfl⟩ ?_
  · rw [(h c hc).applies_src, hxc]
    rfl
  · rintro q ⟨other, hother, -, hvote⟩
    have hpriority : other.priority = q := congrArg (·.rank) hvote
    have hallow : other.action ≠ "drop" := by
      simpa [Rule.vote] using congrArg (·.against) hvote
    obtain ⟨hmem, -⟩ | ⟨m, hm, hne, hdir, hmatch⟩ := of_mem_retire hother
    · exact hpriority ▸ (halone other hmem).1 hallow
    · -- it would be the deny itself, which is a drop
      have hsame : aboutSame other ⟨"drop", "to-lport", "ip4.src == " ++ m, mgmtDenyPriority⟩ =
          true := by simp [aboutSame, hdir, hmatch]
      have hdeny' := mem_buildMgmtDenyAcls.mpr ⟨m, hm, hne, rfl⟩
      simp only [retire, mem_append, mem_filter] at hother
      obtain ⟨hmem, -⟩ | ⟨hadded, -⟩ := hother
      · rw [(halone other hmem).2 _ hdeny' hsame] at hallow
        exact absurd rfl hallow
      · obtain ⟨_, _, _, rfl⟩ := mem_buildMgmtDenyAcls.mp hadded
        exact absurd rfl hallow

theorem evaluate_retire_other (h : ∀ c ∈ mgmt, IsIPv4 c)
    (hmgmt : ¬ (d = "to-lport" ∧ mgmt.any (inCIDR x) = true)) :
    evaluate (retire mgmt existing) x d = .allowed := by
  refine evaluate_eq_allowed_of_forall_not fun q hq => ?_
  obtain ⟨rule, hrule, happ, hvote⟩ := hq
  have hdrop : rule.action = "drop" := by
    simpa [Rule.vote] using congrArg (·.against) hvote
  obtain ⟨-, hallow⟩ | ⟨c, hc, -, hdir, hmatch⟩ := of_mem_retire hrule
  · exact hallow hdrop
  · rw [Rule.applies, hmatch, (h c hc).matchPrefix_src, Bool.and_eq_true, decide_eq_true_eq] at happ
    exact hmgmt ⟨happ.1.symm.trans hdir, any_eq_true.mpr ⟨c, hc, happ.2⟩⟩

end Retired

end Isolation
