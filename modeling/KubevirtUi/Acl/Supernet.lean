import KubevirtUi.Acl.Render

/-!
# The list is one of the set of networks

In what order the API lists the networks, and how often each, makes no difference to the composed
list, and a tenant that lies inside the supernet makes none either: one pair of rules drops the
whole supernet.
-/

namespace Acl

open Go Go.Netip List

/-- The same networks and settings, in other orders and with other repetitions. -/
structure Relisted (i j : Input) : Prop where
  same : j = { i with
    tenantCIDRs := j.tenantCIDRs, peerCIDRs := j.peerCIDRs, mgmtCIDRs := j.mgmtCIDRs }
  tenants : ∀ cidr, cidr ∈ j.tenantCIDRs ↔ cidr ∈ i.tenantCIDRs
  peers : ∀ cidr, cidr ∈ j.peerCIDRs ↔ cidr ∈ i.peerCIDRs
  mgmt : ∀ cidr, cidr ∈ j.mgmtCIDRs ↔ cidr ∈ i.mgmtCIDRs

/-- Every address of the prefix is in the aggregate. -/
def LiesInside (aggregate : Prefix) (cidr : String) : Prop :=
  ∃ p, parsePrefix (trimSpace cidr) = some p ∧ ∀ x, p.contains x → aggregate.contains x

section Inside

theorem bits_le_of_contains {w : Nat} {p q : Block w} (h : ∀ x, p.Contains x → q.Contains x) :
    q.bits ≤ p.bits := by
  by_contra hlt
  have hq := q.bits_le
  have hp := p.bits_le
  -- The address that differs in the last significant bit of the other block.
  have hflip : p.Contains (p.base ^^^ BitVec.twoPow w (w - q.bits)) := by
    apply BitVec.eq_of_getLsbD_eq
    intro k _
    have hother : ¬w - q.bits = w - p.bits + k := by omega
    simp [BitVec.getLsbD_twoPow, hother]
  have hsame : Block.Agree q.bits p.base (p.base ^^^ BitVec.twoPow w (w - q.bits)) :=
    (h _ p.contains_base).trans (h _ hflip).symm
  have hbit := congrArg (fun x : BitVec w => x.getLsbD 0) hsame
  have hrange : w - q.bits < w := by omega
  simp [hrange] at hbit

variable {aggregate p : Prefix}

theorem overlaps_of_inside (h : ∀ x, p.contains x → aggregate.contains x) :
    aggregate.overlaps p = true ∧ aggregate.bits ≤ p.bits := by
  cases p with
  | v4 p =>
    cases aggregate with
    | v4 q =>
      have hblock (x : BitVec 32) (hx : p.Contains x) : q.Contains x := by
        simpa [Prefix.contains, hx] using h (.v4 x)
      refine ⟨?_, bits_le_of_contains hblock⟩
      rw [Prefix.overlaps, decide_eq_true_eq, ← Block.overlaps_iff_agree]
      exact ⟨p.base, hblock _ p.contains_base, p.contains_base⟩
    | v6 q => simpa [Prefix.contains, p.contains_base] using h (.v4 p.base)
  | v6 p =>
    cases aggregate with
    | v4 q => simpa [Prefix.contains, p.contains_base] using h (.v6 p.base)
    | v6 q =>
      have hblock (x : BitVec 128) (hx : p.Contains x) : q.Contains x := by
        simpa [Prefix.contains, hx] using h (.v6 x)
      refine ⟨?_, bits_le_of_contains hblock⟩
      rw [Prefix.overlaps, decide_eq_true_eq, ← Block.overlaps_iff_agree]
      exact ⟨p.base, hblock _ p.contains_base, p.contains_base⟩

end Inside

section Same

variable {i j : Input} {xs ys tenants : List String} {aggregate : Prefix} {supernet self v : String}

theorem perm_dedupe (h : ∀ x, x ∈ xs ↔ x ∈ ys) : (dedupe xs).Perm (dedupe ys) := by
  refine (perm_ext_iff_of_nodup (nodup_dedupeFrom [] xs) (nodup_dedupeFrom [] ys)).mpr ?_
  intro v
  change v ∈ dedupe xs ↔ v ∈ dedupe ys
  simp only [mem_dedupe_iff, h]

theorem length_dedupeFrom_le (seen : List String) : (dedupeFrom seen xs).length ≤ xs.length := by
  induction xs generalizing seen with
  | nil => exact Nat.le_refl 0
  | cons x rest ih =>
    rw [dedupeFrom]
    split
    · exact Nat.le_succ_of_le (ih seen)
    · exact Nat.succ_le_succ (ih _)

theorem perm_outside (h : ∀ x, x ∈ xs ↔ x ∈ ys) :
    (outside supernet xs self).Perm (outside supernet ys self) := by
  have hother (x : String) : x ∈ without xs self ↔ x ∈ without ys self := by
    simp only [without, mem_filter, h]
  rw [outside, outside]
  split
  · exact perm_dedupe hother
  · split
    · exact perm_dedupe hother
    · exact (perm_dedupe hother).filter _

theorem mem_outside_iff (hsupernet : parsePrefix supernet = some aggregate) :
    v ∈ outside supernet xs self ↔ ∃ x ∈ xs, x ≠ self ∧ ¬LiesInside aggregate x ∧
      v ∈ outside supernet [x] self := by
  have hne : supernet ≠ "" := ne_empty_of_parsePrefix hsupernet
  simp only [outside, if_neg hne, hsupernet, mem_filter, mem_dedupe_iff, without,
    mem_singleton, decide_eq_true_eq]
  constructor
  · rintro ⟨⟨hv, x, ⟨hx, hself⟩, rfl⟩, hfar⟩
    refine ⟨x, hx, hself, ?_, ⟨hv, x, ⟨rfl, hself⟩, rfl⟩, hfar⟩
    rintro ⟨p, hp, hinside⟩
    obtain ⟨hoverlaps, hbits⟩ := overlaps_of_inside hinside
    rw [hp] at hfar
    simp only [hoverlaps, Bool.not_true, Bool.false_or, decide_eq_true_eq] at hfar
    omega
  · rintro ⟨x, hx, hself, -, ⟨hv, y, ⟨rfl, -⟩, rfl⟩, hfar⟩
    exact ⟨⟨hv, y, ⟨hx, hself⟩, rfl⟩, hfar⟩

theorem perm_outside_of_inside (hsupernet : parsePrefix supernet = some aggregate)
    (h : ∀ x, ¬LiesInside aggregate x → (x ∈ xs ↔ x ∈ ys)) :
    (outside supernet xs self).Perm (outside supernet ys self) := by
  have hnodup (texts : List String) : (outside supernet texts self).Nodup := by
    rw [outside]
    split
    · exact nodup_dedupeFrom _ _
    · split
      · exact nodup_dedupeFrom _ _
      · exact (nodup_dedupeFrom _ _).filter _
  rw [perm_ext_iff_of_nodup (hnodup xs) (hnodup ys)]
  intro v
  rw [mem_outside_iff hsupernet, mem_outside_iff hsupernet]
  constructor
  · rintro ⟨x, hx, hself, hfar, hv⟩
    exact ⟨x, (h x hfar).mp hx, hself, hfar, hv⟩
  · rintro ⟨x, hx, hself, hfar, hv⟩
    exact ⟨x, (h x hfar).mpr hx, hself, hfar, hv⟩

theorem render_congr (hsame : j = { i with
      tenantCIDRs := j.tenantCIDRs, peerCIDRs := j.peerCIDRs, mgmtCIDRs := j.mgmtCIDRs })
    (hpeers : ∀ cidr, cidr ∈ j.peerCIDRs ↔ cidr ∈ i.peerCIDRs)
    (hmgmt : ∀ cidr, cidr ∈ j.mgmtCIDRs ↔ cidr ∈ i.mgmtCIDRs)
    (houtside : (outside i.supernet j.tenantCIDRs i.subnetCIDR).Perm
      (outside i.supernet i.tenantCIDRs i.subnetCIDR)) :
    (render j).1 = (render i).1 ∧ ∀ cidr, cidr ∈ (render j).2 ↔ cidr ∈ (render i).2 := by
  obtain ⟨subnet, supernet, tenants, peers, shared, mgmt, manual, isolated, role⟩ := i
  obtain ⟨subnet', supernet', tenants', peers', shared', mgmt', manual', isolated', role'⟩ := j
  simp only [Input.mk.injEq, true_and] at hsame
  obtain ⟨rfl, rfl, rfl, rfl, rfl, rfl⟩ := hsame
  dsimp only at hpeers hmgmt houtside
  rw [render, render]
  dsimp only
  split
  · exact ⟨rfl, fun _ => Iff.rfl⟩
  · have hdeny := (perm_dedupe hmgmt).map mgmtRule
    split
    · exact ⟨normalise_eq_iff.mpr (hdeny.append_right _), fun _ => Iff.rfl⟩
    · refine ⟨normalise_eq_iff.mpr (List.Perm.append_right _ (hdeny.append ?_)), fun _ =>
        houtside.mem_iff⟩
      have hpeer := ((perm_dedupe hpeers).filter (· ≠ subnet')).flatMap_right fun peer =>
        rulePair "allow-related" peer priorityException
      have hfloor : (floors ⟨subnet', supernet', tenants', peers', shared', mgmt', manual',
          isolated', role'⟩).1.Perm (floors ⟨subnet', supernet', tenants, peers, shared', mgmt,
          manual', isolated', role'⟩).1 := houtside.append_left _
      have htargets := (perm_dedupe fun _ => hfloor.mem_iff).flatMap_right fun target =>
        rulePair "drop" target priorityDrop
      exact ((List.Perm.refl _).append hpeer).append htargets

theorem length_flatMap_pair {ι : Type} {f : ι → List Rule} (h : ∀ x, (f x).length = 2)
    (xs : List ι) : (xs.flatMap f).length = 2 * xs.length := by
  rw [length_flatMap, funext h, map_const', sum_replicate_nat, Nat.mul_comm]

/-- There are no more rules than that, however many tenants there are. -/
theorem length_render_le (i : Input) : (render i).1.length ≤ i.manual.length +
    (4 + i.mgmtCIDRs.length +
      2 * (i.sharedCIDRs.length + i.peerCIDRs.length + (render i).2.length)) := by
  have hsort (rules : List Rule) : (normalise rules).length = rules.length :=
    (perm_insertionSort _ rules).length_eq
  have hmgmt : (dedupe i.mgmtCIDRs).length ≤ i.mgmtCIDRs.length := length_dedupeFrom_le []
  have hshared : (dedupe i.sharedCIDRs).length ≤ i.sharedCIDRs.length := length_dedupeFrom_le []
  have hpeers : ((dedupe i.peerCIDRs).filter (· ≠ i.subnetCIDR)).length ≤ i.peerCIDRs.length :=
    (length_filter_le _ _).trans (length_dedupeFrom_le [])
  have htargets : (dedupe (floors i).1).length ≤ 1 + (floors i).2.length := by
    refine (length_dedupeFrom_le []).trans ?_
    rw [floors]
    split
    · simp [Nat.add_comm]
    · simp
  rw [render]
  split
  · rw [hsort]
    omega
  · split
    · rw [hsort, length_append, length_map]
      omega
    · have hown : (if i.subnetCIDR ≠ "" then rulePair "allow-related" i.subnetCIDR priorityOwn
          else []).length ≤ 2 := by
        split <;> simp [rulePair]
      dsimp only
      rw [hsort, length_append, length_append, length_map, isolationRules]
      simp only [length_append]
      rw [length_flatMap_pair fun _ => rfl, length_flatMap_pair fun _ => rfl,
        length_flatMap_pair fun _ => rfl, length_zipIdx]
      omega

/-- The list depends on the set of networks, and does not grow with the tenants. -/
structure DependsOnSets (i : Input) : Prop where
  relisted : ∀ j, Relisted i j → equal (render i).1 (render j).1 = true ∧
    ∀ cidr, cidr ∈ (render j).2 ↔ cidr ∈ (render i).2
  /-- Any number of tenants inside the supernet may come and go. -/
  inside : ∀ aggregate tenants, parsePrefix i.supernet = some aggregate →
    (∀ cidr, ¬LiesInside aggregate cidr → (cidr ∈ tenants ↔ cidr ∈ i.tenantCIDRs)) →
      (render { i with tenantCIDRs := tenants }).1 = (render i).1
  bounded : (render i).1.length ≤ i.manual.length + (4 + i.mgmtCIDRs.length +
    2 * (i.sharedCIDRs.length + i.peerCIDRs.length + (render i).2.length))

theorem dependsOnSets (i : Input) : DependsOnSets i where
  relisted j h := by
    obtain ⟨hrules, hrange⟩ := render_congr h.same h.peers h.mgmt (perm_outside h.tenants)
    exact ⟨equal_iff.mpr (hrules ▸ List.Perm.refl _), hrange⟩
  inside aggregate tenants hsupernet htenants :=
    (render_congr (j := { i with tenantCIDRs := tenants }) rfl (fun _ => Iff.rfl) (fun _ => Iff.rfl)
      (perm_outside_of_inside hsupernet htenants)).1
  bounded := length_render_le i

end Same

end Acl
