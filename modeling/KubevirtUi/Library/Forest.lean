import Mathlib.Algebra.Order.BigOperators.Group.Finset
import Mathlib.Order.WellFoundedSet
import Mathlib.Tactic.Abel

/-!
# Budgets in a forest

Every node of a forest holds something of its own, and some nodes are capped. What
a node answers for is what it holds itself and what its children stand for: a
capped child stands for its cap, whether or not it has spent it, and any other for
everything that it answers for in turn.

What is held at a node is therefore felt on the way up as far as the first cap,
and nowhere else. A change at one node keeps every cap in the forest as soon as it
keeps that one.
-/

/-- Nodes, each with finitely many children and at most one parent, and no way down
that never ends. -/
structure Forest (ι : Type*) where
  children : ι → Finset ι
  unique : ∀ {c f g}, c ∈ children f → c ∈ children g → f = g
  wf : WellFounded fun c f => c ∈ children f

namespace Forest

open List

variable {ι M : Type*}

theorem eq_of_children {F G : Forest ι} (h : F.children = G.children) : F = G := by
  cases F
  cases G
  cases h
  rfl

/-- Where only finitely many nodes have a parent, and none is below itself, every way
down ends. -/
theorem wellFounded_of_finite {r : ι → ι → Prop} (nodes : Finset ι) (hnodes : ∀ c f, r c f →
    c ∈ nodes) (hacyclic : ∀ f, ¬ Relation.TransGen r f f) : WellFounded r := by
  have : Std.Irrefl (Relation.TransGen r) := ⟨hacyclic⟩
  have : IsStrictOrder ι (Relation.TransGen r) := {}
  have hwf : (nodes : Set ι).WellFoundedOn r :=
    nodes.wellFoundedOn.mono (fun _ _ h => Relation.TransGen.single h) subset_rfl
  refine ⟨fun f => (Set.WellFoundedOn.acc_iff_wellFoundedOn.out 0 2).2 (hwf.subset ?_)⟩
  intro c hc
  obtain ⟨d, hd, -⟩ := Relation.TransGen.head'_iff.1 hc
  exact hnodes c d hd

variable (F : Forest ι)

section Reserved

variable [AddCommMonoid M] (cap : ι → Option M) (own : ι → M)

/-- What a node answers for. -/
noncomputable def reserved : ι → M :=
  F.wf.fix fun f below => own f +
    ∑ c ∈ (F.children f).attach, (cap c.1).getD (below c.1 c.2)

theorem reserved_eq (f : ι) : F.reserved cap own f =
    own f + ∑ c ∈ F.children f, (cap c).getD (F.reserved cap own c) := by
  rw [reserved, WellFounded.fix_eq]
  exact congrArg (own f + ·) (Finset.sum_attach (F.children f) fun c =>
    (cap c).getD (F.reserved cap own c))

end Reserved

/-- What is held at the first node is felt at the second: there is no cap on the way
up before it. -/
def Exposed (cap : ι → Option M) : ι → ι → Prop :=
  Relation.ReflTransGen fun c f => cap c = none ∧ c ∈ F.children f

variable {cap : ι → Option M} {f : ι} {charges : List (ι × M)}

namespace Exposed

variable {F} {x g c : ι}

theorem rightUnique : Relator.RightUnique fun c f => cap c = none ∧ c ∈ F.children f :=
  fun _ _ _ h h' => F.unique h.2 h'.2

theorem descends (h : F.Exposed cap x f) :
    Relation.ReflTransGen (fun c f => c ∈ F.children f) x f :=
  Relation.ReflTransGen.mono (fun _ _ hstep => hstep.2) _ _ h

theorem not_of_mem_children (hc : c ∈ F.children f) : ¬ F.Exposed cap f c := by
  intro h
  have hcycle : Relation.TransGen (fun c f => c ∈ F.children f) f f :=
    Relation.TransGen.tail' h.descends hc
  exact (WellFounded.transGen F.wf).irrefl.irrefl f hcycle

/-- The first cap on the way up is the only one that is reached. -/
theorem eq_of_capped (hf : F.Exposed cap x f) (hg : F.Exposed cap x g) (hcapf : cap f ≠ none)
    (hcapg : cap g ≠ none) : f = g := by
  have hstop {f g : ι} (hcap : cap f ≠ none) (h : F.Exposed cap f g) : f = g := by
    obtain rfl | ⟨y, hy, -⟩ := Relation.ReflTransGen.cases_head h
    · rfl
    · exact absurd hy.1 hcap
  obtain h | h := Relation.ReflTransGen.total_of_right_unique rightUnique hf hg
  · exact hstop hcapf h
  · exact (hstop hcapg h).symm

/-- At most one child of a node passes on what is held at another. -/
theorem child_unique {d : ι} (hx : F.Exposed cap x c) (hx' : F.Exposed cap x d)
    (hc : c ∈ F.children f) (hd : d ∈ F.children f) : c = d := by
  have hstop {c d : ι} (hc : c ∈ F.children f) (hd : d ∈ F.children f)
      (h : F.Exposed cap c d) : c = d := by
    obtain rfl | ⟨y, hy, hrest⟩ := Relation.ReflTransGen.cases_head h
    · rfl
    · rw [F.unique hy.2 hc] at hrest
      exact absurd hrest (not_of_mem_children hd)
  obtain h | h := Relation.ReflTransGen.total_of_right_unique rightUnique hx hx'
  · exact hstop hc hd h
  · exact (hstop hd hc h).symm

end Exposed

section Change

open Classical in
/-- A change at one node is felt in full wherever the node is exposed, and nowhere
else. -/
theorem reserved_change [AddCommGroup M] (cap : ι → Option M) {own own' : ι → M} {x : ι}
    (h : ∀ y, y ≠ x → own' y = own y) (f : ι) : F.reserved cap own' f =
      F.reserved cap own f + if F.Exposed cap x f then own' x - own x else 0 := by
  induction f using F.wf.induction with
  | _ f ih =>
    have hsum : ∑ c ∈ F.children f, (cap c).getD (F.reserved cap own' c) =
        ∑ c ∈ F.children f, (cap c).getD (F.reserved cap own c) + ∑ c ∈ F.children f,
            if cap c = none ∧ F.Exposed cap x c then own' x - own x else 0 := by
      rw [← Finset.sum_add_distrib]
      refine Finset.sum_congr rfl fun c hc => ?_
      cases hcap : cap c with
      | some k => simp
      | none => simp [ih c hc]
    rw [reserved_eq, reserved_eq, hsum]
    by_cases hfx : f = x
    · subst hfx
      have hzero : ∑ c ∈ F.children f,
          (if cap c = none ∧ F.Exposed cap f c then own' f - own f else 0) = 0 :=
        Finset.sum_eq_zero fun c hc => if_neg fun hexp => Exposed.not_of_mem_children hc hexp.2
      have hself : F.Exposed cap f f := Relation.ReflTransGen.refl
      rw [hzero, if_pos hself]
      abel
    · rw [h f hfx]
      by_cases hexp : F.Exposed cap x f
      · obtain rfl | ⟨c, hc, hpass⟩ := Relation.ReflTransGen.cases_tail hexp
        · exact absurd rfl hfx
        · have hone : ∑ c ∈ F.children f,
              (if cap c = none ∧ F.Exposed cap x c then own' x - own x else 0) =
                own' x - own x := by
            rw [Finset.sum_eq_single c, if_pos ⟨hpass.1, hc⟩]
            · exact fun d hd hne => if_neg fun hd' =>
                hne (Exposed.child_unique hd'.2 hc hd hpass.2)
            · exact fun hnot => absurd hpass.2 hnot
          rw [hone, if_pos hexp]
          abel
      · have hzero : ∑ c ∈ F.children f,
            (if cap c = none ∧ F.Exposed cap x c then own' x - own x else 0) = 0 :=
          Finset.sum_eq_zero fun c hc => if_neg fun hc' =>
            hexp (Relation.ReflTransGen.tail hc'.2 ⟨hc'.1, hc⟩)
        rw [hzero, if_neg hexp]
        abel

open Classical in
/-- A change of one cap is felt wherever the parent is exposed, and nowhere else. What
the node stands for there is its cap, or what it answers for itself. -/
theorem reserved_recap [AddCommGroup M] {cap cap' : ι → Option M} {own : ι → M}
    {x p : ι} (h : ∀ y, y ≠ x → cap' y = cap y) (hx : x ∈ F.children p) (f : ι) :
    F.reserved cap' own f = F.reserved cap own f +
      if F.Exposed cap p f then
        (cap' x).getD (F.reserved cap own x) - (cap x).getD (F.reserved cap own x)
      else 0 := by
  -- The same is felt if the parent holds the difference itself.
  let own' := Function.update own p (own p + ((cap' x).getD (F.reserved cap own x) -
    (cap x).getD (F.reserved cap own x)))
  have hself : own' p - own p = (cap' x).getD (F.reserved cap own x) -
      (cap x).getD (F.reserved cap own x) := by
    simp [own']
  have hother (y : ι) (hy : y ≠ p) : own' y = own y := Function.update_of_ne hy _ _
  have hbelow : F.reserved cap own' x = F.reserved cap own x := by
    rw [F.reserved_change cap hother, if_neg (Exposed.not_of_mem_children hx), add_zero]
  have hsame (f : ι) : F.reserved cap' own f = F.reserved cap own' f := by
    induction f using F.wf.induction with
    | _ f ih =>
      have hterm (c : ι) (hc : c ∈ F.children f) (hne : c ≠ x) :
          (cap' c).getD (F.reserved cap' own c) = (cap c).getD (F.reserved cap own' c) := by
        rw [h c hne, ih c hc]
      rw [reserved_eq, reserved_eq F cap own']
      by_cases hfp : f = p
      · subst hfp
        rw [← Finset.add_sum_erase _ _ hx, ← Finset.add_sum_erase _ _ hx, ih x hx, hbelow,
          Finset.sum_congr rfl fun c hc =>
            hterm c (Finset.mem_of_mem_erase hc) (Finset.ne_of_mem_erase hc)]
        simp only [own', Function.update_self]
        abel
      · have hne (c : ι) (hc : c ∈ F.children f) : c ≠ x := by
          intro hcx
          subst hcx
          exact hfp (F.unique hc hx)
        rw [hother f hfp, Finset.sum_congr rfl fun c hc => hterm c hc (hne c hc)]
  rw [hsame, F.reserved_change cap hother, hself]

end Change

section Felt

variable [AddCommGroup M] (cap : ι → Option M)

open Classical in
/-- What of the charges is felt at a node. -/
noncomputable def felt (charges : List (ι × M)) (f : ι) : M :=
  ((charges.filter fun e => F.Exposed cap e.1 f).map Prod.snd).sum

variable {cap}

theorem felt_append (xs ys : List (ι × M)) (f : ι) :
    F.felt cap (xs ++ ys) f = F.felt cap xs f + F.felt cap ys f := by
  simp [felt]

theorem felt_perm {xs ys : List (ι × M)} (h : xs.Perm ys) (f : ι) :
    F.felt cap xs f = F.felt cap ys f :=
  ((h.filter _).map _).sum_eq

theorem felt_cons (e : ι × M) : F.felt cap (e :: charges) f =
    F.felt cap [e] f + F.felt cap charges f := F.felt_append [e] charges f

theorem felt_singleton_of_exposed {e : ι × M} (h : F.Exposed cap e.1 f) :
    F.felt cap [e] f = e.2 := by
  simp [felt, h]

theorem felt_singleton_of_not_exposed {e : ι × M} (h : ¬ F.Exposed cap e.1 f) :
    F.felt cap [e] f = 0 := by
  simp [felt, h]

end Felt

section Charged

variable [AddCommGroup M] [DecidableEq ι] (cap : ι → Option M)

/-- What single charges, each at a node, come to at a node. -/
def charged (charges : List (ι × M)) (f : ι) : M :=
  ((charges.filter fun e => e.1 = f).map Prod.snd).sum

/-- What a node answers for is what it would without any charge, and every charge that
is felt there. -/
theorem reserved_charged (charges : List (ι × M)) (f : ι) : F.reserved cap (charged charges) f =
      F.reserved cap (fun _ => 0) f + F.felt cap charges f := by
  induction charges with
  | nil =>
    have hnone : charged ([] : List (ι × M)) = fun _ => 0 := by
      funext f
      simp [charged]
    rw [hnone]
    simp [felt]
  | cons e charges ih =>
    have hrest : ∀ y, y ≠ e.1 → charged (e :: charges) y = charged charges y := by
      intro y hy
      simp [charged, Ne.symm hy]
    have hhere : charged (e :: charges) e.1 - charged charges e.1 = e.2 := by
      simp [charged]
    rw [reserved_change F cap hrest f, ih, hhere, felt_cons]
    by_cases hexp : F.Exposed cap e.1 f
    · rw [if_pos hexp, felt_singleton_of_exposed F hexp]
      abel
    · rw [if_neg hexp, felt_singleton_of_not_exposed F hexp]
      abel

end Charged

section Order

variable [AddCommGroup M] [LinearOrder M] [IsOrderedAddMonoid M]

variable (cap f) in
theorem felt_nonneg (h : ∀ e ∈ charges, 0 ≤ e.2) : 0 ≤ F.felt cap charges f := by
  refine sum_nonneg fun m hm => ?_
  obtain ⟨e, he, rfl⟩ := mem_map.mp hm
  exact h e (mem_of_mem_filter he)

variable (cap f) in
theorem felt_le_sum (h : ∀ e ∈ charges, 0 ≤ e.2) :
    F.felt cap charges f ≤ (charges.map Prod.snd).sum := by
  refine List.Sublist.sum_le_sum (filter_sublist.map _) fun m hm => ?_
  obtain ⟨e, he, rfl⟩ := mem_map.mp hm
  exact h e he

/-- Charges are felt in full exactly where no positive one is hidden. -/
theorem felt_eq_sum_iff (h : ∀ e ∈ charges, 0 ≤ e.2) :
    F.felt cap charges f = (charges.map Prod.snd).sum ↔
      ∀ e ∈ charges, 0 < e.2 → F.Exposed cap e.1 f := by
  induction charges with
  | nil => simp [felt]
  | cons e charges ih =>
    have hrest := fun e' he' => h e' (mem_cons_of_mem e he')
    have hle := F.felt_le_sum cap f hrest
    rw [felt_cons, map_cons, sum_cons, forall_mem_cons, ← ih hrest]
    by_cases hexp : F.Exposed cap e.1 f
    · rw [F.felt_singleton_of_exposed hexp, add_right_inj]
      exact (and_iff_right fun _ => hexp).symm
    · have hzero : (0 < e.2 → F.Exposed cap e.1 f) ↔ e.2 = 0 := by
        rw [imp_iff_not hexp, not_lt]
        exact ⟨fun hle => le_antisymm hle (h e mem_cons_self), fun heq => heq.le⟩
      rw [F.felt_singleton_of_not_exposed hexp, hzero, zero_add]
      constructor
      · intro heq
        have he : e.2 ≤ 0 := by
          by_contra hlt
          have hbig : (charges.map Prod.snd).sum < e.2 + (charges.map Prod.snd).sum :=
            lt_add_of_pos_left _ (not_le.mp hlt)
          exact absurd (heq ▸ hle) (not_le.mpr hbig)
        have he' : e.2 = 0 := le_antisymm he (h e mem_cons_self)
        exact ⟨he', by rw [heq, he', zero_add]⟩
      · rintro ⟨he, heq⟩
        rw [heq, he, zero_add]

end Order

end Forest
