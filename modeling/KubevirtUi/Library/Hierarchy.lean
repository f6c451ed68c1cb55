import KubevirtUi.Library.Forest

/-!
# Named nodes that say who their parent is

A hierarchy is a list of named nodes, each of which may name a parent. Nothing keeps
it from naming one that is not there. Where no node is above itself, the hierarchy is
a forest, and a walk upwards that visits no node twice sees all that is above.
-/

section Walk

variable {ι α : Type*} [DecidableEq ι]

/-- Go from node to node until one answers, and visit none twice. -/
def walk (step : ι → Option (α ⊕ ι)) : Nat → List ι → ι → Option α
  | 0, _, _ => none
  | fuel + 1, seen, x =>
    if x ∈ seen then none
    else match step x with
      | none => none
      | some (.inl a) => some a
      | some (.inr y) => walk step fuel (x :: seen) y

variable {step : ι → Option (α ⊕ ι)} {x y : ι} {a : α}

/-- The walk goes on from the first node to the second. -/
def Onward (step : ι → Option (α ⊕ ι)) (x y : ι) : Prop := step x = some (.inr y)

variable {fuel : Nat} {seen : List ι}

section

variable {nodes : List ι} (hnodes : ∀ x y, Onward step x y → x ∈ nodes)
  (hacyclic : ∀ x, ¬ Relation.TransGen (Onward step) x x)

include hnodes hacyclic

theorem walk_eq_some_iff_of_seen (hnodup : seen.Nodup)
    (hseen : ∀ s ∈ seen, s ∈ nodes ∧ Relation.TransGen (Onward step) s x)
    (hfuel : nodes.length < fuel + seen.length) : walk step fuel seen x = some a ↔
      ∃ y, Relation.ReflTransGen (Onward step) x y ∧ step y = some (.inl a) := by
  induction fuel generalizing seen x with
  | zero =>
    have hle : seen.length ≤ nodes.length :=
      (List.subperm_of_subset hnodup fun s hs => (hseen s hs).1).length_le
    omega
  | succ fuel ih =>
    have hnew : x ∉ seen := fun hmem => hacyclic x (hseen x hmem).2
    rw [walk, if_neg hnew]
    have hhead (h : ∀ y, ¬ Onward step x y) : (∃ y, Relation.ReflTransGen (Onward step) x y ∧
        step y = some (.inl a)) ↔ step x = some (.inl a) := by
      constructor
      · rintro ⟨y, hy, hanswer⟩
        obtain rfl | ⟨z, hz, -⟩ := Relation.ReflTransGen.cases_head hy
        · exact hanswer
        · exact absurd hz (h z)
      · exact fun hanswer => ⟨x, .refl, hanswer⟩
    match hstep : step x with
    | none =>
      rw [hhead fun y hy => by simp [Onward, hstep] at hy]
      simp [hstep]
    | some (.inl b) =>
      rw [hhead fun y hy => by simp [Onward, hstep] at hy]
      simp [hstep]
    | some (.inr y) =>
      have hxy : Onward step x y := hstep
      have hdeep : ∀ s ∈ x :: seen, s ∈ nodes ∧ Relation.TransGen (Onward step) s y := by
        intro s hs
        obtain rfl | hs := List.mem_cons.mp hs
        · exact ⟨hnodes s y hxy, .single hxy⟩
        · exact ⟨(hseen s hs).1, (hseen s hs).2.tail hxy⟩
      have hmore : nodes.length < fuel + (x :: seen).length := by
        simp only [List.length_cons]
        omega
      refine (ih (List.nodup_cons.mpr ⟨hnew, hnodup⟩) hdeep hmore).trans ?_
      constructor
      · rintro ⟨z, hz, hanswer⟩
        exact ⟨z, .head hxy hz, hanswer⟩
      · rintro ⟨z, hz, hanswer⟩
        obtain rfl | ⟨w, hw, hrest⟩ := Relation.ReflTransGen.cases_head hz
        · simp [hstep] at hanswer
        · obtain rfl : y = w := by simpa [Onward, hstep] using hw
          exact ⟨z, hrest, hanswer⟩

/-- Where no node comes back to itself the walk finds the answer that lies ahead. -/
theorem walk_eq_some_iff (hfuel : nodes.length < fuel) : walk step fuel [] x = some a ↔
      ∃ y, Relation.ReflTransGen (Onward step) x y ∧ step y = some (.inl a) :=
  walk_eq_some_iff_of_seen hnodes hacyclic List.nodup_nil (by simp) hfuel

end

theorem exists_step_of_walk (h : walk step fuel seen x = some a) : ∃ y, step y = some (.inl a) := by
  induction fuel generalizing seen x with
  | zero => contradiction
  | succ fuel ih =>
    rw [walk] at h
    split at h
    · contradiction
    · split at h
      · contradiction
      · next b hstep =>
        obtain rfl := Option.some.inj h
        exact ⟨x, hstep⟩
      · exact ih h

/-- The walk ends by itself, whether or not nodes come back to themselves. -/
theorem walk_eq_of_seen {nodes : List ι} (hnodes : ∀ x y, Onward step x y → x ∈ nodes)
    {more : Nat} (hnodup : seen.Nodup) (hseen : ∀ s ∈ seen, s ∈ nodes)
    (hfuel : nodes.length < fuel + seen.length) (hmore : nodes.length < more + seen.length) :
    walk step fuel seen x = walk step more seen x := by
  induction fuel generalizing more seen x with
  | zero =>
    have hle : seen.length ≤ nodes.length := (List.subperm_of_subset hnodup hseen).length_le
    omega
  | succ fuel ih =>
    have hle : seen.length ≤ nodes.length := (List.subperm_of_subset hnodup hseen).length_le
    obtain ⟨more, rfl⟩ : ∃ n, more = n + 1 := ⟨more - 1, by omega⟩
    rw [walk, walk]
    split
    · rfl
    · next hnew =>
      split
      · rfl
      · rfl
      · next y hstep =>
        have hx := hnodes x y hstep
        apply ih (List.nodup_cons.mpr ⟨hnew, hnodup⟩) (List.forall_mem_cons.mpr ⟨hx, hseen⟩)
        · rw [List.length_cons]
          omega
        · rw [List.length_cons]
          omega

end Walk

/-- Nodes by name, each with the record it carries. -/
structure Hierarchy (ι ν : Type*) where
  nodes : List (ι × ν)
  nodup : (nodes.map Prod.fst).Nodup

namespace Hierarchy

variable {ι ν : Type*} [DecidableEq ι] (H : Hierarchy ι ν)

def node (x : ι) : Option ν := H.nodes.lookup x

theorem node_eq_some_iff {x : ι} {n : ν} : H.node x = some n ↔ (x, n) ∈ H.nodes := by
  obtain ⟨nodes, hnodup⟩ := H
  simp only [node]
  induction nodes with
  | nil => simp
  | cons e nodes ih =>
    obtain ⟨k, m⟩ := e
    simp only [List.map_cons, List.nodup_cons] at hnodup
    rw [List.lookup_cons, List.mem_cons, Prod.mk.injEq]
    by_cases hxk : x = k
    · subst hxk
      have hnot : (x, n) ∉ nodes := fun hmem => hnodup.1 (List.mem_map_of_mem hmem)
      simp [hnot, eq_comm]
    · rw [beq_eq_false_iff_ne.mpr hxk]
      simp [hxk, ih hnodup.2]

section Parent

variable (parent : ν → Option ι)

/-- The first node names the second as its parent. -/
def Child (c f : ι) : Prop := ∃ n, H.node c = some n ∧ parent n = some f

/-- No node is above itself. -/
def Acyclic : Prop := ∀ f, ¬ Relation.TransGen (H.Child parent) f f

/-- The nodes that name this one as their parent. -/
def childrenOf (f : ι) : List (ι × ν) := H.nodes.filter fun e => parent e.2 = some f

variable {H parent}

theorem Child.unique {c f g : ι} (hf : H.Child parent c f) (hg : H.Child parent c g) : f = g := by
  obtain ⟨n, hn, hf⟩ := hf
  obtain ⟨m, hm, hg⟩ := hg
  obtain rfl : n = m := Option.mem_unique hn hm
  exact Option.mem_unique hf hg

theorem mem_childrenOf {c f : ι} {n : ν} : (c, n) ∈ H.childrenOf parent f ↔
    H.node c = some n ∧ parent n = some f := by
  simp [childrenOf, node_eq_some_iff]

theorem exists_mem_childrenOf {c f : ι} : (∃ n, (c, n) ∈ H.childrenOf parent f) ↔
    H.Child parent c f := by
  simp only [mem_childrenOf, Child]

theorem Child.mem {c f : ι} (h : H.Child parent c f) : c ∈ H.nodes.map Prod.fst := by
  obtain ⟨n, hn, -⟩ := h
  exact List.mem_map_of_mem (H.node_eq_some_iff.mp hn)

theorem acyclic_of_rank (rank : ι → ℕ) (h : ∀ e ∈ H.nodes, ∀ f ∈ parent e.2, rank f < rank e.1) :
    H.Acyclic parent := by
  have hlt {c f : ι} (hcf : Relation.TransGen (H.Child parent) c f) : rank f < rank c := by
    induction hcf with
    | single hc =>
      obtain ⟨n, hn, hf⟩ := hc
      exact h _ (H.node_eq_some_iff.mp hn) _ hf
    | tail _ hc ih =>
      obtain ⟨n, hn, hf⟩ := hc
      exact (h _ (H.node_eq_some_iff.mp hn) _ hf).trans ih
  exact fun f hf => (hlt hf).false

/-- A hierarchy in which no node is above itself, as a forest. -/
def forest (h : H.Acyclic parent) : Forest ι where
  children f := ((H.childrenOf parent f).map Prod.fst).toFinset
  unique hf hg := by
    simp only [List.mem_toFinset, List.mem_map, Prod.exists, exists_and_right, exists_eq_right,
      exists_mem_childrenOf] at hf hg
    exact hf.unique hg
  wf := by
    simp only [List.mem_toFinset, List.mem_map, Prod.exists, exists_and_right, exists_eq_right,
      exists_mem_childrenOf]
    exact Forest.wellFounded_of_finite (H.nodes.map Prod.fst).toFinset
      (fun c f hc => List.mem_toFinset.mpr hc.mem) h

theorem mem_forest_children {h : H.Acyclic parent} {c f : ι} :
    c ∈ (forest h).children f ↔ H.Child parent c f := by
  simp [forest, exists_mem_childrenOf]

/-- What the children add up to, node by node. -/
theorem sum_forest_children {M : Type*} [AddCommMonoid M] {h : H.Acyclic parent} (f : ι)
    (g : ι → M) : ∑ c ∈ (forest h).children f, g c =
      ((H.childrenOf parent f).map fun e => g e.1).sum := by
  have hnodup : ((H.childrenOf parent f).map Prod.fst).Nodup :=
    H.nodup.sublist (List.filter_sublist.map Prod.fst)
  rw [forest, List.sum_toFinset _ hnodup, List.map_map]
  rfl

variable (H parent) in
open Classical in
/-- The nodes below this one. -/
noncomputable def below (f : ι) : Finset ι :=
  (H.nodes.map Prod.fst).toFinset.filter fun c => Relation.TransGen (H.Child parent) c f

theorem card_below_le (f : ι) : (H.below parent f).card ≤ H.nodes.length := by
  calc (H.below parent f).card ≤ (H.nodes.map Prod.fst).toFinset.card := by
        refine Finset.card_le_card fun x hx => ?_
        simp only [below, Finset.mem_filter] at hx
        exact hx.1
    _ ≤ (H.nodes.map Prod.fst).length := List.toFinset_card_le _
    _ = H.nodes.length := List.length_map _

/-- Fewer nodes are below a child, where none is below itself. -/
theorem card_below_lt (h : H.Acyclic parent) {c f : ι} (hc : H.Child parent c f) :
    (H.below parent c).card < (H.below parent f).card := by
  refine Finset.card_lt_card (Finset.ssubset_iff_of_subset ?_ |>.mpr ⟨c, ?_, ?_⟩)
  · intro x hx
    simp only [below, Finset.mem_filter] at hx ⊢
    exact ⟨hx.1, hx.2.tail hc⟩
  · simp only [below, Finset.mem_filter, List.mem_toFinset]
    exact ⟨hc.mem, .single hc⟩
  · simp only [below, Finset.mem_filter, not_and]
    intro _
    exact h c

end Parent

end Hierarchy
