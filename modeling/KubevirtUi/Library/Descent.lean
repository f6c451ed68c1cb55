import Mathlib.Data.List.Nodup
import Mathlib.Data.List.Perm.Subperm
import Mathlib.Order.WellFounded

/-!
# Walks down a hierarchy

A walk with a stack lists what is below its start. It ends if and only if nothing there
comes back to itself, and where no node has two parents it meets every node once, so that
there is no need to let it run for longer than there are nodes.

To give a node another parent closes a loop exactly when the new parent is the node
itself or lies below it.
-/

section Descend

variable {ι : Type*} (kids : ι → List ι)

/-- Take a node from the stack, and put its children there. -/
def descend : Nat → List ι → Option (List ι)
  | _, [] => some []
  | 0, _ :: _ => none
  | fuel + 1, x :: stack => (descend fuel ((kids x).reverse ++ stack)).map (x :: ·)

/-- The walk from a stack meets these nodes, and ends. -/
inductive Walk : List ι → List ι → Prop
  | nil : Walk [] []
  | cons {x : ι} {stack below : List ι} :
      Walk ((kids x).reverse ++ stack) below → Walk (x :: stack) (x :: below)

/-- The second node is the first, or below it. -/
def Below : ι → ι → Prop := Relation.ReflTransGen fun f c => c ∈ kids f

/-- The node is below itself. -/
def Looped (x : ι) : Prop := Relation.TransGen (fun f c => c ∈ kids f) x x

variable {kids} {fuel : Nat} {stack rest visited more : List ι} {x y : ι}

/-- A walk takes one step for every node that it meets. -/
theorem descend_eq_some_iff :
    descend kids fuel stack = some visited ↔ Walk kids stack visited ∧ visited.length ≤ fuel := by
  constructor
  · intro h
    induction fuel generalizing stack visited with
    | zero =>
      cases stack with
      | nil =>
        obtain rfl : [] = visited := by simpa [descend] using h
        exact ⟨.nil, Nat.le_refl 0⟩
      | cons x stack => simp [descend] at h
    | succ fuel ih =>
      cases stack with
      | nil =>
        obtain rfl : [] = visited := by simpa [descend] using h
        exact ⟨.nil, Nat.zero_le _⟩
      | cons x stack =>
        rw [descend, Option.map_eq_some_iff] at h
        obtain ⟨below, hbelow, rfl⟩ := h
        obtain ⟨hwalk, hle⟩ := ih hbelow
        exact ⟨.cons hwalk, Nat.succ_le_succ hle⟩
  · rintro ⟨hwalk, hle⟩
    induction hwalk generalizing fuel with
    | nil => cases fuel <;> rfl
    | cons _ ih =>
      cases fuel with
      | zero => simp at hle
      | succ fuel =>
        rw [descend, ih (Nat.le_of_succ_le_succ hle)]
        rfl

namespace Walk

open List

theorem append (h : Walk kids stack visited) (hmore : Walk kids rest more) :
    Walk kids (stack ++ rest) (visited ++ more) := by
  induction h with
  | nil => exact hmore
  | cons _ ih =>
    rw [append_assoc] at ih
    exact .cons ih

theorem mem_iff (h : Walk kids stack visited) : y ∈ visited ↔ ∃ x ∈ stack, Below kids x y := by
  induction h with
  | nil => simp
  | @cons x stack below _ ih =>
    have hx : Below kids x y ↔ y = x ∨ ∃ c ∈ kids x, Below kids c y := by
      rw [eq_comm]
      exact Relation.ReflTransGen.cases_head_iff
    simp only [mem_cons, ih, mem_append, mem_reverse, or_and_right, exists_or,
      exists_eq_left, hx, or_assoc]

/-- A walk that ends meets nothing that is below itself. -/
theorem not_looped (h : Walk kids stack visited) (hx : x ∈ stack) (hy : Below kids x y) :
    ¬ Looped kids y := by
  induction h generalizing x with
  | nil => simp at hx
  | @cons top stack below _ ih =>
    have hkid {c : ι} (hc : c ∈ kids top) (hcy : Below kids c y) : ¬ Looped kids y :=
      ih (mem_append_left stack (mem_reverse.mpr hc)) hcy
    obtain rfl | hx := mem_cons.mp hx
    · obtain rfl | ⟨c, hc, hcy⟩ := Relation.ReflTransGen.cases_head hy
      · intro hloop
        obtain ⟨c, hc, hcx⟩ := Relation.TransGen.head'_iff.mp hloop
        exact hkid hc hcx hloop
      · exact hkid hc hcy
    · exact ih (mem_append_right _ hx) hy

end Walk

theorem exists_walk (hwf : WellFounded fun c f => c ∈ kids f) (stack : List ι) :
    ∃ visited, Walk kids stack visited := by
  have hall (xs : List ι) (h : ∀ x ∈ xs, ∃ visited, Walk kids [x] visited) :
      ∃ visited, Walk kids xs visited := by
    induction xs with
    | nil => exact ⟨[], .nil⟩
    | cons x xs ih =>
      obtain ⟨visited, hx⟩ := h x List.mem_cons_self
      obtain ⟨more, hxs⟩ := ih fun z hz => h z (List.mem_cons_of_mem x hz)
      exact ⟨visited ++ more, hx.append hxs⟩
  have hone (x : ι) : ∃ visited, Walk kids [x] visited := by
    induction x using hwf.induction with
    | _ x ih =>
      obtain ⟨below, hbelow⟩ := hall (kids x).reverse fun c hc => ih c (List.mem_reverse.mp hc)
      rw [← List.append_nil (kids x).reverse] at hbelow
      exact ⟨x :: below, .cons hbelow⟩
  exact hall stack fun x _ => hone x

section Unique

variable (hunique : ∀ {c f g : ι}, c ∈ kids f → c ∈ kids g → f = g)
include hunique

/-- What is above a child of `x` is above `x`, or the child itself. -/
theorem below_of_kid {c z : ι} (hc : c ∈ kids x) (hz : Below kids z c) :
    z = c ∨ Below kids z x := by
  obtain rfl | ⟨f, hf, hcf⟩ := Relation.ReflTransGen.cases_tail hz
  · exact .inl rfl
  · exact .inr (hunique hcf hc ▸ hf)

/-- A walk that starts from nodes of which none is below another meets no node twice. -/
theorem Walk.nodup (hkids : ∀ x, (kids x).Nodup) (h : Walk kids stack visited)
    (hstack : stack.Nodup) (hapart : ∀ x ∈ stack, ∀ y ∈ stack, Below kids x y → x = y) :
    visited.Nodup := by
  induction h with
  | nil => exact List.nodup_nil
  | @cons x stack below h ih =>
    obtain ⟨hx, hstack⟩ := List.nodup_cons.mp hstack
    have hloop : ¬ Looped kids x := (Walk.cons h).not_looped List.mem_cons_self .refl
    have hfar {c : ι} (hc : c ∈ kids x) : ¬ Below kids c x := fun hcx =>
      hloop (Relation.TransGen.head' hc hcx)
    have hside {y : ι} (hy : y ∈ stack) : ¬ Below kids x y ∧ ¬ Below kids y x := by
      constructor
      · intro hxy
        obtain rfl := hapart x List.mem_cons_self y (List.mem_cons_of_mem x hy) hxy
        exact hx hy
      · intro hyx
        obtain rfl := hapart y (List.mem_cons_of_mem x hy) x List.mem_cons_self hyx
        exact hx hy
    refine List.nodup_cons.mpr ⟨fun hmem => ?_, ih ?_ ?_⟩
    · obtain ⟨z, hz, hzx⟩ := h.mem_iff.mp hmem
      obtain hz | hz := List.mem_append.mp hz
      · exact hfar (List.mem_reverse.mp hz) hzx
      · exact (hside hz).2 hzx
    · refine List.Nodup.append (List.nodup_reverse.mpr (hkids x)) hstack fun c hc hcs => ?_
      exact (hside hcs).1 (.single (List.mem_reverse.mp hc))
    · intro c hc d hd hcd
      simp only [List.mem_append, List.mem_reverse] at hc hd
      obtain hc | hc := hc
      · obtain hd | hd := hd
        · obtain rfl | hcx := below_of_kid hunique hd hcd
          · rfl
          · exact absurd hcx (hfar hc)
        · exact absurd (.head hc hcd) (hside hd).1
      · obtain hd | hd := hd
        · obtain rfl | hcx := below_of_kid hunique hd hcd
          · rfl
          · exact absurd hcx (hside hc).2
        · exact hapart c (List.mem_cons_of_mem x hc) d (List.mem_cons_of_mem x hd) hcd

/-- A walk from the children of a node, if it ends at all, ends within as many steps as
there are nodes. -/
theorem descend_kids_eq_some_iff {nodes : List ι} (hkids : ∀ x, (kids x).Nodup)
    (hnodes : ∀ c f, c ∈ kids f → c ∈ nodes) :
    descend kids nodes.length (kids x).reverse = some visited ↔
      Walk kids (kids x).reverse visited := by
  refine ⟨fun h => (descend_eq_some_iff.mp h).1, fun h => descend_eq_some_iff.mpr ⟨h, ?_⟩⟩
  have hapart : ∀ c ∈ (kids x).reverse, ∀ d ∈ (kids x).reverse, Below kids c d → c = d := by
    intro c hc d hd hcd
    obtain rfl | hcx := below_of_kid hunique (List.mem_reverse.mp hd) hcd
    · rfl
    · have hloop : Looped kids x := Relation.TransGen.head' (List.mem_reverse.mp hc) hcx
      exact absurd hloop (h.not_looped hc hcx)
  have hnodup := h.nodup hunique hkids (List.nodup_reverse.mpr (hkids x)) hapart
  refine (List.subperm_of_subset hnodup fun y hy => ?_).length_le
  obtain ⟨c, hc, hcy⟩ := h.mem_iff.mp hy
  obtain rfl | ⟨f, -, hf⟩ := Relation.ReflTransGen.cases_tail hcy
  · exact hnodes _ x (List.mem_reverse.mp hc)
  · exact hnodes y f hf

end Unique

end Descend

section Reparent

variable {ι : Type*} {r s : ι → ι → Prop} {x p y : ι}

/-- The way up to a node does not depend on where it leads from there. -/
theorem reaches_of_agree (h : ∀ c f, c ≠ x → r c f → s c f) (hp : Relation.ReflTransGen r p x) :
    Relation.ReflTransGen s p x := by
  induction hp using Relation.ReflTransGen.head_induction_on with
  | refl => exact .refl
  | @head c f hcf _ ih =>
    by_cases hc : c = x
    · subst hc
      exact .refl
    · exact .head (h c f hc hcf) ih

/-- A node that has got another parent is above itself if and only if it was already
above that parent, or is the parent; nothing else has changed. -/
theorem acyclic_reparent_iff (hr : ∀ c f, c ≠ x → r c f → s c f)
    (hs : ∀ c f, c ≠ x → s c f → r c f) (hacyclic : ∀ y, ¬ Relation.TransGen r y y) :
    (∀ y, ¬ Relation.TransGen s y y) ↔ ∀ p, s x p → ¬ Relation.ReflTransGen r p x := by
  constructor
  · intro h p hp hpx
    exact h x (.head' hp (reaches_of_agree hr hpx))
  · intro h y hy
    -- a way that is not one from before goes through the node
    have hthrough {a b : ι} (hab : Relation.TransGen s a b) :
        Relation.TransGen r a b ∨ Relation.ReflTransGen s a x ∧ Relation.TransGen s x b := by
      induction hab using Relation.TransGen.head_induction_on with
      | @single a hab =>
        by_cases ha : a = x
        · subst ha
          exact .inr ⟨.refl, .single hab⟩
        · exact .inl (.single (hs a b ha hab))
      | @head a c hac hcb ih =>
        by_cases ha : a = x
        · subst ha
          exact .inr ⟨.refl, .head hac hcb⟩
        · obtain hcb | ⟨hcx, hxb⟩ := ih
          · exact .inl (.head (hs a c ha hac) hcb)
          · exact .inr ⟨.head hac hcx, hxb⟩
    have hxx : Relation.TransGen s x x := by
      obtain hloop | ⟨hyx, hxy⟩ := hthrough hy
      · exact absurd hloop (hacyclic y)
      · exact hxy.trans_left hyx
    obtain ⟨p, hp, hpx⟩ := Relation.TransGen.head'_iff.mp hxx
    exact h p hp (reaches_of_agree hs hpx)

end Reparent
