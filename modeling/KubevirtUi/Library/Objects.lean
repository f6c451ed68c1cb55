import Mathlib.Data.List.AList

/-!
# Objects that are deleted in two steps

An object whose deletion someone holds back is only marked by it, and goes when it is let
go. Until then its name is taken, and none is made under it.
-/

/-- An object, and what its deletion waits for. -/
structure Object (α : Type) where
  value : α
  deleting : Bool := false
  finalizers : List String := []

/-- Objects by name. -/
abbrev Objects (α : Type) := AList fun _ : String => Object α

namespace Objects

variable {α : Type} {s : Objects α} {name other : String} {x : Object α} {value : α}

def delete (s : Objects α) (name : String) : Objects α :=
  match s.lookup name with
  | none => s
  | some x =>
    if x.finalizers = [] then s.erase name else s.insert name { x with deleting := true }

def create (s : Objects α) (name : String) (value : α) : Objects α :=
  if name ∈ s then s else s.insert name { value }

/-- Nobody holds the object back any longer. -/
def release (s : Objects α) (name : String) : Objects α :=
  match s.lookup name with
  | none => s
  | some x => if x.deleting then s.erase name else s.insert name { x with finalizers := [] }

/-- What an object is, also while it is being deleted. -/
def value? (s : Objects α) (name : String) : Option α := (s.lookup name).map Object.value

/-- What an object is that is not being deleted. -/
def live (s : Objects α) (name : String) : Option α :=
  (s.lookup name).bind fun x => if x.deleting then none else some x.value

/-- The object goes at once when it is deleted. -/
def Unheld (s : Objects α) (name : String) : Prop :=
  ∀ x, s.lookup name = some x → x.finalizers = []

instance : Decidable (s.Unheld name) :=
  match h : s.lookup name with
  | none => .isTrue fun x hx => by rw [h] at hx; contradiction
  | some y =>
    if hy : y.finalizers = [] then
      .isTrue fun x hx => by rw [h] at hx; exact Option.some.inj hx ▸ hy
    else .isFalse fun hall => hy (hall y h)

theorem live_of_lookup (h : s.lookup name = some x) :
    s.live name = if x.deleting then none else some x.value := by
  rw [live, h, Option.bind_some]

theorem live_of_lookup_none (h : s.lookup name = none) : s.live name = none := by
  rw [live, h, Option.bind_none]

theorem live_congr {t : Objects α} (h : t.lookup name = s.lookup name) :
    t.live name = s.live name := by
  rw [live, live, h]

theorem value?_congr {t : Objects α} (h : t.lookup name = s.lookup name) :
    t.value? name = s.value? name := by
  rw [value?, value?, h]

theorem lookup_delete_ne (h : other ≠ name) : (s.delete name).lookup other = s.lookup other := by
  rw [delete]
  split
  · rfl
  · split
    · exact AList.lookup_erase_ne h
    · exact AList.lookup_insert_ne h

theorem lookup_release_ne (h : other ≠ name) : (s.release name).lookup other = s.lookup other := by
  rw [release]
  split
  · rfl
  · split
    · exact AList.lookup_erase_ne h
    · exact AList.lookup_insert_ne h

/-- An object that is deleted is gone, or marked. -/
theorem lookup_delete_self : (s.delete name).lookup name =
    if s.Unheld name then none else (s.lookup name).map ({ · with deleting := true }) := by
  rw [delete]
  cases h : s.lookup name with
  | none => simp [h]
  | some x =>
    have hunheld : s.Unheld name ↔ x.finalizers = [] := by simp [Unheld, h]
    by_cases hx : x.finalizers = []
    · simp [hunheld, hx]
    · simp [hunheld, hx]

@[simp] theorem live_delete_self : (s.delete name).live name = none := by
  rw [live, lookup_delete_self]
  split
  · rfl
  · cases s.lookup name <;> rfl

theorem live_delete : (s.delete name).live other = if other = name then none else s.live other := by
  split
  · next h => rw [h, live_delete_self]
  · next h => exact live_congr (lookup_delete_ne h)

/-- What an object is can be read for as long as it is held back. -/
theorem value?_delete : (s.delete name).value? other =
    if other = name ∧ s.Unheld name then none else s.value? other := by
  by_cases hname : other = name
  · subst hname
    rw [value?, lookup_delete_self]
    split
    · next h => simp [h]
    · next h => simp [h, value?, Function.comp_def]
  · rw [if_neg (fun h => hname h.1)]
    exact value?_congr (lookup_delete_ne hname)

theorem unheld_congr {t : Objects α} (h : t.lookup name = s.lookup name) :
    t.Unheld name ↔ s.Unheld name := by
  rw [Unheld, Unheld, h]

@[simp] theorem unheld_delete : (s.delete name).Unheld other ↔ s.Unheld other := by
  by_cases hname : other = name
  · subst hname
    rw [Unheld, lookup_delete_self]
    split
    · next h => simp [h]
    · next h => simp [Unheld]
  · exact unheld_congr (lookup_delete_ne hname)

/-- Of the objects that are deleted, those that nobody holds back are gone. -/
theorem value?_foldl_delete (names : List String) : (names.foldl delete s).value? other =
    if other ∈ names ∧ s.Unheld other then none else s.value? other := by
  induction names generalizing s with
  | nil => simp
  | cons name names ih =>
    simp only [List.foldl_cons, ih, value?_delete, unheld_delete]
    by_cases hunheld : s.Unheld other
    · by_cases hname : other = name
      · simp [hname, hname ▸ hunheld]
      · simp [hname, hunheld]
    · simp [hunheld, show ¬(other = name ∧ s.Unheld name) from fun h => hunheld (h.1 ▸ h.2)]

theorem mem_delete_self : name ∈ s.delete name ↔ ¬s.Unheld name := by
  rw [← AList.lookup_isSome, lookup_delete_self]
  split
  · next h => simp [h]
  · next h =>
    simp only [h, Option.isSome_map]
    cases hlookup : s.lookup name with
    | none => exact absurd (fun x hx => by rw [hlookup] at hx; contradiction) h
    | some x => simp

theorem live_create : (s.create name value).live other =
    if other = name ∧ name ∉ s then some value else s.live other := by
  rw [create]
  split
  · next h => simp [h]
  · next h =>
    by_cases hname : other = name
    · subst hname
      simp [live, h]
    · rw [if_neg (fun hall => hname hall.1)]
      exact live_congr (AList.lookup_insert_ne hname)

theorem live_release (h : s.live name = none) : (s.release name).live other = s.live other := by
  by_cases hname : other = name
  · subst hname
    rw [h, release]
    cases hlookup : s.lookup other with
    | none => exact h
    | some x =>
      rw [live_of_lookup hlookup] at h
      cases hx : x.deleting with
      | true =>
        simp only [hx, if_true]
        exact live_of_lookup_none (AList.lookup_erase other s)
      | false => simp [hx] at h
  · exact live_congr (lookup_release_ne hname)

end Objects
