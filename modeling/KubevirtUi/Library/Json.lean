import Mathlib.Data.List.Basic

/-!
# JSON values and merge patches

A merge patch is itself a value: where it is an object its fields are merged into the
target's one by one, a null takes a field away, and anything else replaces what was
there. A list is replaced as a whole.

What a value says is what is found in it under every path of fields and places. Two values
are alike if they say the same.
-/

inductive Json where
  | null
  | bool (b : Bool)
  | num (n : Int)
  | str (s : String)
  | arr (items : List Json)
  | obj (fields : List (String × Json))

namespace Json

mutual

def same : Json → Json → Bool
  | .null, .null => true
  | .bool a, .bool b => a = b
  | .num a, .num b => a = b
  | .str a, .str b => a = b
  | .arr xs, .arr ys => sameItems xs ys
  | .obj xs, .obj ys => sameFields xs ys
  | _, _ => false

def sameItems : List Json → List Json → Bool
  | [], [] => true
  | x :: xs, y :: ys => same x y && sameItems xs ys
  | _, _ => false

def sameFields : List (String × Json) → List (String × Json) → Bool
  | [], [] => true
  | (k, x) :: xs, (l, y) :: ys => decide (k = l) && same x y && sameFields xs ys
  | _, _ => false

end

mutual

theorem same_iff : ∀ x y : Json, same x y = true ↔ x = y
  | .null, y => by cases y <;> simp [same]
  | .bool a, y => by cases y <;> simp [same]
  | .num a, y => by cases y <;> simp [same]
  | .str a, y => by cases y <;> simp [same]
  | .arr xs, y => by
      cases y with
      | arr ys => simp [same, sameItems_iff xs ys]
      | _ => simp [same]
  | .obj xs, y => by
      cases y with
      | obj ys => simp [same, sameFields_iff xs ys]
      | _ => simp [same]

theorem sameItems_iff : ∀ xs ys : List Json, sameItems xs ys = true ↔ xs = ys
  | [], ys => by cases ys <;> simp [sameItems]
  | x :: xs, ys => by
      cases ys with
      | nil => simp [sameItems]
      | cons y ys => simp [sameItems, same_iff x y, sameItems_iff xs ys]

theorem sameFields_iff : ∀ xs ys : List (String × Json), sameFields xs ys = true ↔ xs = ys
  | [], ys => by cases ys <;> simp [sameFields]
  | (k, x) :: xs, ys => by
      cases ys with
      | nil => simp [sameFields]
      | cons y ys => simp [sameFields, same_iff x y.2, sameFields_iff xs ys, Prod.ext_iff]

end

instance : DecidableEq Json := fun x y => decidable_of_iff _ (same_iff x y)

/-- A field of an object; a field that is not there is null. -/
def get (key : String) : Json → Json
  | .obj fields => (fields.lookup key).getD .null
  | _ => .null

/-- The items of a list; anything else has none. -/
def items : Json → List Json
  | .arr xs => xs
  | _ => []

def truthy : Json → Bool
  | .null => false
  | .bool b => b
  | .num n => n ≠ 0
  | .str s => s ≠ ""
  | .arr xs => !xs.isEmpty
  | .obj fields => !fields.isEmpty

def fieldsOf : Json → List (String × Json)
  | .obj fields => fields
  | _ => []

/-- Set one field, and leave all others. -/
def setField (key : String) (x : Json) (fields : List (String × Json)) : List (String × Json) :=
  (key, x) :: fields.filter fun f => f.1 ≠ key

theorem lookup_filter_ne {key other : String} (h : other ≠ key) (fields : List (String × Json)) :
    (fields.filter fun f => f.1 ≠ key).lookup other = fields.lookup other := by
  induction fields with
  | nil => rfl
  | cons field fields ih =>
    by_cases hfield : field.1 = key
    · rw [List.filter_cons_of_neg (by simpa using hfield), ih, List.lookup_cons,
        beq_false_of_ne (by rwa [hfield])]
    · rw [List.filter_cons_of_pos (by simpa using hfield), List.lookup_cons, List.lookup_cons, ih]

theorem lookup_setField (key other : String) (x : Json) (fields : List (String × Json)) :
    (setField key x fields).lookup other = if other = key then some x else fields.lookup other := by
  rw [setField, List.lookup_cons]
  split
  · next hsame => rw [if_pos (beq_iff_eq.mp hsame)]
  · next hsame =>
    rw [if_neg (beq_eq_false_iff_ne.mp hsame), lookup_filter_ne (beq_eq_false_iff_ne.mp hsame)]

mutual

def mergePatch : Json → Json → Json
  | target, .obj patch => .obj (mergeFields target.fieldsOf patch)
  | _, patch => patch

def mergeFields : List (String × Json) → List (String × Json) → List (String × Json)
  | fields, [] => fields
  | fields, (key, .null) :: patch => mergeFields (fields.filter fun f => f.1 ≠ key) patch
  | fields, (key, x) :: patch =>
    mergeFields (setField key (mergePatch ((fields.lookup key).getD .null) x) fields) patch

end

/-- A patch of one field that is a list replaces that list. -/
theorem get_mergePatch_arr (target : Json) (key : String) (xs : List Json) :
    (mergePatch target (.obj [(key, .arr xs)])).get key = .arr xs := by
  simp [mergePatch, mergeFields, get, setField]

/-- One step into a value. -/
inductive Step where
  | field (key : String)
  | item (n : Nat)
  deriving DecidableEq

/-- What is seen of a value without going into it. -/
inductive Shape where
  | null
  | bool (b : Bool)
  | num (n : Int)
  | str (s : String)
  | arr (length : Nat)
  | obj
  deriving DecidableEq

def shape : Json → Shape
  | .null => .null
  | .bool b => .bool b
  | .num n => .num n
  | .str s => .str s
  | .arr xs => .arr xs.length
  | .obj _ => .obj

def look : List Step → Json → Option Shape
  | [], x => some x.shape
  | .field key :: path, .obj fields => (fields.lookup key).bind (look path)
  | .item n :: path, .arr xs => xs[n]?.bind (look path)
  | _ :: _, _ => none

def Alike (x y : Json) : Prop := ∀ path, look path x = look path y

/-- Both are missing, or both are there and alike. -/
def AlikeIf (x y : Option Json) : Prop := ∀ path, x.bind (look path) = y.bind (look path)

section Alike

variable {x y z : Json} {xs ys : List (String × Json)} {key : String}

theorem Alike.refl (x : Json) : Alike x x := fun _ => rfl

theorem Alike.symm (h : Alike x y) : Alike y x := fun path => (h path).symm

theorem alikeIf_some : AlikeIf (some x) (some y) ↔ Alike x y := Iff.rfl

theorem AlikeIf.refl (x : Option Json) : AlikeIf x x := fun _ => rfl

theorem not_alikeIf_none_some : ¬ AlikeIf none (some x) := fun h => nomatch h []

theorem not_alikeIf_some_none : ¬ AlikeIf (some x) none := fun h => nomatch h []

theorem alike_str_iff {a b : String} : Alike (.str a) (.str b) ↔ a = b := by
  constructor
  · intro h
    simpa [look, shape] using h []
  · rintro rfl
    exact .refl _

theorem alike_str_left_iff {a : String} : Alike (.str a) y ↔ y = .str a := by
  constructor
  · intro h
    have hshape : shape (.str a) = y.shape := Option.some.inj (h [])
    cases y with
    | str b => rw [Shape.str.inj hshape]
    | _ => contradiction
  · rintro rfl
    exact .refl _

theorem alike_obj_iff : Alike (.obj xs) (.obj ys) ↔
    ∀ key, AlikeIf (xs.lookup key) (ys.lookup key) := by
  constructor
  · exact fun h key path => h (.field key :: path)
  · intro h path
    cases path with
    | nil => rfl
    | cons step path =>
      cases step with
      | field key => exact h key path
      | item n => rfl

theorem alike_cons_iff {rest : List Json} :
    Alike (.arr (x :: rest)) (.arr (y :: rest)) ↔ Alike x y := by
  constructor
  · exact fun h path => h (.item 0 :: path)
  · intro h path
    cases path with
    | nil => rfl
    | cons step path =>
      cases step with
      | field key => rfl
      | item n =>
        cases n with
        | zero => exact h path
        | succ n => rfl

theorem not_alike_of_shape (h : x.shape ≠ y.shape) : ¬ Alike x y :=
  fun halike => h (Option.some.inj (halike []))

theorem alike_setField_self_iff (h : xs.lookup key = some y) :
    Alike (.obj (setField key x xs)) (.obj xs) ↔ Alike x y := by
  rw [alike_obj_iff]
  constructor
  · intro halike
    have hkey := halike key
    rwa [lookup_setField, if_pos rfl, h, alikeIf_some] at hkey
  · intro halike other
    rw [lookup_setField]
    split
    · next hother =>
      subst hother
      rwa [h, alikeIf_some]
    · exact .refl _

/-- A field that is set to a text is as before if it was that text. -/
theorem alike_setField_str_iff {a : String} :
    Alike (.obj (setField key (.str a) xs)) (.obj xs) ↔ xs.lookup key = some (.str a) := by
  cases hkey : xs.lookup key with
  | some y => rw [alike_setField_self_iff hkey, alike_str_left_iff, Option.some.injEq]
  | none =>
    simp only [reduceCtorEq, iff_false]
    intro h
    have hat := alike_obj_iff.mp h key
    rw [lookup_setField, if_pos rfl, hkey] at hat
    exact not_alikeIf_some_none hat

theorem alike_setField_iff (hrest : ∀ other, other ≠ key →
    AlikeIf (xs.lookup other) (ys.lookup other)) :
    Alike (.obj (setField key x xs)) (.obj (setField key y ys)) ↔ Alike x y := by
  rw [alike_obj_iff]
  constructor
  · intro h
    have hkey := h key
    rwa [lookup_setField, lookup_setField, if_pos rfl, if_pos rfl, alikeIf_some] at hkey
  · intro h other
    rw [lookup_setField, lookup_setField]
    split
    · exact h
    · next hother => exact hrest other hother

end Alike

end Json
