import KubevirtUi.Addons.Forgets

/-!
# A body laid over another

What is rendered stands in the result, and what is not rendered is kept. Laying it over the
result again changes nothing, so a pass that finds all it renders has nothing to write.

In the program a map is held by reference. The one that is returned is new, as is every map
in it that two are merged in, and no map that was there before is written to.
-/

namespace Addons

open Json List Option

/-- What is found under a path of keys. -/
def valueAt : List String → Json → Option Json
  | [], value => some value
  | key :: path, .obj fields => (fields.lookup key).bind (valueAt path)
  | _ :: _, _ => none

/-- A map is found as a map, and anything else as it is. -/
def Stands (value found : Json) : Prop :=
  if value.shape = .obj then found.shape = .obj else Alike found value

/-- Everything in the one is found in the other. -/
def Contained (want out : Json) : Prop :=
  ∀ path value, valueAt path want = some value →
    ∃ found, valueAt path out = some found ∧ Stands value found

/-- The path is not named, and nothing on the way is replaced by what is no map. -/
def Spared (want : Json) (path : List String) : Prop :=
  valueAt path want = none ∧
    ∀ front value, front <+: path → valueAt front want = some value → value.shape = .obj

/-- A map is held by reference, anything else as it is. -/
inductive Held where
  | leaf (value : Json)
  | map (address : Nat)

abbrev Cell := List (String × Held)

abbrev Heap := List Cell

def Cell.set (key : String) (held : Held) (cell : Cell) : Cell :=
  (key, held) :: cell.filter fun f => f.1 ≠ key

/-- One round of the loop over what is wanted. -/
def layAt (merge : Nat → Nat → Heap → Option (Nat × Heap)) (out : Nat) (heap : Heap)
    (field : String × Held) : Option Heap := do
  let cell ← heap[out]?
  match field.2, cell.lookup field.1 with
  | .map nested, some (.map existing) => do
    let (merged, heap) ← merge existing nested heap
    let cell ← heap[out]?
    return heap.set out (Cell.set field.1 (.map merged) cell)
  | wanted, _ => return heap.set out (Cell.set field.1 wanted cell)

/-- The program's `MergeSpec`: two maps are read, and a new one is made. -/
def mergeSpecAt : Nat → Nat → Nat → Heap → Option (Nat × Heap)
  | 0, _, _, _ => none
  | fuel + 1, live, want, heap => do
    let copied ← heap[live]?
    let wanted ← heap[want]?
    let heap' ← wanted.foldlM (layAt (mergeSpecAt fuel) heap.length) (heap ++ [copied])
    return (heap.length, heap')

section

variable (aside : Nat → Prop) (heap : Heap)

mutual

/-- What is held says this, and is read without a look at what is set aside. -/
def Says : Held → Json → Prop
  | .map address, .obj fields =>
    ¬ aside address ∧ ∃ cell, heap[address]? = some cell ∧ SaysAll cell fields
  | .leaf value, json => value = json ∧ json.shape ≠ .obj
  | _, _ => False

def SaysAll : Cell → Fields → Prop
  | [], [] => True
  | (key, held) :: cell, (name, value) :: fields =>
    key = name ∧ Says held value ∧ SaysAll cell fields
  | _, _ => False

end

end

variable {live want fields : Fields} {value : Json} {key : String}

section Found

variable {old found : Json} {path : List String}

theorem valueAt_cons (h : fields.lookup key = some value) :
    valueAt (key :: path) (.obj fields) = valueAt path value := by
  rw [valueAt, h, bind_some]

theorem of_valueAt_cons (h : valueAt (key :: path) old = some value) :
    ∃ fields next, old = .obj fields ∧ fields.lookup key = some next ∧
      valueAt path next = some value := by
  cases old with
  | obj fields =>
    obtain ⟨next, hnext, hvalue⟩ := bind_eq_some_iff.mp h
    exact ⟨fields, next, rfl, hnext, hvalue⟩
  | _ => contradiction

theorem lay_of_shape (h : value.shape ≠ .obj) : lay old value = value := by
  cases value with
  | obj want => exact absurd rfl h
  | _ => rw [lay]; simp

/-- An object stays one, and under each of its keys the values are laid over each other. -/
theorem exists_lay_obj (old : Json) (h : (want.map Prod.fst).Nodup) :
    ∃ fields, lay old (.obj want) = .obj fields ∧ ∀ key value, want.lookup key = some value →
      fields.lookup key = some (lay (old.get key) value) := by
  cases old with
  | obj live =>
    refine ⟨_, by rw [lay], fun key value hkey => ?_⟩
    rw [lookup_mergeSpec h, hkey]
    rfl
  | _ =>
    refine ⟨want, by rw [lay]; simp, fun key value hkey => ?_⟩
    rw [hkey]
    cases value <;> rfl

theorem contained_lay (old : Json) (h : ∀ fields, value = .obj fields → Distinct fields) :
    Contained value (lay old value) := by
  intro path
  induction path generalizing old value with
  | nil =>
    intro found hfound
    obtain rfl := some.inj hfound
    refine ⟨_, rfl, ?_⟩
    unfold Stands
    split
    · next hshape =>
      cases value with
      | obj want =>
        obtain ⟨_, hlay⟩ := exists_lay_obj _ (h want rfl).nodup
        rw [hlay.1]
        rfl
      | _ => contradiction
    · next hshape =>
      rw [lay_of_shape hshape]
      exact .refl _
  | cons key path ih =>
    intro found hfound
    obtain ⟨want, next, rfl, hnext, hfound⟩ := of_valueAt_cons hfound
    obtain ⟨fields, hlay, hfields⟩ := exists_lay_obj old (h want rfl).nodup
    rw [hlay, valueAt_cons (hfields key next hnext)]
    refine ih _ ?_ found hfound
    rintro ws rfl
    exact (h want rfl).under hnext

theorem kept_mergeSpec (h : Distinct want) (hfound : valueAt path (.obj live) = some found)
    (hspared : Spared (.obj want) path) :
    valueAt path (.obj (mergeSpec live want)) = some found := by
  induction path generalizing live want with
  | nil => exact absurd hspared.1 (by simp [valueAt])
  | cons key path ih =>
    obtain ⟨_, old, hlive, hold, hfound⟩ := of_valueAt_cons hfound
    obtain rfl := Json.obj.inj hlive
    have hmerged := @lookup_mergeSpec live want h.nodup key
    cases hwant : want.lookup key with
    | none =>
      rw [hwant] at hmerged
      rw [valueAt_cons (hmerged.trans hold), hfound]
    | some value =>
      rw [hwant, hold] at hmerged
      have hshape : value.shape = .obj :=
        hspared.2 [key] value (by simp) (by rw [valueAt_cons hwant, valueAt])
      cases value with
      | obj ws =>
        have hnext : Spared (.obj ws) path := by
          constructor
          · rw [← valueAt_cons hwant, hspared.1]
          · intro front value hfront hat
            apply hspared.2 (key :: front) value (by simpa using hfront)
            rw [valueAt_cons hwant, hat]
        rw [valueAt_cons hmerged]
        cases old with
        | obj ls =>
          rw [getD_some, lay]
          exact ih (h.under hwant) hfound hnext
        | _ =>
          cases path with
          | nil => exact absurd hnext.1 (by simp [valueAt])
          | cons => contradiction
      | _ => contradiction

theorem Contained.stands (h : Contained value found) : Stands value found := by
  obtain ⟨_, hat, htop⟩ := h [] value rfl
  rwa [← some.inj hat] at htop

theorem Contained.under (h : Contained (.obj want) (.obj fields))
    (hkey : want.lookup key = some value) :
    ∃ next, fields.lookup key = some next ∧ Contained value next := by
  obtain ⟨next, hnext, -⟩ := h [key] value (by rw [valueAt_cons hkey, valueAt])
  obtain ⟨_, _, hobj, hlookup, -⟩ := of_valueAt_cons hnext
  obtain rfl := Json.obj.inj hobj
  refine ⟨_, hlookup, fun path found hfound => ?_⟩
  rw [← valueAt_cons hlookup]
  exact h (key :: path) found (by rw [valueAt_cons hkey, hfound])

theorem alike_lay (h : ∀ fields, value = .obj fields → Distinct fields)
    (hfound : Contained value found) : Alike (lay found value) found := by
  intro steps
  induction steps generalizing found value with
  | nil =>
    have htop := (contained_lay found h).stands
    have hold := hfound.stands
    unfold Stands at htop hold
    split at hold
    · next hshape =>
      rw [if_pos hshape] at htop
      rw [look, look, htop, hold]
    · next hshape =>
      rw [lay_of_shape hshape]
      exact (hold []).symm
  | cons step steps ih =>
    have htop := hfound.stands
    unfold Stands at htop
    split at htop
    · next hshape =>
      cases value with
      | obj want =>
        cases found with
        | obj live =>
          rw [lay]
          cases step with
          | item n => rfl
          | field key =>
            rw [look, look, lookup_mergeSpec (h want rfl).nodup]
            cases hkey : want.lookup key with
            | none => rfl
            | some value =>
              obtain ⟨next, hnext, hunder⟩ := hfound.under hkey
              rw [hnext]
              apply ih _ hunder
              rintro ws rfl
              exact (h want rfl).under hkey
        | _ => contradiction
      | _ => contradiction
    · next hshape =>
      rw [lay_of_shape hshape]
      exact (htop _).symm

theorem bind_valueAt (path : List String) (steps : List Step) (value : Json) :
    (valueAt path value).bind (look steps) = look (path.map .field ++ steps) value := by
  induction path generalizing value with
  | nil => rfl
  | cons key path ih =>
    cases value with
    | obj fields =>
      rw [valueAt, bind_assoc, map_cons, cons_append, look]
      exact bind_congr fun next _ => ih next
    | _ => rfl

theorem Contained.congr (h : Contained value old) (halike : Alike old found) :
    Contained value found := by
  intro path next hnext
  obtain ⟨at_old, hold, hstands⟩ := h path next hnext
  have hat (steps : List Step) : look steps at_old = (valueAt path found).bind (look steps) := by
    rw [bind_valueAt, ← halike, ← bind_valueAt, hold, bind_some]
  cases hfound : valueAt path found with
  | none => exact absurd (hat []) (by rw [hfound]; simp [look])
  | some at_found =>
    have hsame : Alike at_found at_old := fun steps => by rw [hat, hfound, bind_some]
    refine ⟨at_found, rfl, ?_⟩
    unfold Stands at hstands ⊢
    split at hstands
    · next hshape =>
      rw [if_pos hshape, ← hstands]
      exact some.inj (hsame [])
    · next hshape =>
      rw [if_neg hshape]
      exact fun steps => (hsame steps).trans (hstands steps)

end Found

variable {merge : Nat → Nat → Heap → Option (Nat × Heap)}

section Heap

variable {aside aside' : Nat → Prop} {heap heap' before tail : Heap} {cell : Cell} {held : Held}
  {fuel : Nat}

mutual

theorem Says.mono (hkeep : ∀ a cell, ¬ aside a → heap[a]? = some cell →
    ¬ aside' a ∧ heap'[a]? = some cell) (held : Held) (value : Json)
    (h : Says aside heap held value) : Says aside' heap' held value := by
  cases held with
  | leaf found => cases value <;> exact h
  | map address =>
    cases value with
    | obj fields =>
      obtain ⟨haside, cell, hcell, hall⟩ := h
      have hkept := hkeep address cell haside hcell
      exact ⟨hkept.1, cell, hkept.2, SaysAll.mono hkeep cell fields hall⟩
    | _ => exact h

theorem SaysAll.mono (hkeep : ∀ a cell, ¬ aside a → heap[a]? = some cell →
    ¬ aside' a ∧ heap'[a]? = some cell) (cell : Cell) (fields : Fields)
    (h : SaysAll aside heap cell fields) : SaysAll aside' heap' cell fields := by
  cases cell with
  | nil => cases fields with
    | nil => trivial
    | cons => exact h
  | cons first cell => cases fields with
    | nil => exact h
    | cons field fields =>
      exact ⟨h.1, Says.mono hkeep _ _ h.2.1, SaysAll.mono hkeep _ _ h.2.2⟩

end

theorem SaysAll.lookup (h : SaysAll aside heap cell fields) (key : String) :
    (cell.lookup key = none ∧ fields.lookup key = none) ∨ ∃ held value,
      cell.lookup key = some held ∧ fields.lookup key = some value ∧
        Says aside heap held value := by
  induction cell generalizing fields with
  | nil => cases fields with
    | nil => exact .inl ⟨rfl, rfl⟩
    | cons => exact h.elim
  | cons first cell ih => cases fields with
    | nil => exact h.elim
    | cons field fields =>
      obtain ⟨hkey, htells, hrest⟩ := h
      rw [lookup_cons, lookup_cons, hkey]
      split
      · exact .inr ⟨_, _, rfl, rfl, htells⟩
      · exact ih hrest

theorem SaysAll.set (h : SaysAll aside heap cell fields) (htells : Says aside heap held value) :
    SaysAll aside heap (cell.set key held) (setField key value fields) := by
  refine ⟨rfl, htells, ?_⟩
  clear htells
  induction cell generalizing fields with
  | nil => cases fields with
    | nil => trivial
    | cons => exact h.elim
  | cons first cell ih => cases fields with
    | nil => exact h.elim
    | cons field fields =>
      obtain ⟨hkey, hfirst, hrest⟩ := h
      rw [filter_cons, filter_cons, hkey]
      split
      · exact ⟨hkey, hfirst, ih hrest⟩
      · exact ih hrest

theorem grown (haside : aside before.length) {tail' : Heap} (hgrown : tail <+: tail')
    (cell cell' : Cell) (a : Nat) (found : Cell) (ha : ¬ aside a)
    (h : (before ++ cell :: tail)[a]? = some found) :
    ¬ aside a ∧ (before ++ cell' :: tail')[a]? = some found := by
  refine ⟨ha, ?_⟩
  obtain ⟨more, rfl⟩ := hgrown
  rw [List.getElem?_append] at h ⊢
  split at h
  · next hlt => rwa [if_pos hlt]
  · next hge =>
    obtain ⟨k, hk⟩ : ∃ k, a - before.length = k + 1 := by
      refine ⟨a - before.length - 1, ?_⟩
      have hne : a ≠ before.length := by
        rintro rfl
        exact ha haside
      omega
    rw [hk, List.getElem?_cons_succ] at h
    rw [if_neg hge, hk, List.getElem?_cons_succ,
      List.getElem?_append_left (List.getElem?_eq_some_iff.mp h).1, h]

/-- Merging two maps writes none that was there. -/
def Merges (aside : Nat → Prop) (heap : Heap) (merge : Nat → Nat → Heap → Option (Nat × Heap))
    (want : Fields) : Prop :=
  ∀ l w live, Says aside heap (.map l) (.obj live) → Says aside heap (.map w) (.obj want) →
    ∃ out more, merge l w heap = some (out, heap ++ more) ∧
      Says aside (heap ++ more) (.map out) (.obj (mergeSpec live want))

/-- The cell has come to say the fields, and what is new stands behind all that was there. -/
def Extends (aside : Nat → Prop) (before tail : Heap) (result : Option Heap) (fields : Fields) :
    Prop :=
  ∃ cell tail', tail <+: tail' ∧ result = some (before ++ cell :: tail') ∧
    SaysAll aside (before ++ cell :: tail') cell fields

theorem grows_layAt (haside : aside before.length)
    (hcell : SaysAll aside (before ++ cell :: tail) cell live)
    (hheld : Says aside (before ++ cell :: tail) held value)
    (hmerge : ∀ ws, value = .obj ws → Merges aside (before ++ cell :: tail) merge ws) :
    Extends aside before tail (layAt merge before.length (before ++ cell :: tail) (key, held))
      (setField key (lay ((live.lookup key).getD .null) value) live) := by
  have hplain (hlay : lay ((live.lookup key).getD .null) value = value)
      (hrun : layAt merge before.length (before ++ cell :: tail) (key, held) =
        some ((before ++ cell :: tail).set before.length (cell.set key held))) :
      Extends aside before tail (layAt merge before.length (before ++ cell :: tail) (key, held))
        (setField key (lay ((live.lookup key).getD .null) value) live) := by
    refine ⟨cell.set key held, tail, prefix_rfl, by rw [hrun]; simp, ?_⟩
    have hkept := grown haside (prefix_refl tail) cell (cell.set key held)
    rw [hlay]
    exact (SaysAll.mono hkept _ _ hcell).set (Says.mono hkept _ _ hheld)
  cases held with
  | leaf found =>
    apply hplain
    · cases value with
      | obj ws => exact absurd rfl hheld.2
      | _ => rw [lay]; simp
    · simp [layAt]
  | map nested =>
    cases value with
    | obj ws =>
      obtain ⟨hnone, hlive⟩ | ⟨existing, old, hexisting, hlive, htells⟩ := hcell.lookup key
      · rw [hlive] at hplain ⊢
        exact hplain rfl (by simp [layAt, hnone])
      · rw [hlive] at hplain ⊢
        cases existing with
        | leaf found =>
          apply hplain
          · cases old with
            | obj ls => exact absurd rfl htells.2
            | _ => rfl
          · simp [layAt, hexisting]
        | map address =>
          cases old with
          | obj ls =>
            obtain ⟨out, more, hrun, hout⟩ := hmerge ws rfl address nested ls htells hheld
            rw [append_assoc, cons_append] at hrun hout
            refine ⟨cell.set key (.map out), tail ++ more, tail.prefix_append more,
              by simp [layAt, hexisting, hrun], ?_⟩
            have hkept := grown haside (tail.prefix_append more) cell (cell.set key (.map out))
            have hnew := grown haside (prefix_refl (tail ++ more)) cell (cell.set key (.map out))
            rw [getD_some, lay]
            exact (SaysAll.mono hkept _ _ hcell).set (Says.mono hnew _ _ hout)
          | _ => exact htells.elim
    | _ => exact hheld.elim

theorem grows_foldlM (aside : Nat → Prop) {wanted : Cell} (haside : aside before.length)
    (hmerge : ∀ key ws, (key, .obj ws) ∈ want → ∀ cell tail,
      Merges aside (before ++ cell :: tail) merge ws)
    (hcell : SaysAll aside (before ++ cell :: tail) cell live)
    (hwant : SaysAll aside (before ++ cell :: tail) wanted want) :
    Extends aside before tail (wanted.foldlM (layAt merge before.length) (before ++ cell :: tail))
      (mergeSpec live want) := by
  induction wanted generalizing want live cell tail with
  | nil => cases want with
    | nil => exact ⟨cell, tail, prefix_rfl, rfl, hcell⟩
    | cons => exact hwant.elim
  | cons first wanted ih => cases want with
    | nil => exact hwant.elim
    | cons field want =>
      obtain ⟨key, held⟩ := first
      obtain ⟨name, value⟩ := field
      obtain ⟨rfl, hheld, hrest⟩ := hwant
      obtain ⟨cell', tail', htail, hrun, hcell'⟩ := grows_layAt haside hcell hheld
        fun ws hws => hmerge _ ws (by rw [← hws]; exact mem_cons_self) cell tail
      rw [foldlM_cons, hrun]
      obtain ⟨last, all, hall, hrun', hlast⟩ := ih
        (fun name ws hws => hmerge name ws (mem_cons_of_mem _ hws)) hcell'
        (SaysAll.mono (grown haside htail cell cell') _ _ hrest)
      exact ⟨last, all, htail.trans hall, hrun', hlast⟩

theorem merges_mergeSpecAt (haside : ∀ a, aside a → a < heap.length)
    (hfuel : sizeOf want < fuel) : Merges aside heap (mergeSpecAt fuel) want := by
  induction fuel generalizing aside heap want with
  | zero => omega
  | succ fuel ih =>
    intro l w live hlive hwant
    obtain ⟨-, copied, hcopied, hlive⟩ := hlive
    obtain ⟨-, wanted, hwanted, hwant⟩ := hwant
    let aside' := fun a => aside a ∨ a = heap.length
    have hfresh (a : Nat) (cell : Cell) (ha : ¬ aside a) (hcell : heap[a]? = some cell) :
        ¬ aside' a ∧ (heap ++ [copied])[a]? = some cell := by
      have hlt := (List.getElem?_eq_some_iff.mp hcell).1
      refine ⟨fun h => h.elim ha (by omega), ?_⟩
      rw [List.getElem?_append_left hlt, hcell]
    have hunder (key : String) (ws : Fields) (hmem : (key, .obj ws) ∈ want) (cell : Cell)
        (tail : Heap) : Merges aside' (heap ++ cell :: tail) (mergeSpecAt fuel) ws := by
      apply ih
      · rintro a (ha | rfl)
        · have hlt := haside a ha
          simp; omega
        · simp
      · have hsize := sizeOf_lt_of_mem hmem
        simp only [Prod.mk.sizeOf_spec, Json.obj.sizeOf_spec] at hsize
        omega
    obtain ⟨cell, tail, -, hrun, hcell⟩ := grows_foldlM aside' (.inr rfl) hunder
      (SaysAll.mono hfresh _ _ hlive) (SaysAll.mono hfresh _ _ hwant)
    refine ⟨heap.length, cell :: tail, ?_, fun h => absurd (haside _ h) (by omega), cell,
      by simp, SaysAll.mono (fun a found ha hfound => ⟨fun h => ha (.inl h), hfound⟩) _ _ hcell⟩
    simp only [mergeSpecAt, hcopied, hwanted, bind_eq_bind, bind_some, hrun]
    rfl

end Heap

/-- What it is for: all that is wanted is there, all else is kept, and no more is written. -/
structure Lays (live want : Fields) : Prop where
  contained : Contained (.obj want) (.obj (mergeSpec live want))
  kept : ∀ path value, valueAt path (.obj live) = some value → Spared (.obj want) path →
    valueAt path (.obj (mergeSpec live want)) = some value
  again : Alike (.obj (mergeSpec (mergeSpec live want) want)) (.obj (mergeSpec live want))
  rests : Alike (.obj (mergeSpec live want)) (.obj live) ↔ Contained (.obj want) (.obj live)
  unchanged : ∀ (heap : Heap) l w fuel, Says (fun _ => False) heap (.map l) (.obj live) →
    Says (fun _ => False) heap (.map w) (.obj want) → sizeOf want < fuel →
      ∃ out heap', mergeSpecAt fuel l w heap = some (out, heap') ∧ heap <+: heap' ∧
        Says (fun _ => False) heap' (.map out) (.obj (mergeSpec live want))

theorem lays {live want : Fields} (h : Distinct want) : Lays live want := by
  have hvalue (fields : Fields) (hfields : Json.obj want = .obj fields) : Distinct fields := by
    obtain rfl := Json.obj.inj hfields
    exact h
  have hcontained : Contained (.obj want) (.obj (mergeSpec live want)) := by
    have hlay := contained_lay (.obj live) hvalue
    rwa [lay] at hlay
  have hrests (fields : Fields) (hfields : Contained (.obj want) (.obj fields)) :
      Alike (.obj (mergeSpec fields want)) (.obj fields) := by
    have hlay := alike_lay hvalue hfields
    rwa [lay] at hlay
  exact {
    contained := hcontained
    kept := fun path value hvalue hspared => kept_mergeSpec h hvalue hspared
    again := hrests _ hcontained
    rests := ⟨hcontained.congr, hrests live⟩
    unchanged := by
      intro heap l w fuel hlive hwant hfuel
      obtain ⟨out, more, hrun, htells⟩ := merges_mergeSpecAt (by simp) hfuel l w live hlive hwant
      exact ⟨out, heap ++ more, hrun, heap.prefix_append more, htells⟩ }

/-- A default is kept beside what is rendered, and a list is replaced. -/
theorem lays_values : Lays [("values", .obj [("a", .num 1), ("b", .arr [.num 2])])]
    [("values", .obj [("b", .arr [])])] :=
  lays (distinct_nil.setField fun _ hvalue => by
    obtain rfl := Json.obj.inj hvalue
    exact distinct_nil.setField fun _ hlist => by contradiction)

end Addons
