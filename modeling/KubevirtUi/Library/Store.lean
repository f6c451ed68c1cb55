import Mathlib.Data.List.AList

/-!
# A store with optimistic concurrency

Objects by name, each with the version it was last written under. Versions come
from one clock and every write takes a new one, so a version tells an object
apart from everything it was before and will be later. Whoever has read an object
knows it as long as the version it finds is the version it read.
-/

/-- An object and the version it was last written under. -/
structure Versioned (α : Type) where
  version : Nat
  value : α
  deriving DecidableEq

/-- Objects by name. -/
abbrev Store (α : Type) := AList fun _ : String => Versioned α

namespace Store

variable {α : Type} {s : Store α} {clock : Nat} {name other : String} {x y : Versioned α}

/-- No version lies ahead of the clock. -/
def Timely (s : Store α) (clock : Nat) : Prop :=
  ∀ name x, s.lookup name = some x → x.version ≤ clock

/-- Nothing else has ever had this version: what is found under it is this object. -/
def Known (s : Store α) (clock : Nat) (name : String) (x : Versioned α) : Prop :=
  x.version ≤ clock ∧ ∀ y, s.lookup name = some y → y.version = x.version → y = x

theorem timely_empty : Timely (∅ : Store α) clock := by
  intro name x h
  simp at h

theorem Timely.known (h : s.Timely clock) (hx : s.lookup name = some x) : s.Known clock name x := by
  refine ⟨h name x hx, fun y hy _ => ?_⟩
  exact Option.mem_unique hy hx

theorem Timely.tick (h : s.Timely clock) : s.Timely (clock + 1) :=
  fun name x hx => Nat.le_succ_of_le (h name x hx)

theorem Timely.insert (h : s.Timely clock) (value : α) :
    Timely (s.insert name ⟨clock + 1, value⟩) (clock + 1) := by
  intro other x hx
  by_cases hname : other = name
  · subst hname
    rw [AList.lookup_insert, Option.some.injEq] at hx
    rw [← hx]
  · rw [AList.lookup_insert_ne hname] at hx
    exact Nat.le_succ_of_le (h other x hx)

theorem lookup_of_erase (h : (s.erase other).lookup name = some x) : s.lookup name = some x := by
  by_cases hname : name = other
  · subst hname
    simp at h
  · rwa [AList.lookup_erase_ne hname] at h

theorem Timely.erase (h : s.Timely clock) : Timely (s.erase name) clock :=
  fun other x hx => h other x (lookup_of_erase hx)

theorem Known.tick (h : s.Known clock name x) : s.Known (clock + 1) name x :=
  ⟨Nat.le_succ_of_le h.1, h.2⟩

theorem Known.insert (h : s.Known clock name x) (value : α) :
    Known (s.insert other ⟨clock + 1, value⟩) (clock + 1) name x := by
  refine ⟨Nat.le_succ_of_le h.1, fun y hy hversion => ?_⟩
  by_cases hname : name = other
  · subst hname
    rw [AList.lookup_insert, Option.some.injEq] at hy
    have hle := h.1
    rw [← hversion, ← hy] at hle
    exact absurd hle (Nat.not_succ_le_self clock)
  · rw [AList.lookup_insert_ne hname] at hy
    exact h.2 y hy hversion

theorem Known.erase (h : s.Known clock name x) : Known (s.erase other) clock name x :=
  ⟨h.1, fun y hy => h.2 y (lookup_of_erase hy)⟩

end Store
