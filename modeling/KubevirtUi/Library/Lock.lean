import Mathlib.Tactic.ByContra

/-!
# A lock, by its log

The log of a lock has who took it and who freed it, the latest first. It is orderly if nobody
but its holder has done anything to a lock that was held. In such a log two takings by different
clients have a freeing by the first of them in between.
-/

namespace Lock

variable {κ : Type*}

inductive Event (κ : Type*) where
  | taken (client : κ)
  | released (client : κ)
  deriving DecidableEq

def Event.client : Event κ → κ
  | .taken client => client
  | .released client => client

/-- Who has taken the lock last, if it has not been freed since. -/
def holder : List (Event κ) → Option κ
  | .taken client :: _ => some client
  | _ => none

/-- While the lock is held, only its holder takes it again or frees it. -/
def Orderly : List (Event κ) → Prop
  | [] => True
  | e :: log => (∀ client, holder log = some client → e.client = client) ∧ Orderly log

namespace Orderly

variable {later between earlier : List (Event κ)} {client other : κ}

theorem of_append (h : Orderly (later ++ earlier)) : Orderly earlier := by
  induction later with
  | nil => exact h
  | cons e later ih => exact ih h.2

/-- A lock that its holder has not freed is still held. -/
theorem holder_append (h : Orderly (between ++ .taken client :: earlier))
    (hheld : .released client ∉ between) :
    holder (between ++ .taken client :: earlier) = some client := by
  induction between with
  | nil => rfl
  | cons e between ih =>
    rw [List.mem_cons, not_or] at hheld
    have hclient := h.1 client (ih h.2 hheld.2)
    cases e with
    | taken other =>
      obtain rfl : other = client := hclient
      rfl
    | released other =>
      obtain rfl : other = client := hclient
      exact absurd rfl hheld.1

/-- Two clients that have taken the lock, one after the other: the first has freed it. -/
theorem released_between
    (h : Orderly (later ++ .taken other :: (between ++ .taken client :: earlier)))
    (hne : other ≠ client) : .released client ∈ between := by
  by_contra hheld
  have htail := h.of_append
  exact hne (htail.1 client (htail.2.holder_append hheld))

theorem eq_of_released
    (h : Orderly (later ++ .released other :: (between ++ .taken client :: earlier)))
    (hheld : .released client ∉ between) : other = client :=
  h.of_append.1 client (h.of_append.2.holder_append hheld)

end Orderly

end Lock
