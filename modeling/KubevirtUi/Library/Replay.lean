import Mathlib.Data.List.Basic

/-!
# The states a log goes through

A log that only grows has a state at each of its versions, the one its first entries
amount to; an entry may depend on the version it makes. What is appended changes no
earlier state, and entries that do nothing pass the state on.
-/

namespace Replay

variable {α σ : Type*} (apply : Nat → σ → α → σ) (init : σ)

/-- The state at a version. -/
def upto (log : List α) : Nat → σ
  | 0 => init
  | n + 1 =>
    match log[n]? with
    | some e => apply (n + 1) (upto log n) e
    | none => upto log n

variable {apply init} {log : List α} {n m : Nat} {e : α}

theorem upto_succ (h : log[n]? = some e) :
    upto apply init log (n + 1) = apply (n + 1) (upto apply init log n) e := by
  rw [upto, h]

theorem upto_append (h : n ≤ log.length) (more : List α) :
    upto apply init (log ++ more) n = upto apply init log n := by
  induction n with
  | zero => rfl
  | succ n ih =>
    have hlt : n < log.length := h
    have hentry : log[n]? = some log[n] := List.getElem?_eq_getElem hlt
    have hentry' : (log ++ more)[n]? = some log[n] := by
      rw [List.getElem?_append_left hlt, hentry]
    rw [upto_succ hentry, upto_succ hentry', ih (Nat.le_of_lt hlt)]

theorem upto_eq_of_idle (hnm : n ≤ m) (h : ∀ i e, n ≤ i → log[i]? = some e →
      apply (i + 1) (upto apply init log i) e = upto apply init log i) :
    upto apply init log m = upto apply init log n := by
  induction hnm with
  | refl => rfl
  | @step m hnm ih =>
    cases hentry : log[m]? with
    | none => rw [← ih, upto, hentry]
    | some e => rw [upto_succ hentry, h m e hnm hentry, ih]

end Replay
