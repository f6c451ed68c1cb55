import Mathlib.Data.List.Basic

/-!
# Writes that can be cut

Writes are made one after the other, and may stop after any of them. What is there then is what a
prefix of the list leaves.
-/

namespace Cuts

variable {σ ω : Type*} {apply : σ → ω → σ} {P : σ → Prop} {s : σ} {write : ω} {writes : List ω}

/-- Wherever the writes stop, `P` holds. -/
def Throughout (apply : σ → ω → σ) (P : σ → Prop) (s : σ) (writes : List ω) : Prop :=
  ∀ n, P ((writes.take n).foldl apply s)

theorem Throughout.nil (h : P s) : Throughout apply P s [] := by
  intro n
  rw [List.take_nil]
  exact h

theorem Throughout.cons (h : P s) (hrest : Throughout apply P (apply s write) writes) :
    Throughout apply P s (write :: writes) := by
  intro n
  cases n with
  | zero => exact h
  | succ n => exact hrest n

theorem Throughout.ite_append {p : Prop} [Decidable p]
    (hmade : p → Throughout apply P s (write :: writes))
    (hnot : ¬ p → Throughout apply P s writes) :
    Throughout apply P s ((if p then [write] else []) ++ writes) := by
  split
  · next h => exact hmade h
  · next h => exact hnot h

end Cuts
