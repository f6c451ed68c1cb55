import Mathlib.Data.List.Basic

/-!
# Sweeping over intervals

Intervals of counters are given by their first and last one. Where they are sorted by the first
one, a single pass decides whether they cover an interval: it keeps the first counter that is
not yet known to be covered.
-/

namespace Intervals

/-- Some interval has the counter. -/
def Spanned (spans : List (ℕ × ℕ)) (x : ℕ) : Prop := ∃ span ∈ spans, span.1 ≤ x ∧ x ≤ span.2

/-- Whether all counters from one to another are covered. -/
def sweep (low high : ℕ) : List (ℕ × ℕ) → Bool
  | [] => high < low
  | (first, last) :: spans =>
    if low < first then high < low
    else if high ≤ last then true
    else sweep (if low ≤ last then last + 1 else low) high spans

section Sweep

variable {low high x : ℕ} {first last : ℕ} {span : ℕ × ℕ} {spans : List (ℕ × ℕ)}

theorem spanned_cons : Spanned (span :: spans) x ↔ span.1 ≤ x ∧ x ≤ span.2 ∨ Spanned spans x := by
  rw [Spanned, List.exists_mem_cons_iff]
  exact Iff.rfl

theorem not_spanned_of_lt (hspans : ∀ span ∈ spans, first ≤ span.1) (hx : x < first) :
    ¬Spanned spans x := by
  rintro ⟨span, hspan, hle, -⟩
  have hfirst := hspans span hspan
  omega

theorem sweep_iff (hspans : spans.Pairwise fun s t => s.1 ≤ t.1) :
    sweep low high spans = true ↔ ∀ x, low ≤ x → x ≤ high → Spanned spans x := by
  induction spans generalizing low with
  | nil =>
    rw [sweep, decide_eq_true_iff]
    constructor
    · intro hlt x hlow hhigh
      omega
    · intro h
      by_contra hle
      obtain ⟨span, hspan, -⟩ := h low (Nat.le_refl low) (by omega)
      contradiction
  | cons span spans ih =>
    obtain ⟨first, last⟩ := span
    obtain ⟨hfirst, hrest⟩ := List.pairwise_cons.mp hspans
    rw [sweep]
    split
    · next hgap =>
      rw [decide_eq_true_iff]
      constructor
      · intro hlt x hlow hhigh
        omega
      · intro h
        by_contra hle
        have hlow := h low (Nat.le_refl low) (by omega)
        obtain hin | hlater := spanned_cons.mp hlow
        · omega
        · exact not_spanned_of_lt hfirst hgap hlater
    · next hstart =>
      split
      · next hend =>
        refine iff_of_true rfl fun x hlow hhigh => spanned_cons.mpr (.inl ?_)
        omega
      · next hend =>
        -- What is covered by this interval alone lies below the next low end.
        rw [ih hrest]
        constructor
        · intro h x hlow hhigh
          by_cases hin : x ≤ last
          · exact spanned_cons.mpr (.inl ⟨by omega, hin⟩)
          · refine spanned_cons.mpr (.inr (h x ?_ hhigh))
            split
            · omega
            · exact hlow
        · intro h x hlow hhigh
          have hbeyond : low ≤ x ∧ ¬x ≤ last := by
            split at hlow
            · omega
            · omega
          exact (spanned_cons.mp (h x hbeyond.1 hhigh)).resolve_left fun hin => hbeyond.2 hin.2

end Sweep

end Intervals
