import Mathlib.Order.Lattice
import Mathlib.Tactic.Basic

/-!
# One pass that keeps the votes of the highest rank

A tally starts at a floor and reads votes in any order. A vote below the best
rank seen is ignored, one above it forgets everything recorded so far, and one
at the best rank is recorded for its side. What a side holds at the end is a
property of the votes as a set: it has a vote that no other vote outranks.
-/

namespace Ranking

variable {α : Type*}

/-- One vote: its rank, and whether it is against. -/
structure Vote (α : Type*) where
  rank : α
  against : Bool

/-- The best rank so far and the sides that voted at it. -/
structure Tally (α : Type*) where
  best : α
  pro : Bool
  con : Bool

variable {v : Vote α} {votes : List (Vote α)}

namespace Tally

/-- Nothing recorded yet, at a floor below which votes do not count. -/
def start (floor : α) : Tally α := ⟨floor, false, false⟩

/-- Whether a side is recorded; the side against is `true`. -/
def seen (t : Tally α) (side : Bool) : Bool := if side then t.con else t.pro

variable [LinearOrder α]

/-- Count one vote. -/
def cast (t : Tally α) (v : Vote α) : Tally α :=
  if v.rank < t.best then t
  else
    let t := if t.best < v.rank then start v.rank else t
    if v.against then { t with con := true } else { t with pro := true }

theorem cast_of_lt {t : Tally α} (h : v.rank < t.best) : t.cast v = t := by
  simp [cast, h]

theorem best_cast (t : Tally α) (v : Vote α) (h : ¬ v.rank < t.best) :
    (t.cast v).best = v.rank := by
  obtain hlt | heq := lt_or_eq_of_le (not_lt.mp h)
  · cases hv : v.against <;> simp [cast, start, h, hlt, hv]
  · cases hv : v.against <;> simp [cast, heq, hv]

theorem seen_cast (t : Tally α) (v : Vote α) (side : Bool) (h : ¬ v.rank < t.best) :
    (t.cast v).seen side = true ↔
      v.against = side ∨ (v.rank = t.best ∧ t.seen side = true) := by
  obtain hlt | heq := lt_or_eq_of_le (not_lt.mp h)
  · have hne : v.rank ≠ t.best := ne_of_gt hlt
    cases side <;> cases hv : v.against <;> simp [cast, seen, start, h, hlt, hne, hv]
  · cases side <;> cases hv : v.against <;> simp [cast, seen, heq, hv]

end Tally

variable [LinearOrder α]

/-- A side has a vote at or above the floor that no vote outranks. -/
def Decisive (votes : List (Vote α)) (floor : α) (side : Bool) : Prop :=
  ∃ v ∈ votes, v.against = side ∧ floor ≤ v.rank ∧ ∀ u ∈ votes, u.rank ≤ v.rank

theorem exists_top (hne : votes ≠ []) : ∃ v ∈ votes, ∀ u ∈ votes, u.rank ≤ v.rank := by
  induction votes with
  | nil => exact absurd rfl hne
  | cons v votes ih =>
    by_cases hvotes : votes = []
    · exact ⟨v, by simp, by simp [hvotes]⟩
    · obtain ⟨top, hmem, htop⟩ := ih hvotes
      obtain hle | hle := le_total top.rank v.rank
      · refine ⟨v, by simp, List.forall_mem_cons.mpr ⟨le_rfl, fun u hu => ?_⟩⟩
        exact (htop u hu).trans hle
      · exact ⟨top, by simp [hmem], List.forall_mem_cons.mpr ⟨hle, htop⟩⟩

/-- As soon as one vote reaches the floor some side has an unsurpassed one. -/
theorem exists_decisive {floor : α} (hmem : v ∈ votes) (hfloor : floor ≤ v.rank) :
    ∃ side, Decisive votes floor side := by
  obtain ⟨top, htop, hall⟩ := exists_top (List.ne_nil_of_mem hmem)
  exact ⟨top.against, top, htop, rfl, hfloor.trans (hall v hmem), hall⟩

/-- A whole pass, from any tally: a side is recorded if it was and nothing
outranks it, or if it has an unsurpassed vote. -/
theorem seen_foldl (votes : List (Vote α)) (t : Tally α) (side : Bool) :
    (votes.foldl Tally.cast t).seen side = true ↔
      (t.seen side = true ∧ ∀ u ∈ votes, u.rank ≤ t.best) ∨ Decisive votes t.best side := by
  induction votes generalizing t with
  | nil => simp [Decisive]
  | cons v votes ih =>
    rw [List.foldl_cons, ih]
    by_cases hlt : v.rank < t.best
    · rw [Tally.cast_of_lt hlt]
      simp only [Decisive, List.mem_cons, forall_eq_or_imp, exists_eq_or_imp, hlt.le,
        not_le.mpr hlt, true_and, false_and, and_false, false_or]
      refine or_congr_right (exists_congr fun u => and_congr_right fun _ =>
        and_congr_right fun _ => and_congr_right fun hu => ?_)
      simp [hlt.le.trans hu]
    · have hle : t.best ≤ v.rank := not_lt.mp hlt
      simp only [Tally.seen_cast t v side hlt, Tally.best_cast t v hlt, Decisive,
        List.mem_cons, forall_eq_or_imp, exists_eq_or_imp, hle, le_refl, true_and]
      constructor
      · rintro (⟨hv | ⟨heq, hs⟩, hall⟩ | ⟨u, hu, hside, hvu, hall⟩)
        · exact .inr (.inl ⟨hv, hall⟩)
        · exact .inl ⟨hs, heq.le, fun u hu => heq ▸ hall u hu⟩
        · exact .inr (.inr ⟨u, hu, hside, hle.trans hvu, hvu, hall⟩)
      · rintro (⟨hs, hvt, hall⟩ | ⟨hv, hall⟩ | ⟨u, hu, hside, -, hvu, hall⟩)
        · have heq : v.rank = t.best := le_antisymm hvt hle
          exact .inl ⟨.inr ⟨heq, hs⟩, fun u hu => heq ▸ hall u hu⟩
        · exact .inl ⟨.inl hv, hall⟩
        · exact .inr ⟨u, hu, hside, hvu, hall⟩

/-- From the start only unsurpassed votes are recorded. -/
theorem seen_foldl_start (votes : List (Vote α)) (floor : α) (side : Bool) :
    (votes.foldl Tally.cast (Tally.start floor)).seen side = true ↔
      Decisive votes floor side := by
  rw [seen_foldl]
  simp [Tally.start, Tally.seen]

end Ranking
