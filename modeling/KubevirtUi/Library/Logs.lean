import Mathlib.Data.List.Nodup
import Mathlib.Data.List.Induction

/-!
# Logs that many clients write

A log only grows, and a client knows which of its entries are its own: what the others
add does not change them. What a log amounts to is what its entries do to a state one
after the other. Where each entry that matters does what the edit of its client does, and
no client has two such entries, that is the edits themselves, one after the other.
-/

namespace Logs

open List

variable {ε ι σ : Type*} [DecidableEq ι] (owner : ε → Option ι)

/-- The entries of one client. -/
def mine (i : ι) (log : List ε) : List ε := log.filter fun e => owner e = some i

/-- What others do to a log: they add entries of their own. -/
def Extends (i : ι) (log log' : List ε) : Prop :=
  ∃ more, log' = log ++ more ∧ ∀ e ∈ more, owner e ≠ some i

variable {owner} {i : ι} {log log' : List ε} {e : ε}

omit [DecidableEq ι] in
theorem Extends.refl (i : ι) (log : List ε) : Extends owner i log log := ⟨[], by simp, by simp⟩

omit [DecidableEq ι] in
theorem extends_concat (h : owner e ≠ some i) : Extends owner i log (log ++ [e]) :=
  ⟨[e], rfl, by simpa using h⟩

omit [DecidableEq ι] in
/-- What a log with one more entry begins with is all of it, or the log begins with it too. -/
theorem last_or_before {before : List ε} {e' : ε} (h : before ++ [e] <+: log ++ [e']) :
    before = log ∧ e = e' ∨ before ++ [e] <+: log := by
  obtain heq | hpre := prefix_concat_iff.mp h
  · obtain ⟨hbefore, hlast⟩ := append_inj' heq rfl
    exact .inl ⟨hbefore, singleton_inj.mp hlast⟩
  · exact .inr hpre

theorem Extends.mine (h : Extends owner i log log') : mine owner i log' = mine owner i log := by
  obtain ⟨more, rfl, hmore⟩ := h
  have hnone : more.filter (fun e => owner e = some i) = [] :=
    filter_eq_nil_iff.mpr fun e he => by simpa using hmore e he
  rw [Logs.mine, filter_append, hnone, append_nil]
  rfl

omit [DecidableEq ι] in
theorem Extends.mem (h : Extends owner i log log') (he : e ∈ log) : e ∈ log' := by
  obtain ⟨more, rfl, -⟩ := h
  exact mem_append_left more he

omit [DecidableEq ι] in
theorem Extends.mem_iff (h : Extends owner i log log') (howner : owner e = some i) :
    e ∈ log' ↔ e ∈ log := by
  obtain ⟨more, rfl, hmore⟩ := h
  exact ⟨fun he => (mem_append.mp he).resolve_right fun hm => hmore e hm howner,
    mem_append_left more⟩

theorem mine_concat_self (h : owner e = some i) :
    mine owner i (log ++ [e]) = mine owner i log ++ [e] := by
  simp [mine, h]

theorem mine_concat_of_ne (h : owner e ≠ some i) : mine owner i (log ++ [e]) = mine owner i log :=
  (extends_concat h).mine

theorem mem_mine : e ∈ mine owner i log ↔ e ∈ log ∧ owner e = some i := by
  simp [mine]

omit [DecidableEq ι] in
/-- What stands before an entry of a longer log stands before it in the log, unless it is last. -/
theorem split_concat {x : ε} {before after : List ε} (h : log ++ [e] = before ++ x :: after) :
    (before = log ∧ x = e ∧ after = []) ∨
      ∃ after', after = after' ++ [e] ∧ log = before ++ x :: after' := by
  obtain rfl | ⟨after', last, rfl⟩ := after.eq_nil_or_concat'
  · obtain ⟨rfl, hlast⟩ := append_inj' h rfl
    exact .inl ⟨rfl, (List.cons.inj hlast).1.symm, rfl⟩
  · rw [← cons_append, ← append_assoc] at h
    obtain ⟨rfl, hlast⟩ := append_inj' h rfl
    obtain rfl := (List.cons.inj hlast).1
    exact .inr ⟨after', rfl, rfl⟩

section Since

variable {β : Type*} {mark : ε → Option β} {b : β} {more : List ε}

omit [DecidableEq ι]

/-- What the first entry with a mark says, and what has come after it. -/
def since (mark : ε → Option β) : List ε → Option (β × List ε)
  | [] => none
  | e :: log =>
    match mark e with
    | some b => some (b, log)
    | none => since mark log

theorem since_append (h : since mark log = some (b, more)) (new : List ε) :
    since mark (log ++ new) = some (b, more ++ new) := by
  induction log with
  | nil => cases h
  | cons e log ih =>
    rw [cons_append, since]
    rw [since] at h
    split
    · next b' hmark =>
      simp only [hmark, Option.some.injEq, Prod.mk.injEq] at h
      rw [h.1, h.2]
    · next hmark =>
      simp only [hmark] at h
      exact ih h

theorem since_append_of_none (h : since mark log = none) (new : List ε) :
    since mark (log ++ new) = since mark new := by
  induction log with
  | nil => rfl
  | cons e log ih =>
    rw [since] at h
    rw [cons_append, since]
    split
    · next b hmark => simp [hmark] at h
    · next hmark =>
      simp only [hmark] at h
      exact ih h

theorem since_eq_none_iff : since mark log = none ↔ ∀ e ∈ log, mark e = none := by
  induction log with
  | nil => simp [since]
  | cons e log ih => cases hmark : mark e <;> simp [since, hmark, ih]

theorem exists_mem_of_since (h : since mark log = some (b, more)) : ∃ e ∈ log, mark e = some b := by
  induction log with
  | nil => cases h
  | cons e log ih =>
    rw [since] at h
    split at h
    · next b' hmark =>
      obtain ⟨rfl, -⟩ := Prod.mk.inj (Option.some.inj h)
      exact ⟨e, mem_cons_self, hmark⟩
    · obtain ⟨e', he', hmark⟩ := ih h
      exact ⟨e', mem_cons_of_mem e he', hmark⟩

end Since

section Points

variable {point : ε → Option ι} {step : σ → ε → σ} {edit : ι → σ → σ} {init : σ}

omit [DecidableEq ι] in
/-- Entry by entry, the log does what the edits of its points do. -/
theorem foldl_eq_edits (h : ∀ before e, before ++ [e] <+: log →
    step (before.foldl step init) e = (point e).elim id edit (before.foldl step init)) :
    log.foldl step init = (log.filterMap point).foldl (fun s i => edit i s) init := by
  induction log using List.reverseRecOn with
  | nil => rfl
  | append_singleton log e ih =>
    have hlog := ih fun before x hx => h before x (hx.trans (prefix_append log [e]))
    have hlast := h log e (prefix_refl _)
    rw [foldl_append, foldl_cons, foldl_nil, hlast, hlog, filterMap_append, foldl_append]
    cases hpoint : point e <;> simp [hpoint]

/-- No client has two points if none has two among its own entries. -/
theorem nodup_points (howner : ∀ e i, point e = some i → owner e = some i)
    (h : ∀ i, ((mine owner i log).filterMap point).length ≤ 1) : (log.filterMap point).Nodup := by
  refine nodup_iff_count_le_one.mpr fun i => Nat.le_trans (Nat.le_of_eq ?_) (h i)
  clear h
  induction log with
  | nil => rfl
  | cons e log ih =>
    by_cases he : owner e = some i
    · cases hpoint : point e with
      | none => simpa [mine, he, hpoint] using ih
      | some j =>
        obtain rfl : j = i := Option.mem_unique (howner e j hpoint) he
        simpa [mine, he, hpoint] using ih
    · cases hpoint : point e with
      | none => simpa [mine, he, hpoint] using ih
      | some j =>
        have hji : j ≠ i := fun hji => he (hji ▸ howner e j hpoint)
        simpa [mine, he, hpoint, count_cons, hji] using ih

end Points

end Logs
