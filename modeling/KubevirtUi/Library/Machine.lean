import Mathlib.Data.Nat.Notation
import Mathlib.Tactic.Basic

/-!
# Runs of a machine

A machine takes the steps that its inputs allow. A run under a condition takes only steps
that meet it in the state they are taken from, and what each such step keeps, the run
keeps. A list of inputs that is checked on the way is a run.
-/

namespace Machine

variable {σ ι : Type*} {step : σ → ι → Option σ} {cond : σ → ι → Prop} {s t : σ}

/-- A run whose steps all meet the condition. -/
inductive Run (step : σ → ι → Option σ) (cond : σ → ι → Prop) (s : σ) : σ → Prop where
  | refl : Run step cond s s
  | step {t u : σ} {i : ι} : Run step cond s t → cond t i → step t i = some u → Run step cond s u

/-- What every step under the condition keeps holds wherever a run leads. -/
theorem Run.invariant {P : σ → Prop} (hstart : P s)
    (hstep : ∀ {t u i}, P t → cond t i → step t i = some u → P u)
    (h : Run step cond s t) : P t := by
  induction h with
  | refl => exact hstart
  | step _ hcond hnext ih => exact hstep ih hcond hnext

theorem Run.mono {cond' : σ → ι → Prop} (h : Run step cond s t)
    (himp : ∀ u i, cond u i → cond' u i) : Run step cond' s t := by
  induction h with
  | refl => exact .refl
  | step _ hcond hnext ih => exact .step ih (himp _ _ hcond) hnext

/-- Take the inputs one after the other, each only if it meets the condition. -/
def play (step : σ → ι → Option σ) (cond : σ → ι → Prop) [∀ s, DecidablePred (cond s)] (s : σ) :
    List ι → Option σ
  | [] => some s
  | i :: inputs => if cond s i then (step s i).bind fun t => play step cond t inputs else none

theorem run_of_play [∀ s, DecidablePred (cond s)] {inputs : List ι} {u : σ}
    (hrun : Run step cond s t) (h : play step cond t inputs = some u) : Run step cond s u := by
  induction inputs generalizing t with
  | nil =>
    obtain rfl := Option.some.inj h
    exact hrun
  | cons i inputs ih =>
    rw [play] at h
    split at h
    · next hcond =>
      obtain ⟨v, hstep, hrest⟩ := Option.bind_eq_some_iff.mp h
      exact ih (.step hrun hcond hstep) hrest
    · contradiction

theorem exists_run_of_play [∀ s, DecidablePred (cond s)] (inputs : List ι) {p : σ → Bool}
    (h : (play step cond s inputs).any p = true) : ∃ t, Run step cond s t ∧ p t = true := by
  obtain ⟨t, ht, hp⟩ := (Option.any_eq_true p (play step cond s inputs)).mp h
  exact ⟨t, run_of_play .refl ht, hp⟩

/-- No step leads anywhere else. -/
def Rests (step : σ → ι → Option σ) (s : σ) : Prop := ∀ i t, step s i = some t → t = s

theorem Run.eq_of_rests (hrest : Rests step s) (h : Run step cond s t) : t = s := by
  apply h.invariant (P := fun t => t = s) rfl
  intro t u i ht _ hstep
  subst ht
  exact hrest i u hstep

/-- Where every first step leads to rest, a run is at its start or at rest. -/
theorem Run.eq_or_rests (hfirst : ∀ i t, step s i = some t → Rests step t)
    (h : Run step cond s t) : t = s ∨ Rests step t := by
  apply h.invariant (P := fun t => t = s ∨ Rests step t) (.inl rfl)
  intro t u i ht _ hstep
  obtain rfl | hrest := ht
  · exact .inr (hfirst i u hstep)
  · obtain rfl := hrest i u hstep
    exact .inr hrest

end Machine
