import KubevirtUi.Library.Interference
import Mathlib.Logic.Function.Basic

/-!
# Many programs that share a world

Any number of clients each work through a program of requests, and the world answers
one request of one client at a time. What a client may rely on is what the others
are held to: a client is safe if every request that it makes is within its own
guarantee as long as all others keep to what it relies on.

From safe clients an induction over runs follows: every step of a run is within
somebody's guarantee, whatever the order in which the clients take their turns, and
what a client returns is as promised.
-/

namespace Interference

open Option

section Change

variable {World Req : Type} {Resp : Req → Type} {α : Type}

/-- A change that keeps the invariant and is within what is relied on. -/
def Change (inv : World → Prop) (rely : World → World → Prop) : Type :=
  { f : World → World // ∀ w, inv w → inv (f w) ∧ rely w (f w) }

variable {inv : World → Prop} {rely : World → World → Prop}

/-- Others make their changes. -/
def interfere (inv : World → Prop) (rely : World → World → Prop) (c : Change inv rely)
    (w : World) : World := c.1 w

theorem Change.keeps (c : Change inv rely) (w : World) (h : inv w) : inv (interfere inv rely c w) :=
  (c.2 w h).1

open Classical in
theorem later_of_rely (hrefl : ∀ w, rely w w) {w v : World} (hinv : inv v) (h : rely w v) :
    Later (interfere inv rely) w v := by
  refine .single ⟨⟨fun u => if u = w then v else u, fun u hu => ?_⟩, (if_pos rfl).symm⟩
  by_cases huw : u = w
  · subst huw
    simp only [if_true]
    exact ⟨hinv, h⟩
  · simp only [huw, if_false]
    exact ⟨hu, hrefl u⟩

theorem stable_of_rely {P : World → Prop} (h : ∀ w v, inv w → inv v → rely w v → P w → P v) :
    Stable (interfere inv rely) inv P :=
  fun c w hinv hP => h w (interfere inv rely c w) hinv (c.keeps w hinv) (c.2 w hinv).2 hP

end Change

section Lasts

variable {World : Type} {inv : World → Prop} {rely : World → World → Prop} {P Q : World → Prop}

/-- What nobody else makes false. -/
def Lasts (inv : World → Prop) (rely : World → World → Prop) (P : World → Prop) : Prop :=
  ∀ w v, inv w → inv v → rely w v → P w → P v

theorem Lasts.and (hP : Lasts inv rely P) (hQ : Lasts inv rely Q) :
    Lasts inv rely fun w => P w ∧ Q w :=
  fun w v hw hv h hPQ => ⟨hP w v hw hv h hPQ.1, hQ w v hw hv h hPQ.2⟩

theorem lasts_const (p : Prop) : Lasts inv rely fun _ => p := fun _ _ _ _ _ h => h

end Lasts

section Does

variable {World Req : Type} {Resp : Req → Type} {Fault α β : Type}

/-- A program that keeps to its guarantee as long as the others are within what it relies
on, and what it achieves. -/
abbrev Does (serve : Fault → World → (r : Req) → Resp r × World) (inv : World → Prop)
    (rely guar : World → World → Prop) (P : World → Prop) (p : Program Req Resp α)
    (Q : α → World → Prop) : Prop :=
  Triple serve (interfere inv rely) inv (fun w _ v => guar w v) P p Q

variable {serve : Fault → World → (r : Req) → Resp r × World} {inv : World → Prop}
  {rely guar : World → World → Prop} {P : World → Prop}

variable {Q : α → World → Prop} {p : Program Req Resp α}

theorem Does.pure {a : α} (hP : Lasts inv rely P) (h : ∀ w, P w → Q a w) :
    Does serve inv rely guar P (Pure.pure a : Program Req Resp α) Q :=
  Triple.pure (fun c w => c.keeps w) (stable_of_rely hP) fun w _ => h w

theorem Does.ask {r : Req} {Q : Resp r → World → Prop}
    (hserve : ∀ f w r, inv w → inv (serve f w r).2) (hP : Lasts inv rely P)
    (hQ : ∀ x, Lasts inv rely (Q x)) (h : ∀ w fault, inv w → P w → guar w (serve fault w r).2 ∧
      Q (serve fault w r).1 (serve fault w r).2) : Does serve inv rely guar P (Program.ask r) Q :=
  Triple.ask (fun c w => c.keeps w) hserve (stable_of_rely hP) (fun x => stable_of_rely (hQ x)) h

theorem Does.bind {f : α → Program Req Resp β} {R : β → World → Prop}
    (hserve : ∀ f w r, inv w → inv (serve f w r).2) (hp : Does serve inv rely guar P p Q)
    (hf : ∀ a, Does serve inv rely guar (Q a) (f a) R) : Does serve inv rely guar P (p >>= f) R :=
  Triple.bind hserve hp hf

theorem Does.weaken {P' : World → Prop} {Q' : α → World → Prop}
    (h : Does serve inv rely guar P p Q) (hpre : ∀ w, P' w → P w) (hpost : ∀ a w, Q a w → Q' a w) :
    Does serve inv rely guar P' p Q' :=
  Triple.conseq h (fun w _ => hpre w) fun a w _ => hpost a w

end Does

/-- The world, and what is left of every client's program. -/
structure Crowd (World Req : Type) (Resp : Req → Type) (ι ρ : Type) where
  world : World
  rest : ι → Program Req Resp ρ

/-- One step: an action of nobody in the crowd, or a client's next request. -/
inductive Turn (Action Fault ι : Type) where
  | act (a : Action)
  | call (i : ι) (fault : Fault)

namespace Crowd

section Legal

variable {World Req : Type} {Resp : Req → Type} {Fault ι ρ : Type}
variable (inv : World → Prop) (rely : ι → World → World → Prop)
variable (guar : ι → World → Req → World → Prop) (post : ι → ρ → World → Prop)

/-- Nobody but what it relies on disturbs a client, and it keeps to its guarantee. -/
def SafeFor (serve : ι → Fault → World → (r : Req) → Resp r × World) (i : ι)
    (p : Program Req Resp ρ) (w : World) : Prop :=
  Safe (serve i) (interfere inv (rely i)) inv (guar i) (post i) p w

/-- The invariant holds, and every client is safe. -/
def Legal (serve : ι → Fault → World → (r : Req) → Resp r × World)
    (s : Crowd World Req Resp ι ρ) : Prop :=
  inv s.world ∧ ∀ i, SafeFor inv rely guar post serve i (s.rest i) s.world

variable {inv rely guar post} {serve : ι → Fault → World → (r : Req) → Resp r × World}
  {s : Crowd World Req Resp ι ρ}

theorem Legal.returned (h : Legal inv rely guar post serve s) {i : ι} {a : ρ}
    (hdone : s.rest i = .pure a) : post i a s.world := by
  have hsafe := h.2 i
  rw [hdone] at hsafe
  exact hsafe s.world .refl h.1

theorem Legal.good (h : Legal inv rely guar post serve s) {i : ι} {r : Req}
    {k : Resp r → Program Req Resp ρ} (hrest : s.rest i = .call r k) (fault : Fault) :
    guar i s.world r (serve i fault s.world r).2 := by
  have hsafe := h.2 i
  rw [hrest] at hsafe
  exact (hsafe s.world .refl h.1 fault).1

end Legal

section Runs

variable {World Req : Type} {Resp : Req → Type} {Fault Action ι ρ : Type} [DecidableEq ι]
variable (serve : ι → Fault → World → (r : Req) → Resp r × World) (act : Action → World → World)

def next (s : Crowd World Req Resp ι ρ) : Turn Action Fault ι → Option (Crowd World Req Resp ι ρ)
  | .act a => some { s with world := act a s.world }
  | .call i fault =>
    match s.rest i with
    | .pure _ => none
    | .call r k =>
      some ⟨(serve i fault s.world r).2,
        Function.update s.rest i (k (serve i fault s.world r).1)⟩

/-- The runs whose steps all meet a condition on the turn and the state before. -/
inductive Run (cond : Crowd World Req Resp ι ρ → Turn Action Fault ι → Prop)
    (s : Crowd World Req Resp ι ρ) : Crowd World Req Resp ι ρ → Prop where
  | refl : Run cond s s
  | step {t u : Crowd World Req Resp ι ρ} {turn : Turn Action Fault ι} :
      Run cond s t → cond t turn → next serve act t turn = some u → Run cond s u

/-- A run, turn by turn. -/
def play (s : Crowd World Req Resp ι ρ) (turns : List (Turn Action Fault ι)) :
    Option (Crowd World Req Resp ι ρ) :=
  turns.foldlM (next serve act) s

/-- A run, turn by turn, each only if it meets the condition. -/
def playWhile (cond : Crowd World Req Resp ι ρ → Turn Action Fault ι → Prop)
    [∀ s, DecidablePred (cond s)] (s : Crowd World Req Resp ι ρ) :
    List (Turn Action Fault ι) → Option (Crowd World Req Resp ι ρ)
  | [] => some s
  | turn :: turns =>
    if cond s turn then (next serve act s turn).bind fun t => playWhile cond t turns else none

variable {serve act}
variable {s t : Crowd World Req Resp ι ρ} {turn : Turn Action Fault ι}
variable {cond : Crowd World Req Resp ι ρ → Turn Action Fault ι → Prop}
variable {inv : World → Prop} {rely : ι → World → World → Prop}
variable {guar : ι → World → Req → World → Prop} {post : ι → ρ → World → Prop}

theorem Run.trans {u : Crowd World Req Resp ι ρ} (h : Run serve act cond s t)
    (h' : Run serve act cond t u) : Run serve act cond s u := by
  induction h' with
  | refl => exact h
  | step _ hcond hnext ih => exact ih.step hcond hnext

theorem run_of_play {turns : List (Turn Action Fault ι)}
    (h : play serve act s turns = some t) : Run serve act (fun _ _ => True) s t := by
  induction turns generalizing s with
  | nil =>
    obtain rfl := some.inj h
    exact .refl
  | cons turn turns ih =>
    rw [play, List.foldlM_cons] at h
    obtain ⟨u, hu, hrest⟩ := bind_eq_some_iff.mp h
    exact (Run.step .refl trivial hu).trans (ih hrest)

/-- A run whose turns meet the condition, and that ends as it is checked. -/
theorem exists_run_of_playWhile [∀ s, DecidablePred (cond s)] (turns : List (Turn Action Fault ι))
    {check : Crowd World Req Resp ι ρ → Bool}
    (h : (playWhile serve act cond s turns).any check = true) :
    ∃ t, Run serve act cond s t ∧ check t = true := by
  induction turns generalizing s with
  | nil => exact ⟨s, .refl, h⟩
  | cons turn turns ih =>
    rw [playWhile] at h
    split at h
    · next hcond =>
      obtain ⟨u, hu, hcheck⟩ := (any_eq_true check _).mp h
      obtain ⟨v, hnext, hrest⟩ := bind_eq_some_iff.mp hu
      obtain ⟨t, hrun, ht⟩ := ih ((any_eq_true check _).mpr ⟨u, hrest, hcheck⟩)
      exact ⟨t, (Run.step .refl hcond hnext).trans hrun, ht⟩
    · contradiction

theorem next_cases (h : next serve act s turn = some t) :
    (∃ a, turn = .act a ∧ t = { s with world := act a s.world }) ∨
    (∃ i fault r k, turn = .call i fault ∧ s.rest i = .call r k ∧
      t = ⟨(serve i fault s.world r).2,
        Function.update s.rest i (k (serve i fault s.world r).1)⟩) := by
  cases turn with
  | act a => exact .inl ⟨a, rfl, (some.inj h).symm⟩
  | call i fault =>
    simp only [next] at h
    match hrest : s.rest i with
    | .pure _ => simp [hrest] at h
    | .call r k =>
      rw [hrest] at h
      exact .inr ⟨i, fault, r, k, rfl, hrest, (some.inj h).symm⟩

/-- Where the condition holds, another world that answers the same will do. -/
theorem Run.of_serve_eq {serve' : ι → Fault → World → (r : Req) → Resp r × World}
    (hsame : ∀ u i fault r k, cond u (.call i fault) → u.rest i = .call r k →
      serve' i fault u.world r = serve i fault u.world r)
    (h : Run serve act cond s t) : Run serve' act cond s t := by
  induction h with
  | refl => exact .refl
  | @step u v turn _ hcond hnext ih =>
    refine ih.step hcond ?_
    obtain ⟨a, rfl, rfl⟩ | ⟨i, fault, r, k, rfl, hrest, rfl⟩ := next_cases hnext
    · rfl
    · simp only [next, hrest, hsame u i fault r k hcond hrest]

theorem Legal.next (hrefl : ∀ i w, rely i w w) (hserve : ∀ i f w r, inv w → inv (serve i f w r).2)
    (hact : ∀ a, cond s (.act a) → inv (act a s.world) ∧ ∀ i, rely i s.world (act a s.world))
    (hothers : ∀ i fault r k, cond s (.call i fault) → s.rest i = .call r k →
      guar i s.world r (serve i fault s.world r).2 →
        ∀ j, j ≠ i → rely j s.world (serve i fault s.world r).2)
    (hlegal : Legal inv rely guar post serve s) (hcond : cond s turn)
    (h : Crowd.next serve act s turn = some t) : Legal inv rely guar post serve t := by
  obtain ⟨a, rfl, rfl⟩ | ⟨i, fault, r, k, rfl, hrest, rfl⟩ := next_cases h
  · obtain ⟨hinv, hrely⟩ := hact a hcond
    refine ⟨hinv, fun i => ?_⟩
    exact (hlegal.2 i).later (later_of_rely (hrefl i) hinv (hrely i))
  · have hinv := hserve i fault s.world r hlegal.1
    refine ⟨hinv, fun j => ?_⟩
    by_cases hji : j = i
    · subst hji
      have hsafe := hlegal.2 j
      rw [hrest] at hsafe
      simp only [Function.update_self]
      exact (hsafe s.world .refl hlegal.1 fault).2
    · simp only [ne_eq, hji, not_false_eq_true, Function.update_of_ne]
      have hrely := hothers i fault r k hcond hrest (hlegal.good hrest fault) j hji
      exact (hlegal.2 j).later (later_of_rely (hrefl j) hinv hrely)

/-- What holds at first, and survives every allowed action and every request within its
guarantee, holds throughout the run, and the clients stay safe. -/
theorem Run.invariant (hrefl : ∀ i w, rely i w w)
    (hserve : ∀ i f w r, inv w → inv (serve i f w r).2) {P : World → Prop}
    (hact : ∀ t a, cond t (.act a) → inv t.world → P t.world →
      inv (act a t.world) ∧ (∀ i, rely i t.world (act a t.world)) ∧ P (act a t.world))
    (hcall : ∀ t i fault r k, cond t (.call i fault) → t.rest i = .call r k → inv t.world →
      P t.world → guar i t.world r (serve i fault t.world r).2 →
        (∀ j, j ≠ i → rely j t.world (serve i fault t.world r).2) ∧
          P (serve i fault t.world r).2)
    (hlegal : Legal inv rely guar post serve s) (hP : P s.world)
    (h : Run serve act cond s t) : Legal inv rely guar post serve t ∧ P t.world := by
  induction h with
  | refl => exact ⟨hlegal, hP⟩
  | @step t u turn _ hcond hnext ih =>
    obtain ⟨hlegal, hP⟩ := ih
    constructor
    · refine hlegal.next hrefl hserve (fun a ha => ?_) (fun i fault r k hi hrest hgood => ?_)
        hcond hnext
      · obtain ⟨hinv, hrely, -⟩ := hact t a ha hlegal.1 hP
        exact ⟨hinv, hrely⟩
      · exact (hcall t i fault r k hi hrest hlegal.1 hP hgood).1
    · obtain ⟨a, rfl, rfl⟩ | ⟨i, fault, r, k, rfl, hrest, rfl⟩ := next_cases hnext
      · exact (hact t a hcond hlegal.1 hP).2.2
      · exact (hcall t i fault r k hcond hrest hlegal.1 hP (hlegal.good hrest fault)).2

end Runs

end Crowd

end Interference
