import Mathlib.Logic.Relation
import Mathlib.Tactic.Basic

/-!
# Programs that share a world with others

A program is a tree of requests: it asks, gets an answer, and goes on. The world
answers a request in one step, with whatever fault it likes; between two requests
of the program others may act on the world as often as they like, and the program
may be stopped anywhere and started again from the beginning.

`Safe` says of a program that every request it makes is a good one, whatever the
others do meanwhile. Its rules follow the program; what a program knows about the
world between two requests has to be stable, that is, nothing the others do makes
it false. From safe programs an induction over runs follows: every step of a run
is an action of the others, a good request, or no change at all.
-/

namespace Interference

open Option

/-- A program: a value, or a request and what to do with its answer. -/
inductive Program (Req : Type) (Resp : Req → Type) (α : Type) where
  | pure (a : α)
  | call (r : Req) (k : Resp r → Program Req Resp α)

variable {Req α β World Fault Action : Type} {Resp : Req → Type}
  {serve : Fault → World → (r : Req) → Resp r × World} {P : World → Prop}

namespace Program

def bind : Program Req Resp α → (α → Program Req Resp β) → Program Req Resp β
  | .pure a, f => f a
  | .call r k, f => .call r fun x => (k x).bind f

instance : Monad (Program Req Resp) where
  pure := .pure
  bind := bind

/-- The request that the program is about to make. -/
def request? : Program Req Resp α → Option Req
  | .pure _ => none
  | .call r _ => some r

/-- One request on its own. -/
def ask (r : Req) : Program Req Resp (Resp r) := .call r .pure

/-- A program on its own: nobody acts between its requests. -/
def run (serve : Fault → World → (r : Req) → Resp r × World) (faults : Req → Fault) :
    Program Req Resp α → World → α × World
  | .pure a, w => (a, w)
  | .call r k, w => (k (serve (faults r) w r).1).run serve faults (serve (faults r) w r).2

variable {faults : Req → Fault}

@[simp] theorem run_pure (a : α) (w : World) :
    run serve faults (Pure.pure a : Program Req Resp α) w = (a, w) := rfl

@[simp] theorem run_ask (r : Req) (w : World) :
    run serve faults (ask r) w = serve (faults r) w r := rfl

@[simp] theorem run_bind (p : Program Req Resp α) (f : α → Program Req Resp β) (w : World) :
    run serve faults (p >>= f) w =
      run serve faults (f (run serve faults p w).1) (run serve faults p w).2 := by
  change run serve faults (p.bind f) w = _
  induction p generalizing w with
  | pure a => rfl
  | call r k ih => exact ih _ _

end Program

section Rules

/-- Nothing the others do makes the property false. -/
def Stable (act : Action → World → World) (inv P : World → Prop) : Prop :=
  ∀ a w, inv w → P w → P (act a w)

/-- What the world can become while the program waits. -/
def Later (act : Action → World → World) : World → World → Prop :=
  Relation.ReflTransGen fun w v => ∃ a, v = act a w

/-- Every request the program makes is good, and what it returns is as promised. -/
def Safe (serve : Fault → World → (r : Req) → Resp r × World) (act : Action → World → World)
    (inv : World → Prop) (good : World → Req → World → Prop) (post : α → World → Prop) :
    Program Req Resp α → World → Prop
  | .pure a, w => ∀ v, Later act w v → inv v → post a v
  | .call r k, w => ∀ v, Later act w v → inv v → ∀ f,
      good v r (serve f v r).2 ∧
        Safe serve act inv good post (k (serve f v r).1) (serve f v r).2

/-- From wherever `P` holds, the program is safe and ends with `Q`. -/
def Triple (serve : Fault → World → (r : Req) → Resp r × World) (act : Action → World → World)
    (inv : World → Prop) (good : World → Req → World → Prop) (P : World → Prop)
    (p : Program Req Resp α) (Q : α → World → Prop) : Prop :=
  ∀ w, inv w → P w → Safe serve act inv good Q p w

variable {act : Action → World → World} {inv : World → Prop} {good : World → Req → World → Prop}

namespace Stable

variable {Q : World → Prop}

theorem and (hP : Stable act inv P) (hQ : Stable act inv Q) : Stable act inv fun w => P w ∧ Q w :=
  fun a w hinv h => ⟨hP a w hinv h.1, hQ a w hinv h.2⟩

theorem const (p : Prop) : Stable act inv fun _ => p := fun _ _ _ h => h

theorem later (hP : Stable act inv P) (hact : ∀ a w, inv w → inv (act a w)) {w v : World}
    (hlater : Later act w v) (hinv : inv w) (h : P w) : inv v ∧ P v := by
  induction hlater with
  | refl => exact ⟨hinv, h⟩
  | tail _ hstep ih =>
    obtain ⟨a, rfl⟩ := hstep
    exact ⟨hact a _ ih.1, hP a _ ih.1 ih.2⟩

end Stable

theorem Safe.later {post : α → World → Prop} {p : Program Req Resp α} {w v : World}
    (h : Safe serve act inv good post p w) (hlater : Later act w v) :
    Safe serve act inv good post p v := by
  cases p with
  | pure a => exact fun u hu hinv => h u (hlater.trans hu) hinv
  | call r k => exact fun u hu hinv f => h u (hlater.trans hu) hinv f

theorem Safe.mono {post post' : α → World → Prop} {p : Program Req Resp α} {w : World}
    (h : Safe serve act inv good post p w) (hpost : ∀ a v, inv v → post a v → post' a v) :
    Safe serve act inv good post' p w := by
  induction p generalizing w with
  | pure a => exact fun v hv hinv => hpost a v hinv (h v hv hinv)
  | call r k ih =>
    exact fun v hv hinv f => ⟨(h v hv hinv f).1, ih _ (h v hv hinv f).2⟩

namespace Triple

variable {P' : World → Prop} {Q Q' : α → World → Prop} {R : β → World → Prop}
  {p : Program Req Resp α} {f : α → Program Req Resp β}

theorem conseq (h : Triple serve act inv good P p Q) (hpre : ∀ w, inv w → P' w → P w)
    (hpost : ∀ a w, inv w → Q a w → Q' a w) : Triple serve act inv good P' p Q' :=
  fun w hinv hP => (h w hinv (hpre w hinv hP)).mono hpost

theorem pre (h : Triple serve act inv good P p Q) (hpre : ∀ w, inv w → P' w → P w) :
    Triple serve act inv good P' p Q :=
  h.conseq hpre fun _ _ _ hQ => hQ

theorem pure {a : α} (hact : ∀ a w, inv w → inv (act a w)) (hP : Stable act inv P)
    (h : ∀ w, inv w → P w → Q a w) :
    Triple serve act inv good P (Pure.pure a : Program Req Resp α) Q := by
  intro w hinv hw v hlater hinv'
  exact h v hinv' (hP.later hact hlater hinv hw).2

theorem of_fact {q : Prop} (h : q → Triple serve act inv good P p Q) :
    Triple serve act inv good (fun w => q ∧ P w) p Q :=
  fun w hinv hw => h hw.1 w hinv hw.2

theorem bind (hserve : ∀ f w r, inv w → inv (serve f w r).2) (hp : Triple serve act inv good P p Q)
    (hf : ∀ a, Triple serve act inv good (Q a) (f a) R) :
    Triple serve act inv good P (p >>= f) R := by
  suffices hsafe : ∀ w, inv w → Safe serve act inv good Q p w →
      Safe serve act inv good R (p.bind f) w from
    fun w hinv hw => hsafe w hinv (hp w hinv hw)
  clear hp
  induction p with
  | pure a =>
    intro w hinv h
    exact hf a w hinv (h w .refl hinv)
  | call r k ih =>
    intro w _ h v hlater hinv' fault
    obtain ⟨hgood, hrest⟩ := h v hlater hinv' fault
    exact ⟨hgood, ih _ _ (hserve fault v r hinv') hrest⟩

/-- One request: it is good wherever it may be made, and its answer says what is
known afterwards. -/
theorem ask {r : Req} {Q : Resp r → World → Prop} (hact : ∀ a w, inv w → inv (act a w))
    (hserve : ∀ f w r, inv w → inv (serve f w r).2) (hP : Stable act inv P)
    (hQ : ∀ x, Stable act inv (Q x)) (h : ∀ w fault, inv w → P w → good w r (serve fault w r).2 ∧
      Q (serve fault w r).1 (serve fault w r).2) :
    Triple serve act inv good P (Program.ask r) Q := by
  intro w hinv hw v hlater hinv' fault
  obtain ⟨hgood, hpost⟩ := h v fault hinv' (hP.later hact hlater hinv hw).2
  refine ⟨hgood, fun u hlater' _ => ?_⟩
  exact ((hQ _).later hact hlater' (hserve fault v r hinv') hpost).2

end Triple

end Rules

section Runs

variable {Job ρ : Type}

/-- The world, and the job being worked on with what is left of its program. -/
structure System (World Req : Type) (Resp : Req → Type) (Job ρ : Type) where
  world : World
  busy : Option (Job × Program Req Resp ρ)

/-- One step: an action of the others, the start of a job, one request, or the end
of the work, be it done or stopped on the way. -/
inductive Label (Action Fault Job : Type) where
  | act (a : Action)
  | start (job : Job)
  | call (fault : Fault)
  | stop

variable (serve : Fault → World → (r : Req) → Resp r × World) (act : Action → World → World)
variable (body : Job → Program Req Resp ρ)

def next (s : System World Req Resp Job ρ) :
    Label Action Fault Job → Option (System World Req Resp Job ρ)
  | .act a => some { s with world := act a s.world }
  | .start job =>
    match s.busy with
    | none => some { s with busy := some (job, body job) }
    | some _ => none
  | .call fault =>
    match s.busy with
    | some (job, .call r k) =>
      some ⟨(serve fault s.world r).2, some (job, k (serve fault s.world r).1)⟩
    | _ => none
  | .stop => some { s with busy := none }

/-- The runs whose steps all meet a condition on the label and the state before. -/
inductive Run (cond : System World Req Resp Job ρ → Label Action Fault Job → Prop)
    (s : System World Req Resp Job ρ) : System World Req Resp Job ρ → Prop where
  | refl : Run cond s s
  | step {t u : System World Req Resp Job ρ} {label : Label Action Fault Job} :
      Run cond s t → cond t label → next serve act body t label = some u → Run cond s u

variable (inv : World → Prop) (good : Job → World → Req → World → Prop)

/-- The invariant holds, and the rest of the work is safe. -/
def Legal (s : System World Req Resp Job ρ) : Prop :=
  inv s.world ∧ ∀ job p, s.busy = some (job, p) →
    Safe serve act inv (good job) (fun _ _ => True) p s.world

variable {serve act body inv good}
variable {s t : System World Req Resp Job ρ} {label : Label Action Fault Job}

/-- What one step is: an action of the others, a good request of the job being
worked on, or a step that leaves the world alone. -/
theorem next_cases (hlegal : Legal serve act inv good s)
    (h : next serve act body s label = some t) : (∃ a, label = .act a ∧ t.world = act a s.world) ∨
    (∃ fault job r k, label = .call fault ∧ s.busy = some (job, .call r k) ∧
      t.world = (serve fault s.world r).2 ∧ good job s.world r t.world) ∨
    ((label = .stop ∨ ∃ job, label = .start job) ∧ t.world = s.world) := by
  cases label with
  | act a =>
    simp only [next, some.injEq] at h
    exact .inl ⟨a, rfl, by rw [← h]⟩
  | start job =>
    simp only [next] at h
    split at h
    · simp only [some.injEq] at h
      exact .inr (.inr ⟨.inr ⟨job, rfl⟩, by rw [← h]⟩)
    · contradiction
  | call fault =>
    simp only [next] at h
    split at h
    · rename_i job r k hbusy
      simp only [some.injEq] at h
      have hgood := (hlegal.2 job _ hbusy s.world .refl hlegal.1 fault).1
      exact .inr (.inl ⟨fault, job, r, k, rfl, hbusy, by rw [← h], by rw [← h]; exact hgood⟩)
    · contradiction
  | stop =>
    simp only [next, some.injEq] at h
    exact .inr (.inr ⟨.inl rfl, by rw [← h]⟩)

variable {cond : System World Req Resp Job ρ → Label Action Fault Job → Prop}

section

variable (hact : ∀ a w, inv w → inv (act a w)) (hserve : ∀ f w r, inv w → inv (serve f w r).2)
  (hbody : ∀ job w, inv w → Safe serve act inv (good job) (fun _ _ => True) (body job) w)
  (hlegal : Legal serve act inv good s)

include hact hserve hbody hlegal

theorem Legal.next (h : next serve act body s label = some t) : Legal serve act inv good t := by
  obtain ⟨hinv, hsafe⟩ := hlegal
  cases label with
  | act a =>
    simp only [Interference.next, some.injEq] at h
    subst h
    exact ⟨hact a _ hinv, fun job p hbusy => (hsafe job p hbusy).later (.single ⟨a, rfl⟩)⟩
  | start job =>
    simp only [Interference.next] at h
    split at h
    · simp only [some.injEq] at h
      subst h
      refine ⟨hinv, fun job' p hbusy => ?_⟩
      simp only [some.injEq, Prod.mk.injEq] at hbusy
      obtain ⟨rfl, rfl⟩ := hbusy
      exact hbody job _ hinv
    · contradiction
  | call fault =>
    simp only [Interference.next] at h
    split at h
    · rename_i job r k hbusy
      simp only [some.injEq] at h
      subst h
      refine ⟨hserve fault _ r hinv, fun job' p hbusy' => ?_⟩
      simp only [some.injEq, Prod.mk.injEq] at hbusy'
      obtain ⟨rfl, rfl⟩ := hbusy'
      exact (hsafe job _ hbusy s.world .refl hinv fault).2
    · contradiction
  | stop =>
    simp only [Interference.next, some.injEq] at h
    subst h
    exact ⟨hinv, by simp⟩

theorem Run.legal (h : Run serve act body cond s t) : Legal serve act inv good t := by
  induction h with
  | refl => exact hlegal
  | step _ _ hnext ih => exact ih.next hact hserve hbody hnext

/-- What holds at first, and survives every allowed action and every good request,
holds throughout the run. -/
theorem Run.invariant (hP : P s.world)
    (hother : ∀ t a, cond t (.act a) → inv t.world → P t.world → P (act a t.world))
    (hcall : ∀ t fault job r k, cond t (.call fault) → t.busy = some (job, .call r k) →
      inv t.world → good job t.world r (serve fault t.world r).2 → P t.world →
      P (serve fault t.world r).2) (h : Run serve act body cond s t) : P t.world := by
  induction h with
  | refl => exact hP
  | @step t u label hrun hcond hnext ih =>
    have hlegal' := hrun.legal hact hserve hbody hlegal
    rcases next_cases hlegal' hnext with ⟨a, rfl, hworld⟩ |
      ⟨fault, job, r, k, rfl, hbusy, hworld, hgood⟩ | ⟨-, hworld⟩
    · rw [hworld]
      exact hother t a hcond hlegal'.1 ih
    · rw [hworld] at hgood ⊢
      exact hcall t fault job r k hcond hbusy hlegal'.1 hgood ih
    · rw [hworld]
      exact ih

end

end Runs

end Interference
