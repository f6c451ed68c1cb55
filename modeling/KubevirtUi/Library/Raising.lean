import KubevirtUi.Library.Crowd

/-!
# Programs that raise

A program that may raise says what it achieves when it returns, and what is so when it
raises. Its rules follow the program as those of a program that cannot raise do; what is
raised passes through to whoever catches it.

Where it is enough to know which requests a program makes, and not when, no more has to
be said of it than that.
-/

namespace Interference

open List

variable {World Req Fault ε α β : Type} {Resp : Req → Type} {among : Req → Prop}
  {serve : Fault → World → (r : Req) → Resp r × World} {inv P R : World → Prop}
  {Q : α → World → Prop} {p : ExceptT ε (Program Req Resp) α} {xs : List α}
  {rely : World → World → Prop} {guar : World → Req → World → Prop}

section Every

variable {Action : Type}

/-- All requests that the program may make are among these, whatever it is answered. -/
def Every (among : Req → Prop) : Program Req Resp α → Prop
  | .pure _ => True
  | .call r k => among r ∧ ∀ x, Every among (k x)

theorem every_bind {p : Program Req Resp α} {f : α → Program Req Resp β}
    (hp : Every among p) (hf : ∀ a, Every among (f a)) : Every among (p >>= f) := by
  change Every among (p.bind f)
  induction p with
  | pure a => exact hf a
  | call r k ih => exact ⟨hp.1, fun x => ih x (hp.2 x)⟩

/-- A program is safe if all its requests are good ones. -/
theorem Triple.of_every {act : Action → World → World} {good : World → Req → World → Prop}
    (hgood : ∀ f w r, inv w → among r → good w r (serve f w r).2) {p : Program Req Resp α}
    (hp : Every among p) : Triple serve act inv good P p fun _ _ => True := by
  have hsafe : ∀ w, Safe serve act inv good (fun _ _ => True) p w := by
    induction p with
    | pure a => exact fun _ _ _ _ => trivial
    | call r k ih => exact fun w v _ hv f => ⟨hgood f v r hv hp.1, ih _ (hp.2 _) _⟩
  exact fun w _ _ => hsafe w

theorem Every.always (p : Program Req Resp α) : Every (fun _ => True) p := by
  induction p with
  | pure a => exact trivial
  | call r k ih => exact ⟨trivial, ih⟩

section Frame

variable {act : Action → World → World} {good : World → Req → World → Prop} {p : Program Req Resp α}

section

variable (hact : ∀ a w, inv w → inv (act a w)) (hserve : ∀ f w r, inv w → inv (serve f w r).2)
  (hR : Stable act inv R)

include hact hserve hR

/-- What is known stays known through good requests among these that leave it true. -/
theorem Triple.frame_where
    (hkeep : ∀ f w r, inv w → among r → good w r (serve f w r).2 → R w → R (serve f w r).2)
    (hp : Every among p) (h : Triple serve act inv good P p Q) :
    Triple serve act inv good (fun w => P w ∧ R w) p fun a w => Q a w ∧ R w := by
  suffices hsafe : ∀ w, inv w → R w → Safe serve act inv good Q p w →
      Safe serve act inv good (fun a v => Q a v ∧ R v) p w from
    fun w hinv hw => hsafe w hinv hw.2 (h w hinv hw.1)
  clear h
  induction p with
  | pure a =>
    intro w hinv hw h v hlater hinv'
    exact ⟨h v hlater hinv', (hR.later hact hlater hinv hw).2⟩
  | call r k ih =>
    intro w hinv hw h v hlater hinv' fault
    obtain ⟨hgood, hrest⟩ := h v hlater hinv' fault
    have hv := (hR.later hact hlater hinv hw).2
    exact ⟨hgood, ih _ (hp.2 _) _ (hserve fault v r hinv')
      (hkeep fault v r hinv' hp.1 hgood hv) hrest⟩

/-- What is known stays known through all that leaves it true. -/
theorem Triple.frame (hkeep : ∀ f w r, inv w → among r → R w → R (serve f w r).2)
    (hp : Every among p) (h : Triple serve act inv good P p Q) :
    Triple serve act inv good (fun w => P w ∧ R w) p fun a w => Q a w ∧ R w :=
  h.frame_where hact hserve hR (fun f w r hinv hr _ => hkeep f w r hinv hr) hp

/-- What is known stays known through good requests that leave it true. -/
theorem Triple.frame_good (hkeep : ∀ w r v, inv w → good w r v → R w → R v)
    (h : Triple serve act inv good P p Q) :
    Triple serve act inv good (fun w => P w ∧ R w) p fun a w => Q a w ∧ R w :=
  h.frame_where hact hserve hR (fun _ w r hinv _ => hkeep w r _ hinv) (.always p)

end

end Frame

/-- What is known in any of the cases is known. -/
theorem Triple.of_exists {act : Action → World → World} {good : World → Req → World → Prop}
    {P : β → World → Prop} {p : Program Req Resp α} (h : ∀ b, Triple serve act inv good (P b) p Q) :
    Triple serve act inv good (fun w => ∃ b, P b w) p Q :=
  fun w hinv ⟨b, hb⟩ => h b w hinv hb

namespace Every

theorem mono {among' : Req → Prop} {p : Program Req Resp α} (h : Every among p)
    (hsub : ∀ r, among r → among' r) : Every among' p := by
  induction p with
  | pure a => exact trivial
  | call r k ih => exact ⟨hsub r h.1, fun x => ih x (h.2 x)⟩

theorem pure (a : α) : Every among (Pure.pure a : ExceptT ε (Program Req Resp) α).run := trivial

theorem throw (e : ε) :
    Every among (MonadExcept.throw e : ExceptT ε (Program Req Resp) α).run := trivial

theorem bind {f : α → ExceptT ε (Program Req Resp) β} (hp : Every among p.run)
    (hf : ∀ a, Every among (f a).run) : Every among (p >>= f).run :=
  every_bind hp fun x => match x with
    | .ok a => hf a
    | .error _ => trivial

theorem tryCatch {f : ε → ExceptT ε (Program Req Resp) α} (hp : Every among p.run)
    (hf : ∀ e, Every among (f e).run) : Every among (MonadExcept.tryCatch p f).run :=
  every_bind hp fun x => match x with
    | .ok _ => trivial
    | .error e => hf e

theorem forM {f : α → ExceptT ε (Program Req Resp) PUnit} (h : ∀ x ∈ xs, Every among (f x).run) :
    Every among (xs.forM f).run := by
  induction xs with
  | nil => exact trivial
  | cons x xs ih =>
    exact bind (h x mem_cons_self) fun _ => ih fun y hy => h y (mem_cons_of_mem x hy)

theorem foldlM {f : β → α → ExceptT ε (Program Req Resp) β} {b : β}
    (h : ∀ b, ∀ x ∈ xs, Every among (f b x).run) : Every among (xs.foldlM f b).run := by
  induction xs generalizing b with
  | nil => exact trivial
  | cons x xs ih =>
    rw [foldlM_cons]
    exact bind (h b x mem_cons_self) fun _ => ih fun c y hy =>
      h c y (mem_cons_of_mem x hy)

end Every

end Every

section Settles

variable {answer : ∀ r, Resp r → Prop}

/-- However its requests are answered, as long as they are answered so, the program ends so. -/
def Settles (answer : ∀ r, Resp r → Prop) (post : α → Prop) : Program Req Resp α → Prop
  | .pure a => post a
  | .call r k => ∀ x, answer r x → Settles answer post (k x)

variable {P : α → Prop}

theorem settles_bind {p : Program Req Resp α} {f : α → Program Req Resp β} {Q : β → Prop}
    (hp : Settles answer P p) (hf : ∀ a, P a → Settles answer Q (f a)) :
    Settles answer Q (p >>= f) := by
  change Settles answer Q (p.bind f)
  induction p with
  | pure a => exact hf a hp
  | call r k ih => exact fun x hx => ih x (hp x hx)

namespace Settles

theorem run {serve : Fault → World → (r : Req) → Resp r × World} {faults : Req → Fault}
    {p : Program Req Resp α} (h : Settles answer P p)
    (hserve : ∀ w r, answer r (serve (faults r) w r).1) (w : World) :
    P (p.run serve faults w).1 := by
  induction p generalizing w with
  | pure a => exact h
  | call r k ih => exact ih _ (h _ (hserve w r)) _

theorem mono {Q : α → Prop} {p : Program Req Resp α} (h : Settles answer P p)
    (hPQ : ∀ a, P a → Q a) : Settles answer Q p := by
  induction p with
  | pure a => exact hPQ a h
  | call r k ih => exact fun x hx => ih x (h x hx)

variable {E E' : ε → Prop}

/-- The program returns, or raises such an exception. -/
abbrev Throws (E : ε → Prop) : Except ε α → Prop
  | .ok _ => True
  | .error e => E e

theorem bind {f : α → ExceptT ε (Program Req Resp) β} (hp : Settles answer (Throws E) p.run)
    (hf : ∀ a, Settles answer (Throws E) (f a).run) : Settles answer (Throws E) (p >>= f).run := by
  refine settles_bind hp fun x hx => ?_
  cases x with
  | ok a => exact hf a
  | error e => exact hx

theorem tryCatch {f : ε → ExceptT ε (Program Req Resp) α} (hp : Settles answer (Throws E) p.run)
    (hf : ∀ e, E e → Settles answer (Throws E') (f e).run) :
    Settles answer (Throws E') (MonadExcept.tryCatch p f).run := by
  refine settles_bind hp fun x hx => ?_
  cases x with
  | ok a => exact trivial
  | error e => exact hf e hx

theorem forM {f : α → ExceptT ε (Program Req Resp) PUnit}
    (h : ∀ x ∈ xs, Settles answer (Throws E) (f x).run) :
    Settles answer (Throws E) (xs.forM f).run := by
  induction xs with
  | nil => exact trivial
  | cons x xs ih =>
    exact bind (h x mem_cons_self) fun _ => ih fun y hy => h y (mem_cons_of_mem x hy)

theorem foldlM {f : β → α → ExceptT ε (Program Req Resp) β} {b : β}
    (h : ∀ b, ∀ x ∈ xs, Settles answer (Throws E) (f b x).run) :
    Settles answer (Throws E) (xs.foldlM f b).run := by
  induction xs generalizing b with
  | nil => exact trivial
  | cons x xs ih =>
    rw [foldlM_cons]
    exact bind (h b x mem_cons_self) fun _ => ih fun c y hy =>
      h c y (mem_cons_of_mem x hy)

end Settles

end Settles

section Attempts

/-- What is so if the program returns, and if it raises. -/
def outcome (Q : α → World → Prop) (E : ε → World → Prop) : Except ε α → World → Prop
  | .ok a => Q a
  | .error e => E e

/-- A program that may raise keeps to its guarantee, and what it achieves. -/
abbrev Attempts (serve : Fault → World → (r : Req) → Resp r × World) (inv : World → Prop)
    (rely : World → World → Prop) (guar : World → Req → World → Prop) (P : World → Prop)
    (p : ExceptT ε (Program Req Resp) α) (Q : α → World → Prop) (E : ε → World → Prop) : Prop :=
  Triple serve (interfere inv rely) inv guar P p.run (outcome Q E)

variable {E : ε → World → Prop}

variable {E' : ε → World → Prop}

namespace Attempts

theorem pure {a : α} (hP : Lasts inv rely P) (h : ∀ w, P w → Q a w) :
    Attempts serve inv rely guar P (Pure.pure a) Q E :=
  Triple.pure (fun c w => c.keeps w) (stable_of_rely hP) fun w _ => h w

theorem throw {e : ε} (hP : Lasts inv rely P) (h : ∀ w, P w → E e w) :
    Attempts serve inv rely guar P (MonadExcept.throw e) Q E :=
  Triple.pure (fun c w => c.keeps w) (stable_of_rely hP) fun w _ => h w

theorem bind {f : α → ExceptT ε (Program Req Resp) β} {R : β → World → Prop}
    (hserve : ∀ f w r, inv w → inv (serve f w r).2) (hE : ∀ e, Lasts inv rely (E e))
    (hp : Attempts serve inv rely guar P p Q E)
    (hf : ∀ a, Attempts serve inv rely guar (Q a) (f a) R E) :
    Attempts serve inv rely guar P (p >>= f) R E :=
  Triple.bind hserve hp fun x => match x with
    | .ok a => hf a
    | .error e => throw (hE e) fun _ h => h

theorem tryCatch {f : ε → ExceptT ε (Program Req Resp) α}
    (hserve : ∀ f w r, inv w → inv (serve f w r).2) (hQ : ∀ a, Lasts inv rely (Q a))
    (hp : Attempts serve inv rely guar P p Q E)
    (hf : ∀ e, Attempts serve inv rely guar (E e) (f e) Q E') :
    Attempts serve inv rely guar P (MonadExcept.tryCatch p f) Q E' :=
  Triple.bind hserve hp fun x => match x with
    | .ok a => pure (hQ a) fun _ h => h
    | .error e => hf e

theorem weaken {P' : World → Prop} {Q' : α → World → Prop}
    (h : Attempts serve inv rely guar P p Q E) (hpre : ∀ w, P' w → P w)
    (hQ : ∀ a w, Q a w → Q' a w) (hE : ∀ e w, E e w → E' e w) :
    Attempts serve inv rely guar P' p Q' E' :=
  h.conseq (fun w _ => hpre w) fun x w _ hx => match x with
    | .ok a => hQ a w hx
    | .error e => hE e w hx

theorem pre {P' : World → Prop} (h : Attempts serve inv rely guar P p Q E)
    (hpre : ∀ w, P' w → P w) : Attempts serve inv rely guar P' p Q E :=
  h.weaken hpre (fun _ _ h => h) fun _ _ h => h

theorem gives {Q' : α → World → Prop} (h : Attempts serve inv rely guar P p Q E)
    (hQ : ∀ a w, Q a w → Q' a w) : Attempts serve inv rely guar P p Q' E :=
  h.weaken (fun _ h => h) hQ fun _ _ h => h

theorem forget (h : Attempts serve inv rely guar P p Q E) :
    Attempts serve inv rely guar P p Q fun _ _ => True :=
  h.weaken (fun _ h => h) (fun _ _ h => h) fun _ _ _ => trivial

section

variable (hserve : ∀ f w r, inv w → inv (serve f w r).2) (hR : Lasts inv rely R)

include hserve hR

/-- What is known stays known through a program that leaves it true. -/
theorem frame (hkeep : ∀ f w r, inv w → among r → R w → R (serve f w r).2)
    (hp : Every among p.run) (h : Attempts serve inv rely guar P p Q E) :
    Attempts serve inv rely guar (fun w => P w ∧ R w) p (fun a w => Q a w ∧ R w)
      fun e w => E e w ∧ R w :=
  (Triple.frame (fun c w => c.keeps w) hserve (stable_of_rely hR) hkeep hp h).conseq
    (fun _ _ hw => hw) fun x _ _ hx => match x with
      | .ok _ => hx
      | .error _ => hx

theorem frame_good (hkeep : ∀ w r v, inv w → guar w r v → R w → R v)
    (h : Attempts serve inv rely guar P p Q E) :
    Attempts serve inv rely guar (fun w => P w ∧ R w) p (fun a w => Q a w ∧ R w)
      fun e w => E e w ∧ R w :=
  (Triple.frame_good (fun c w => c.keeps w) hserve (stable_of_rely hR) hkeep h).conseq
    (fun _ _ hw => hw) fun x _ _ hx => match x with
      | .ok _ => hx
      | .error _ => hx

/-- A program whose requests are all good ones, and leave what is known true. -/
theorem keeps {among : Req → Prop} {p : ExceptT ε (Program Req Resp) α}
    (hkeep : ∀ f w r, inv w → among r → R w → R (serve f w r).2)
    (hgood : ∀ f w r, inv w → among r → guar w r (serve f w r).2) (hp : Every among p.run) :
    Attempts serve inv rely guar R p (fun _ => R) fun _ => R := by
  have hsafe : Attempts serve inv rely guar (fun _ => True) p (fun _ _ => True)
      fun _ _ => True :=
    (Triple.of_every hgood hp).conseq (fun _ _ h => h) fun x _ _ _ => match x with
      | .ok _ => trivial
      | .error _ => trivial
  exact (hsafe.frame hserve hR hkeep hp).weaken (fun _ h => ⟨trivial, h⟩) (fun _ _ h => h.2)
    fun _ _ h => h.2

/-- A program whose requests are good ones, and leave what is known true, where it is known. -/
theorem keeps_where
    (hgood : ∀ f w r, inv w → among r → R w → guar w r (serve f w r).2 ∧ R (serve f w r).2)
    (hp : Every among p.run) : Attempts serve inv rely guar R p (fun _ => R) fun _ => R := by
  have hsafe : ∀ {γ : Type} {p : Program Req Resp γ}, Every among p → ∀ w, inv w → R w →
      Safe serve (interfere inv rely) inv guar (fun _ => R) p w := by
    intro γ p hp
    induction p with
    | pure a =>
      intro w hinv hw v hlater _
      exact ((stable_of_rely hR).later (fun c w => c.keeps w) hlater hinv hw).2
    | call r k ih =>
      intro w hinv hw v hlater hinv' fault
      have hv := ((stable_of_rely hR).later (fun c w => c.keeps w) hlater hinv hw).2
      obtain ⟨hok, hkept⟩ := hgood fault v r hinv' hp.1 hv
      exact ⟨hok, ih _ (hp.2 _) _ (hserve fault v r hinv') hkept⟩
  exact fun w hinv hw => (hsafe hp w hinv hw).mono fun x _ _ hx => match x with
    | .ok _ => hx
    | .error _ => hx

end

theorem of_exists {P : β → World → Prop} (h : ∀ b, Attempts serve inv rely guar (P b) p Q E) :
    Attempts serve inv rely guar (fun w => ∃ b, P b w) p Q E :=
  Triple.of_exists h

theorem of_each (h : ∀ w, inv w → P w → Attempts serve inv rely guar (fun v => v = w) p Q E) :
    Attempts serve inv rely guar P p Q E :=
  fun w hinv hw => h w hinv hw w hinv rfl

/-- A loop over a list: what holds of all that is done is kept with every entry. -/
theorem forM_prefix {f : α → ExceptT ε (Program Req Resp) PUnit} {P : List α → World → Prop}
    (hserve : ∀ f w r, inv w → inv (serve f w r).2) (hP : ∀ done, Lasts inv rely (P done))
    (hE : ∀ e, Lasts inv rely (E e)) (h : ∀ done x, done ++ [x] <+: xs →
      Attempts serve inv rely guar (P done) (f x) (fun _ => P (done ++ [x])) E) :
    Attempts serve inv rely guar (P []) (xs.forM f) (fun _ => P xs) E := by
  suffices hrest : ∀ rest done, done ++ rest = xs →
      Attempts serve inv rely guar (P done) (rest.forM f) (fun _ => P xs) E from
    hrest xs [] rfl
  intro rest
  induction rest with
  | nil =>
    intro done hdone
    rw [append_nil] at hdone
    subst hdone
    exact pure (hP done) fun _ hw => hw
  | cons x rest ih =>
    intro done hdone
    have hsplit : done ++ [x] ++ rest = xs := by simpa using hdone
    exact bind hserve hE (h done x ⟨rest, hsplit⟩) fun _ => ih (done ++ [x]) hsplit

theorem foldlM {f : β → α → ExceptT ε (Program Req Resp) β} {P : β → World → Prop}
    (hserve : ∀ f w r, inv w → inv (serve f w r).2) (hP : ∀ b, Lasts inv rely (P b))
    (hE : ∀ e, Lasts inv rely (E e))
    (h : ∀ b, ∀ x ∈ xs, Attempts serve inv rely guar (P b) (f b x) P E) (b : β) :
    Attempts serve inv rely guar (P b) (xs.foldlM f b) P E := by
  induction xs generalizing b with
  | nil => exact pure (hP b) fun _ hw => hw
  | cons x xs ih =>
    rw [foldlM_cons]
    exact bind hserve hE (h b x mem_cons_self) fun c =>
      ih (fun d y hy => h d y (mem_cons_of_mem x hy)) c

theorem forM {f : α → ExceptT ε (Program Req Resp) PUnit}
    (hserve : ∀ f w r, inv w → inv (serve f w r).2) (hP : Lasts inv rely P)
    (hE : ∀ e, Lasts inv rely (E e))
    (h : ∀ x ∈ xs, Attempts serve inv rely guar P (f x) (fun _ => P) E) :
    Attempts serve inv rely guar P (xs.forM f) (fun _ => P) E :=
  forM_prefix (P := fun _ => P) hserve (fun _ => hP) hE fun _ x hx =>
    h x (hx.subset (by simp))

end Attempts

end Attempts

section Ask

variable {Result : Req → Type} {serve : Fault → World → (r : Req) → Except ε (Result r) × World}

theorem Every.ask {among : Req → Prop} {r : Req} (h : among r) :
    Every among (ExceptT.mk (Program.ask r) :
      ExceptT ε (Program Req fun r => Except ε (Result r)) (Result r)).run :=
  ⟨h, fun _ => trivial⟩

theorem Attempts.ask {r : Req} {Q : Result r → World → Prop} {E : ε → World → Prop}
    (hserve : ∀ f w r, inv w → inv (serve f w r).2) (hP : Lasts inv rely P)
    (hQ : ∀ a, Lasts inv rely (Q a)) (hE : ∀ e, Lasts inv rely (E e))
    (h : ∀ w fault, inv w → P w → guar w r (serve fault w r).2 ∧
      outcome Q E (serve fault w r).1 (serve fault w r).2) : Attempts serve inv rely guar P
      (ExceptT.mk (Program.ask r) : ExceptT ε (Program Req fun r => Except ε (Result r)) _) Q E :=
  Triple.ask (fun c w => c.keeps w) hserve (stable_of_rely hP)
    (fun x => stable_of_rely (match x with
      | .ok a => hQ a
      | .error e => hE e)) h

end Ask

end Interference
