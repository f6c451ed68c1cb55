import KubevirtUi.Library.Raising

/-!
# A program that runs alone

Nobody acts between the requests of the program, and every request may meet a fault of its own:
the requests are counted, and the faults are given by the count. Of a program that may raise, each
rule says what the whole does from what its first part does.
-/

namespace Interference

variable {World Req Fault α β ε : Type} {Resp : Req → Type} {p : ExceptT ε (Program Req Resp) α}
  {h : ε → ExceptT ε (Program Req Resp) α} {w v u : World} {a : α} {e : ε}
  {serve : Fault → World → (r : Req) → Resp r × World}

section Perform

variable (serve : Fault → World → (r : Req) → Resp r × World) (faults : Nat → Fault)

/-- Run a program from a count of requests on: what it returns, the count, and the world. -/
def Program.perform : Program Req Resp α → Nat → World → α × Nat × World
  | .pure a, n, w => (a, n, w)
  | .call r k, n, w =>
    (k (serve (faults n) w r).1).perform (n + 1) (serve (faults n) w r).2

theorem Program.perform_bind (p : Program Req Resp α) (f : α → Program Req Resp β) (n : Nat)
    (w : World) : (p >>= f).perform serve faults n w =
      (f (p.perform serve faults n w).1).perform serve faults (p.perform serve faults n w).2.1
        (p.perform serve faults n w).2.2 := by
  change (p.bind f).perform serve faults n w = _
  induction p generalizing n w with
  | pure a => rfl
  | call r k ih => exact ih _ _ _

/-- The program, run alone, ends so. -/
def Ends (p : ExceptT ε (Program Req Resp) α) (n : Nat) (w : World) (x : Except ε α) (m : Nat)
    (v : World) : Prop :=
  p.run.perform serve faults n w = (x, m, v)

variable {serve faults} {f : α → ExceptT ε (Program Req Resp) β} {n m k : Nat}

variable {y : Except ε β}

namespace Ends

theorem pure : Ends serve faults (Pure.pure a : ExceptT ε (Program Req Resp) α) n w (.ok a) n w :=
  rfl

theorem throw :
    Ends serve faults (MonadExcept.throw e : ExceptT ε (Program Req Resp) α) n w (.error e) n w :=
  rfl

theorem unique {x y : Except ε α} (h : Ends serve faults p n w x m v)
    (h' : Ends serve faults p n w y k u) : x = y ∧ m = k ∧ v = u := by
  have hsame := h.symm.trans h'
  simp only [Prod.mk.injEq] at hsame
  exact hsame

variable (serve faults) in
theorem exists_end (p : ExceptT ε (Program Req Resp) α) (n : Nat) (w : World) :
    ∃ x m v, Ends serve faults p n w x m v :=
  ⟨_, _, _, rfl⟩

theorem perform_bind {x : Except ε α} (hp : Ends serve faults p n w x m v)
    (next : Except ε α → Program Req Resp β) :
    (p.run >>= next).perform serve faults n w = (next x).perform serve faults m v := by
  rw [Ends] at hp
  rw [Program.perform_bind, hp]

theorem bind (hp : Ends serve faults p n w (.ok a) m v) (hf : Ends serve faults (f a) m v y k u) :
    Ends serve faults (p >>= f) n w y k u :=
  (hp.perform_bind _).trans hf

theorem bind_error (hp : Ends serve faults p n w (.error e) m v) :
    Ends serve faults (p >>= f) n w (.error e) m v :=
  hp.perform_bind _

/-- After a first part that is known to return, what is left is the second. -/
theorem rest (hpf : Ends serve faults (p >>= f) n w y k u)
    (hp : Ends serve faults p n w (.ok a) m v) : Ends serve faults (f a) m v y k u := by
  obtain ⟨z, m', v', hf⟩ := exists_end serve faults (f a) m v
  obtain ⟨rfl, rfl, rfl⟩ := hpf.unique (hp.bind hf)
  exact hf

variable (serve faults f) in
/-- What comes of a sequence whose first part has ended so. -/
def Goes : Except ε α → Nat → World → Except ε β → Nat → World → Prop
  | .ok a, m, v, y, k, u => Ends serve faults (f a) m v y k u
  | .error e, m, v, y, k, u => y = .error e ∧ k = m ∧ u = v

theorem exists_first (hpf : Ends serve faults (p >>= f) n w y k u) :
    ∃ x m v, Ends serve faults p n w x m v ∧ Goes serve faults f x m v y k u := by
  obtain ⟨x, m, v, hp⟩ := exists_end serve faults p n w
  refine ⟨x, m, v, hp, ?_⟩
  cases x with
  | ok a => exact hpf.rest hp
  | error e => exact hpf.unique (bind_error hp)

theorem of_bind (hpf : Ends serve faults (p >>= f) n w y k u) :
    (∃ a m v, Ends serve faults p n w (.ok a) m v ∧ Ends serve faults (f a) m v y k u) ∨
      ∃ e, y = .error e ∧ Ends serve faults p n w (.error e) k u := by
  obtain ⟨x, m, v, hp, hgoes⟩ := hpf.exists_first
  cases x with
  | ok a => exact .inl ⟨a, m, v, hp, hgoes⟩
  | error e =>
    obtain ⟨rfl, rfl, rfl⟩ := hgoes
    exact .inr ⟨e, rfl, hp⟩

/-- A sequence that returns has run through both of its parts. -/
theorem of_bind_ok {b : β} (hpf : Ends serve faults (p >>= f) n w (.ok b) k u) :
    ∃ a m v, Ends serve faults p n w (.ok a) m v ∧ Ends serve faults (f a) m v (.ok b) k u := by
  obtain hboth | ⟨e, he, -⟩ := of_bind hpf
  · exact hboth
  · exact nomatch he

theorem tryCatch_ok (hp : Ends serve faults p n w (.ok a) m v) :
    Ends serve faults (MonadExcept.tryCatch p h) n w (.ok a) m v :=
  hp.perform_bind _

theorem tryCatch_error {y : Except ε α} (hp : Ends serve faults p n w (.error e) m v)
    (hh : Ends serve faults (h e) m v y k u) :
    Ends serve faults (MonadExcept.tryCatch p h) n w y k u :=
  (hp.perform_bind _).trans hh

/-- After a first part that is known to raise, what is left is the handler. -/
theorem handler {y : Except ε α} (hph : Ends serve faults (MonadExcept.tryCatch p h) n w y k u)
    (hp : Ends serve faults p n w (.error e) m v) : Ends serve faults (h e) m v y k u := by
  obtain ⟨z, m', v', hh⟩ := exists_end serve faults (h e) m v
  obtain ⟨rfl, rfl, rfl⟩ := hph.unique (tryCatch_error hp hh)
  exact hh

end Ends

variable (serve faults) in
/-- The worlds that the requests lead to, one after the other. -/
def Program.worlds : Program Req Resp α → Nat → World → List World
  | .pure _, _, _ => []
  | .call r k, n, w =>
    (serve (faults n) w r).2 ::
      (k (serve (faults n) w r).1).worlds (n + 1) (serve (faults n) w r).2

theorem Program.worlds_bind (p : Program Req Resp α) (f : α → Program Req Resp β) (n : Nat)
    (w : World) : (p >>= f).worlds serve faults n w = p.worlds serve faults n w ++
      (f (p.perform serve faults n w).1).worlds serve faults (p.perform serve faults n w).2.1
        (p.perform serve faults n w).2.2 := by
  change (p.bind f).worlds serve faults n w = _
  induction p generalizing n w with
  | pure a => rfl
  | call r k ih => exact congrArg (_ :: ·) (ih _ _ _)

/-- They are those of a part that has ended, and those of what comes after it. -/
theorem Ends.mem_worlds {x : Except ε α} (hp : Ends serve faults p n w x m v)
    {next : Except ε α → Program Req Resp β} (h : u ∈ (p.run >>= next).worlds serve faults n w) :
    u ∈ p.run.worlds serve faults n w ∨ u ∈ (next x).worlds serve faults m v := by
  rw [Ends] at hp
  rwa [Program.worlds_bind, hp, List.mem_append] at h

variable (serve faults) in
/-- The program ends so, and meets only such worlds on the way. -/
structure Passes (P : World → Prop) (p : ExceptT ε (Program Req Resp) α) (n : Nat) (w : World)
    (x : Except ε α) (m : Nat) (v : World) : Prop where
  ends : Ends serve faults p n w x m v
  way : ∀ u ∈ p.run.worlds serve faults n w, P u

namespace Passes

variable {P Q : World → Prop}

theorem pure :
    Passes serve faults P (Pure.pure a : ExceptT ε (Program Req Resp) α) n w (.ok a) n w :=
  ⟨.pure, fun _ hu => nomatch hu⟩

theorem throw : Passes serve faults P
    (MonadExcept.throw e : ExceptT ε (Program Req Resp) α) n w (.error e) n w :=
  ⟨.throw, fun _ hu => nomatch hu⟩

theorem bind (hp : Passes serve faults P p n w (.ok a) m v)
    (hf : Passes serve faults P (f a) m v y k u) : Passes serve faults P (p >>= f) n w y k u :=
  ⟨hp.ends.bind hf.ends, fun _ hx =>
    (hp.ends.mem_worlds hx).elim (hp.way _) (hf.way _)⟩

theorem bind_error (hp : Passes serve faults P p n w (.error e) m v) :
    Passes serve faults P (p >>= f) n w (.error e) m v :=
  ⟨Ends.bind_error hp.ends, fun _ hx =>
    (hp.ends.mem_worlds hx).elim (hp.way _) nofun⟩

theorem tryCatch_ok (hp : Passes serve faults P p n w (.ok a) m v) :
    Passes serve faults P (MonadExcept.tryCatch p h) n w (.ok a) m v :=
  ⟨hp.ends.tryCatch_ok, fun _ hx =>
    (hp.ends.mem_worlds hx).elim (hp.way _) nofun⟩

theorem tryCatch_error {y : Except ε α} (hp : Passes serve faults P p n w (.error e) m v)
    (hh : Passes serve faults P (h e) m v y k u) :
    Passes serve faults P (MonadExcept.tryCatch p h) n w y k u :=
  ⟨hp.ends.tryCatch_error hh.ends, fun _ hx =>
    (hp.ends.mem_worlds hx).elim (hp.way _) (hh.way _)⟩

end Passes

end Perform

section Still

variable {Action : Type} {faults : Nat → Fault} {act : Action → World → World} {inv : World → Prop}
  {good : World → Req → World → Prop}

/-- Others do nothing at all. -/
def still (w v : World) : Prop := v = w

theorem lasts_still (P : World → Prop) : Lasts inv still P := by
  rintro w v - - rfl h
  exact h

/-- A program that is safe is so when it runs alone, and what all good requests keep is kept. -/
theorem Safe.perform {post : α → World → Prop} {J : World → Prop}
    (hserve : ∀ f w r, inv w → inv (serve f w r).2) (hJ : ∀ w r v, inv w → good w r v → J w → J v)
    {p : Program Req Resp α} (h : Safe serve act inv good post p w) (hinv : inv w) (hw : J w)
    (n : Nat) : post (p.perform serve faults n w).1 (p.perform serve faults n w).2.2 ∧
      inv (p.perform serve faults n w).2.2 ∧ J (p.perform serve faults n w).2.2 := by
  induction p generalizing w n with
  | pure a => exact ⟨h w .refl hinv, hinv, hw⟩
  | call r k ih =>
    obtain ⟨hgood, hrest⟩ := h w .refl hinv (faults n)
    exact ih _ hrest (hserve _ w r hinv) (hJ w r _ hinv hgood hw) (n + 1)

theorem Attempts.perform {guar : World → Req → World → Prop} {P J : World → Prop}
    {Q : α → World → Prop} {E : ε → World → Prop} (hserve : ∀ f w r, inv w → inv (serve f w r).2)
    (hJ : ∀ w r v, inv w → guar w r v → J w → J v) (h : Attempts serve inv still guar P p Q E)
    (hinv : inv w) (hP : P w) (hw : J w) (n : Nat) :
    outcome Q E (p.run.perform serve faults n w).1 (p.run.perform serve faults n w).2.2 ∧
      inv (p.run.perform serve faults n w).2.2 ∧ J (p.run.perform serve faults n w).2.2 :=
  (h w hinv hP).perform hserve hJ hinv hw n

end Still

section Ask

variable {Result : Req → Type} {serve : Fault → World → (r : Req) → Except ε (Result r) × World}
  {faults : Nat → Fault}

variable (serve faults) in
theorem Ends.ask (r : Req) (n : Nat) (w : World) : Ends serve faults (ExceptT.mk (Program.ask r) :
      ExceptT ε (Program Req fun r => Except ε (Result r)) (Result r)) n w
      (serve (faults n) w r).1 (n + 1) (serve (faults n) w r).2 :=
  rfl

variable (serve faults) in
theorem Passes.ask {P : World → Prop} (r : Req) (n : Nat) (w : World)
    (h : P (serve (faults n) w r).2) : Passes serve faults P (ExceptT.mk (Program.ask r) :
      ExceptT ε (Program Req fun r => Except ε (Result r)) (Result r)) n w
      (serve (faults n) w r).1 (n + 1) (serve (faults n) w r).2 :=
  ⟨.ask serve faults r n w, fun u hu => by
    obtain rfl := List.mem_singleton.mp hu
    exact h⟩

end Ask

section Every

variable {faults : Nat → Fault}

variable {among : Req → Prop} {R : World → World → Prop} {p : Program Req Resp α}

/-- What each of the requests does to the world, if that adds up, the whole program does. -/
theorem Every.perform (hrefl : ∀ w, R w w) (htrans : ∀ w v u, R w v → R v u → R w u)
    (hstep : ∀ f w r, among r → R w (serve f w r).2) (h : Every among p) (n : Nat) (w : World) :
    R w (p.perform serve faults n w).2.2 := by
  induction p generalizing n w with
  | pure a => exact hrefl w
  | call r k ih => exact htrans _ _ _ (hstep _ w r h.1) (ih _ (h.2 _) _ _)

theorem Every.run {faults : Req → Fault} (hrefl : ∀ w, R w w)
    (htrans : ∀ w v u, R w v → R v u → R w u)
    (hstep : ∀ w r, among r → R w (serve (faults r) w r).2) (h : Every among p) (w : World) :
    R w (p.run serve faults w).2 := by
  induction p generalizing w with
  | pure a => exact hrefl w
  | call r k ih => exact htrans _ _ _ (hstep w r h.1) (ih _ (h.2 _) _)

theorem Ends.of_every {p : ExceptT ε (Program Req Resp) α} {x : Except ε α} {n m : Nat}
    (h : Ends serve faults p n w x m u) (hp : Every among p.run) (hrefl : ∀ w, R w w)
    (htrans : ∀ w v u, R w v → R v u → R w u) (hstep : ∀ f w r, among r → R w (serve f w r).2) :
    R w u := by
  have hend : R w (p.run.perform serve faults n w).2.2 := hp.perform hrefl htrans hstep n w
  rw [Ends] at h
  rwa [h] at hend

end Every

section Gives

variable (serve : Fault → World → (r : Req) → Resp r × World) (faults : Req → Fault)

/-- Where the faults depend on the request and on nothing else, the program comes to that: what it
returns or raises, and the world that it leaves. -/
def Gives (p : ExceptT ε (Program Req Resp) α) (w : World) (x : Except ε α) (v : World) : Prop :=
  p.run.run serve faults w = (x, v)

variable {serve faults} {f : α → ExceptT ε (Program Req Resp) β}

variable {x y : Except ε α}

namespace Gives

theorem pure : Gives serve faults (Pure.pure a : ExceptT ε (Program Req Resp) α) w (.ok a) w := rfl

theorem throw :
    Gives serve faults (MonadExcept.throw e : ExceptT ε (Program Req Resp) α) w (.error e) w := rfl

theorem run_bind (hp : Gives serve faults p w x v) (next : Except ε α → Program Req Resp β) :
    (p.run >>= next).run serve faults w = (next x).run serve faults v := by
  rw [Gives] at hp
  rw [Program.run_bind, hp]

theorem bind {y : Except ε β} (hp : Gives serve faults p w (.ok a) v)
    (hf : Gives serve faults (f a) v y u) : Gives serve faults (p >>= f) w y u :=
  (hp.run_bind _).trans hf

theorem bind_error (hp : Gives serve faults p w (.error e) v) :
    Gives serve faults (p >>= f) w (.error e) v :=
  hp.run_bind _

theorem tryCatch_ok (hp : Gives serve faults p w (.ok a) v) :
    Gives serve faults (MonadExcept.tryCatch p h) w (.ok a) v :=
  hp.run_bind _

theorem tryCatch_error (hp : Gives serve faults p w (.error e) v)
    (hh : Gives serve faults (h e) v y u) : Gives serve faults (MonadExcept.tryCatch p h) w y u :=
  (hp.run_bind _).trans hh

variable (serve faults) in
theorem exists_gives (p : ExceptT ε (Program Req Resp) α) (w : World) :
    ∃ x v, Gives serve faults p w x v :=
  ⟨_, _, rfl⟩

/-- A loop over a list whose every turn leaves the world as it is: it comes to what the turns come
to, one after the other, and ends with the first that fails. -/
theorem foldlM {ι : Type} {step : α → ι → ExceptT ε (Program Req Resp) α}
    {result : α → ι → Except ε α} {xs : List ι}
    (hstep : ∀ a, ∀ x ∈ xs, Gives serve faults (step a x) w (result a x) w) (a : α) :
    Gives serve faults (xs.foldlM step a) w (xs.foldlM result a) w := by
  induction xs generalizing a with
  | nil => exact pure
  | cons x xs ih =>
    have hrest := ih fun a y hy => hstep a y (List.mem_cons_of_mem x hy)
    have hfirst := hstep a x List.mem_cons_self
    rw [List.foldlM_cons, List.foldlM_cons]
    cases hresult : result a x with
    | ok b =>
      rw [hresult] at hfirst
      exact hfirst.bind (hrest b)
    | error e =>
      rw [hresult] at hfirst
      exact hfirst.bind_error

end Gives

end Gives

end Interference
