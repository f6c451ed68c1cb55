import KubevirtUi.Cas.Patch

/-!
# What a compare-and-set client achieves

A client writes at most once. If it says that it has written, its patch is in the
history, at a place where its function returns that patch for the spec; if it has
nothing to write its function said so for a spec that the object had; and if it gives
up it has changed nothing.
-/

namespace Cas

open Interference

variable {ι : Type} [DecidableEq ι]

/-- A patch that one of the functions returns for the spec as it is. -/
def Earned (mutates : String → (Json → Option Json) → Prop) (key : String) (patch : Json)
    (specs : String → Option Json) : Prop :=
  ∃ mutate spec, mutates key mutate ∧ specs key = some spec ∧ mutate (specOf spec) = some patch

/-- What a client's request may do: merge one patch, once, that it has earned. -/
def Guaranteed (init : String → Option Json) (mutates : String → (Json → Option Json) → Prop)
    (i : ι) (w v : World ι) : Prop :=
  ∀ key patch, v.history = w.history ++ [.merged i key patch] →
    writes i w.history = 0 ∧ Earned mutates key patch (replay init w.history)

/-- What a client relies on: the others do not write in its name, and whatever else is
asked of them. -/
def Relied (extra : World ι → World ι → Prop) (i : ι) (w v : World ι) : Prop :=
  Passes w v ∧ writes i v.history = writes i w.history ∧ extra w v

/-- A program that keeps to its guarantee, and what it achieves. -/
abbrev Does (init : String → Option Json) (mutates : String → (Json → Option Json) → Prop)
    (extra : World ι → World ι → Prop) (i : ι) {α : Type} (P : World ι → Prop) (p : Call α)
    (Q : α → World ι → Prop) : Prop :=
  Interference.Does (serve i) (Sound init) (Relied extra i) (Guaranteed init mutates i) P p Q

variable {key : String} {M : World ι → Prop} {mutate : Json → Option Json}

variable {init : String → Option Json} {mutates : String → (Json → Option Json) → Prop}
  {extra : World ι → World ι → Prop} {i : ι}

section Rules

variable {α β : Type} {P : World ι → Prop}

/-- What nobody else makes false. -/
abbrev Lasts (init : String → Option Json) (extra : World ι → World ι → Prop) (i : ι)
    (P : World ι → Prop) : Prop :=
  Interference.Lasts (Sound init) (Relied extra i) P

theorem lasts_writes (n : Nat) : Lasts init extra i fun w => writes i w.history = n :=
  fun _ _ _ _ h hw => h.2.1.trans hw

theorem lasts_known (key : String) (x : Versioned Json) :
    Lasts init extra i fun w => w.objects.Known w.clock key x :=
  fun _ _ _ _ h hw => h.1.known key x hw

theorem lasts_past (Q : List (Event ι) → Prop) :
    Lasts init extra i fun w => ∃ h, h <+: w.history ∧ Q h :=
  fun _ _ _ _ hpass ⟨h, hpre, hQ⟩ => ⟨h, hpre.trans hpass.1.history, hQ⟩

theorem Does.bind {p : Call α} {f : α → Call β} {Q : α → World ι → Prop} {R : β → World ι → Prop}
    (hp : Does init mutates extra i P p Q) (hf : ∀ a, Does init mutates extra i (Q a) (f a) R) :
    Does init mutates extra i P (p >>= f) R :=
  Interference.Does.bind (fun f _ r hw => hw.serve f r) hp hf

theorem Does.ask {r : Request} {Q : r.Response → World ι → Prop} (hP : Lasts init extra i P)
    (hQ : ∀ x, Lasts init extra i (Q x))
    (h : ∀ w fault, Sound init w → P w → Guaranteed init mutates i w (serve i fault w r).2 ∧
      Q (serve i fault w r).1 (serve i fault w r).2) : Does init mutates extra i P (Cas.ask r) Q :=
  Interference.Does.ask (fun f _ r hw => hw.serve f r) hP hQ h

theorem guaranteed_of_history_eq {w v : World ι} (h : v.history = w.history) :
    Guaranteed init mutates i w v := by
  intro key patch hmerged
  rw [h] at hmerged
  exact absurd (congrArg List.length hmerged) (by simp)

/-- A read: what was known is still known, and the answer is the object, or that there is
none, or something else. -/
theorem Does.get (hP : Lasts init extra i P) (hM : Lasts init extra i M)
    (hmissed : ∀ w, Sound init w → w.objects.lookup key = none →
      M { w with history := w.history ++ [.missed i key] })
    (hPM : ∀ w, P w → P { w with history := w.history ++ [.missed i key] }) :
    Does init mutates extra i P (Cas.ask (.get key)) fun x w => P w ∧
      (x = .error 404 → M w) ∧
      ∀ item, x = .ok item → w.objects.Known w.clock key item ∧
        ∃ h, h <+: w.history ∧ replay init h key = some item.value := by
  refine .ask hP (fun x => hP.and (Lasts.and ?_ ?_)) fun w fault hw hPw => ?_
  · exact fun w v hw hv h hx hmiss => hM w v hw hv h (hx hmiss)
  · exact fun w v hw hv h hx item hitem =>
      (Lasts.and (lasts_known key item) (lasts_past _)) w v hw hv h (hx item hitem)
  · cases fault with
    | some status =>
      refine ⟨guaranteed_of_history_eq rfl, hPw, fun hmiss => ?_, fun item hitem => ?_⟩
      · exact absurd (Except.error.inj hmiss) status.2
      · exact absurd hitem (by simp [serve])
    | none =>
      cases hlookup : w.objects.lookup key with
      | none =>
        simp only [serve, commit, hlookup]
        refine ⟨fun key' patch hmerged => ?_, hPM w hPw, fun _ => hmissed w hw hlookup,
          fun item hitem => absurd hitem (by simp)⟩
        exact absurd (List.append_cancel_left hmerged) (by simp)
      | some found =>
        simp only [serve, commit, hlookup]
        refine ⟨guaranteed_of_history_eq rfl, hPw, fun hmiss => absurd hmiss (by simp),
          fun item hitem => ?_⟩
        obtain rfl := Except.ok.inj hitem
        refine ⟨hw.1.known hlookup, w.history, List.prefix_rfl, ?_⟩
        rw [← hw.2 key, hlookup]
        rfl

end Rules

section Attempts

/-- The client wrote once, and its function returned the patch for the spec as it was. -/
def Written (init : String → Option Json) (i : ι) (key : String) (mutate : Json → Option Json)
    (w : World ι) : Prop :=
  writes i w.history = 1 ∧ ∃ h, h <+: w.history ∧ ∃ before patch spec,
    h = before ++ [.merged i key patch] ∧ replay init before key = some spec ∧
      mutate (specOf spec) = some patch

/-- The client did not write, as its function had nothing to do for a spec that the object
had. -/
def Idle (init : String → Option Json) (key : String) (mutate : Json → Option Json)
    (w : World ι) : Prop :=
  ∃ h, h <+: w.history ∧ ∃ spec, replay init h key = some spec ∧ mutate (specOf spec) = none

/-- What is so after some attempts, depending on what they returned. -/
def Tried (init : String → Option Json) (i : ι) (key : String) (mutate : Json → Option Json)
    (M : World ι → Prop) (left : Nat) (w : World ι) : Except Failure Bool → Prop
  | .ok true => Written init i key mutate w
  | .ok false => writes i w.history = 0 ∧ (left = 0 ∨ M w ∨ Idle init key mutate w)
  | .error _ => writes i w.history = 0

theorem lasts_written (key : String) (mutate : Json → Option Json) :
    Lasts init extra i (Written init i key mutate) :=
  (lasts_writes 1).and (lasts_past _)

/-- A patch: it is merged into the spec that it was computed from, or refused. -/
theorem does_patch (hmut : mutates key mutate) {item : Versioned Json} {patch : Json}
    (hpatch : mutate (specOf item.value) = some patch) : Does init mutates extra i
      (fun w => writes i w.history = 0 ∧ w.objects.Known w.clock key item)
      (ask (.patch key item.version patch)) fun x w =>
        (x = .ok () → Written init i key mutate w) ∧
          ∀ status, x = .error status → writes i w.history = 0 := by
  refine .ask ((lasts_writes 0).and (lasts_known key item)) (fun x => Lasts.and ?_ ?_)
    fun w fault hw hPw => ?_
  · exact fun w v hw hv h hx hok => lasts_written key mutate w v hw hv h (hx hok)
  · exact fun w v hw hv h hx status hs => lasts_writes 0 w v hw hv h (hx status hs)
  · cases fault with
    | some status => exact ⟨guaranteed_of_history_eq rfl, by simp [serve], fun _ _ => hPw.1⟩
    | none =>
      cases hlookup : w.objects.lookup key with
      | none =>
        simp only [serve, commit, hlookup]
        exact ⟨guaranteed_of_history_eq rfl, by simp, fun _ _ => hPw.1⟩
      | some found =>
        by_cases hversion : found.version = item.version
        · obtain rfl := hPw.2.2 found hlookup hversion
          have hspec : replay init w.history key = some found.value := by
            rw [← hw.2 key, hlookup]
            rfl
          simp only [serve, commit, hlookup, if_true]
          refine ⟨fun key' patch' hmerged => ?_, fun _ => ⟨?_, ?_⟩, by simp⟩
          · simp only [List.append_cancel_left_eq, List.cons.injEq, Event.merged.injEq,
              true_and, and_true] at hmerged
            obtain ⟨rfl, rfl⟩ := hmerged
            exact ⟨hPw.1, mutate, found.value, hmut, hspec, hpatch⟩
          · rw [writes_append, hPw.1]
            simp [writes]
          · exact ⟨_, List.prefix_rfl, w.history, patch, found.value, rfl, hspec, hpatch⟩
        · simp only [serve, commit, hlookup, hversion, if_false]
          exact ⟨guaranteed_of_history_eq rfl, by simp, fun _ _ => hPw.1⟩

theorem does_attempts (hmut : mutates key mutate) (hM : Lasts init extra i M)
    (hmissed : ∀ w, Sound init w → w.objects.lookup key = none →
      M { w with history := w.history ++ [.missed i key] }) (left : Nat) :
    Does init mutates extra i (fun w => writes i w.history = 0) (attempts key mutate left)
      fun x w => Tried init i key mutate M left w x := by
  induction left with
  | zero => exact .pure (lasts_writes 0) fun w hw => ⟨hw, .inl rfl⟩
  | succ left ih =>
    refine .bind (Does.get (lasts_writes 0) hM hmissed ?_) fun x => ?_
    · intro w hw
      rw [writes_append, hw]
      rfl
    · cases x with
      | error status =>
        by_cases hstatus : status = 404
        · subst hstatus
          refine Does.weaken (P := fun w => writes i w.history = 0 ∧ M w)
            (Does.pure ((lasts_writes 0).and hM) fun w hw => ?_)
            (fun w hw => ⟨hw.1, hw.2.1 rfl⟩) fun _ _ h => h
          exact ⟨hw.1, .inr (.inl hw.2)⟩
        · refine Does.weaken (P := fun w => writes i w.history = 0) ?_ (fun w hw => hw.1)
            fun _ _ h => h
          split
          · next heq => exact absurd (Except.error.inj heq) hstatus
          · exact .pure (lasts_writes 0) fun w hw => hw
          · contradiction
      | ok item =>
        refine Does.weaken (P := fun w => (writes i w.history = 0 ∧
            w.objects.Known w.clock key item) ∧
              ∃ h, h <+: w.history ∧ replay init h key = some item.value) ?_
          (fun w hw => ⟨⟨hw.1, (hw.2.2 item rfl).1⟩, (hw.2.2 item rfl).2⟩) fun _ _ h => h
        dsimp only
        cases hpatch : mutate (specOf item.value) with
        | none =>
          refine .pure (((lasts_writes 0).and (lasts_known key item)).and
            (lasts_past _)) fun w hw => ?_
          obtain ⟨⟨hw, -⟩, h, hpre, hspec⟩ := hw
          exact ⟨hw, .inr (.inr ⟨h, hpre, item.value, hspec, hpatch⟩)⟩
        | some patch =>
          refine Does.bind (Does.weaken (does_patch hmut hpatch) (fun w hw => hw.1)
            fun _ _ h => h) fun y => ?_
          cases y with
          | ok done =>
            exact Does.weaken (Does.pure (lasts_written key mutate) fun w hw => hw)
              (fun w hw => hw.1 rfl) fun _ _ h => h
          | error status =>
            dsimp only
            split
            · next hretry =>
                refine Does.weaken ih (fun w hw => hw.2 status rfl) fun z w hz => ?_
                cases z with
                | ok tried =>
                  cases tried with
                  | true => exact hz
                  | false => exact ⟨hz.1, .inr (hz.2.resolve_left (by omega))⟩
                | error e => exact hz
            · exact Does.weaken (Does.pure (lasts_writes 0) fun w hw => hw)
                (fun w hw => hw.2 status rfl) fun _ _ h => h

end Attempts

end Cas
