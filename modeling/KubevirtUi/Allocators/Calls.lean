import KubevirtUi.Allocators.Counter
import KubevirtUi.Library.Logs
import Mathlib.Data.List.Induction

/-!
# What concurrent allocations achieve

A counter that is replaced under the version of a read is still the counter that was
read, so an index was picked from the very counter that its reservation moves. Every
client reserves once at most, and one that returns a result has reserved it.

A call that returns a result has chosen it from the counter that its reservation moved
and from its last listing. The log of a run is orderly: every reservation is of this
kind, nobody reserves twice, and every listing shows what was in use at the time.
-/

namespace Allocators

open Interference

variable {ι σ α : Type}

/-- The counter that a log leaves. -/
def current (init : Int) (log : List (Event ι σ)) : Int :=
  log.foldl (fun n e => match e with
    | .reserved _ next => next
    | _ => n) init

/-- What is in use after a log. -/
def clusterAfter (start : σ) (log : List (Event ι σ)) : σ :=
  log.foldl (fun s e => match e with
    | .changed cluster => cluster
    | _ => s) start

/-- The client that an event is of. -/
def Event.client? : Event ι σ → Option ι
  | .changed _ => none
  | .listed i _ => some i
  | .reserved i _ => some i

/-- The client's last listing has seen this. -/
def LastListed (i : ι) (seen : Option σ) (log : List (Event ι σ)) : Prop :=
  ∃ before more, log = before ++ .listed i seen :: more ∧ ∀ e ∈ more, e.client? ≠ some i

/-- The next index was picked from the counter as it is, and from what was listed last. -/
def Chosen (init : Int) (choose : Choose σ α) (i : ι) (next : Int) (result : α)
    (log : List (Event ι σ)) : Prop :=
  ∃ seen, LastListed i seen log ∧ choose (current init log) seen = .ok (next - 1, result)

/-- The version is timely, and the counter is the one that the log leaves. -/
structure Sound (init : Int) (w : World ι σ) : Prop where
  timely : ∀ cm, w.counter = some cm → cm.version ≤ w.clock
  counts : (w.counter.elim 0 (·.value)) = current init w.log

/-- Nothing else has ever had this version. -/
def Known (cm : Versioned Int) (w : World ι σ) : Prop :=
  cm.version ≤ w.clock ∧ ∀ x, w.counter = some x → x.version = cm.version → x = cm

/-- What a client relies on: what is known stays known, and what the others do is not done
in its name. -/
structure Relied (i : ι) (w v : World ι σ) : Prop where
  known : ∀ cm, Known cm w → Known cm v
  log : ∃ more, v.log = w.log ++ more ∧ ∀ e ∈ more, e.client? ≠ some i

/-- What a client's request may do: move the counter, once, to an index it has chosen. -/
def Guaranteed (init : Int) (choose : Choose σ α) (i : ι) (w v : World ι σ) : Prop :=
  ∀ next, v.log = w.log ++ [.reserved i next] →
    (∀ n, .reserved i n ∉ w.log) ∧ ∃ result, Chosen init choose i next result w.log

section Logs

variable {log : List (Event ι σ)} {e : Event ι σ} {i j : ι}

@[simp] theorem current_concat_reserved (init : Int) (log : List (Event ι σ)) (i : ι)
    (next : Int) : current init (log ++ [.reserved i next]) = next := by
  simp [current]

theorem current_concat_of_ne (init : Int) (h : ∀ i next, e ≠ .reserved i next) :
    current init (log ++ [e]) = current init log := by
  cases e with
  | changed cluster => simp [current]
  | listed i seen => simp [current]
  | reserved i next => exact absurd rfl (h i next)

theorem LastListed.append {seen : Option σ} (h : LastListed i seen log)
    {more : List (Event ι σ)} (hmore : ∀ e ∈ more, e.client? ≠ some i) :
    LastListed i seen (log ++ more) := by
  obtain ⟨before, after, rfl, hafter⟩ := h
  refine ⟨before, after ++ more, by simp, fun e he => ?_⟩
  obtain he | he := List.mem_append.mp he
  · exact hafter e he
  · exact hmore e he

theorem lastListed_concat (i : ι) (seen : Option σ) (log : List (Event ι σ)) :
    LastListed i seen (log ++ [.listed i seen]) := ⟨log, [], rfl, by simp⟩

end Logs

variable {cm : Versioned Int}

variable {init : Int}

section Steps

variable {w : World ι σ} {i j : ι}

/-- What a request does to the world: nothing, or it lists what is in use, or it creates
the counter where there is none, or it moves the counter that has its version. -/
theorem serve_cases (fault : Fault) (w : World ι σ) (r : Request) : (serve i fault w r).2 = w ∨
    (∃ seen, r = .list ∧ (seen = none ∨ seen = some w.cluster) ∧
      (serve i fault w r).2 = { w with log := w.log ++ [.listed i seen] }) ∨
    (r = .create ∧ w.counter = none ∧
      (serve i fault w r).2 =
        { w with clock := w.clock + 1, counter := some ⟨w.clock + 1, 0⟩ }) ∨
    ∃ cm next, r = .replace cm.version next ∧ w.counter = some cm ∧
      (serve i fault w r).2 =
        { w with
          clock := w.clock + 1
          counter := some ⟨w.clock + 1, next⟩
          log := w.log ++ [.reserved i next] } := by
  cases fault with
  | some status =>
    cases r with
    | list => exact .inr (.inl ⟨none, rfl, .inl rfl, rfl⟩)
    | read => exact .inl rfl
    | create => exact .inl rfl
    | replace version next => exact .inl rfl
  | none =>
    cases r with
    | list => exact .inr (.inl ⟨some w.cluster, rfl, .inr rfl, rfl⟩)
    | read =>
      left
      cases hcounter : w.counter <;> simp [serve, commit, hcounter]
    | create =>
      cases hcounter : w.counter with
      | none => exact .inr (.inr (.inl ⟨rfl, rfl, by simp [serve, commit, hcounter]⟩))
      | some cm => exact .inl (by simp [serve, commit, hcounter])
    | replace version next =>
      cases hcounter : w.counter with
      | none => exact .inl (by simp [serve, commit, hcounter])
      | some cm =>
        by_cases hversion : cm.version = version
        · subst hversion
          exact .inr (.inr (.inr ⟨cm, next, rfl, rfl, by simp [serve, commit, hcounter]⟩))
        · exact .inl (by simp [serve, commit, hcounter, hversion])

theorem Sound.serve (h : Sound init w) (fault : Fault) (r : Request) :
    Sound init (serve i fault w r).2 := by
  obtain hsame | ⟨seen, -, -, hlisted⟩ | ⟨-, hnone, hcreated⟩ | ⟨cm, next, -, -, hmoved⟩ :=
    serve_cases (i := i) fault w r
  · rw [hsame]
    exact h
  · rw [hlisted]
    exact ⟨h.timely, h.counts.trans (current_concat_of_ne init (by simp)).symm⟩
  · rw [hcreated]
    refine ⟨fun cm hcm => (Option.some.inj hcm) ▸ le_rfl, ?_⟩
    have hcounts := h.counts
    rwa [hnone] at hcounts
  · rw [hmoved]
    refine ⟨fun cm hcm => (Option.some.inj hcm) ▸ le_rfl, ?_⟩
    rw [current_concat_reserved]
    rfl

theorem Sound.act (h : Sound init w) (cluster : σ) : Sound init (act cluster w) :=
  ⟨h.timely, h.counts.trans (current_concat_of_ne init (by simp)).symm⟩

theorem Known.newer (h : Known cm w) (next : Int) (log : List (Event ι σ)) :
    Known cm { w with clock := w.clock + 1, counter := some ⟨w.clock + 1, next⟩, log } := by
  refine ⟨Nat.le_succ_of_le h.1, fun x hx hversion => ?_⟩
  obtain rfl := Option.some.inj hx
  exact absurd hversion.symm (Nat.ne_of_lt (Nat.lt_succ_of_le h.1))

theorem relied_serve (hij : i ≠ j) (fault : Fault) (r : Request) :
    Relied j w (Allocators.serve i fault w r).2 := by
  obtain hsame | ⟨seen, -, -, hlisted⟩ | ⟨-, -, hcreated⟩ | ⟨cm, next, -, -, hmoved⟩ :=
    serve_cases (i := i) fault w r
  · rw [hsame]
    exact ⟨fun _ h => h, [], by simp, by simp⟩
  · rw [hlisted]
    exact ⟨fun _ h => h, _, rfl, by simp [Event.client?, hij]⟩
  · rw [hcreated]
    exact ⟨fun _ h => h.newer 0 w.log, [], by simp, by simp⟩
  · rw [hmoved]
    exact ⟨fun _ h => h.newer next _, _, rfl, by simp [Event.client?, hij]⟩

theorem relied_act (cluster : σ) : Relied j w (act cluster w) :=
  ⟨fun _ h => h, _, rfl, by simp [Event.client?]⟩

theorem Relied.refl (w : World ι σ) : Relied j w w := ⟨fun _ h => h, [], by simp, by simp⟩

end Steps

variable {ι σ α β : Type}

/-- A program of a client that keeps to its guarantee, and what it achieves. -/
abbrev Does (init : Int) (choose : Choose σ β) (i : ι) (P : World ι σ → Prop) (p : Call σ α)
    (Q : α → World ι σ → Prop) : Prop :=
  Interference.Does (serve i) (Sound init) (Relied i) (Guaranteed init choose i) P p Q

/-- The client has not reserved anything. -/
def Unreserved (i : ι) (log : List (Event ι σ)) : Prop := ∀ next, .reserved i next ∉ log

/-- The client has reserved the result, and has done nothing since. -/
def Done (init : Int) (choose : Choose σ β) (i : ι) (result : β) (log : List (Event ι σ)) : Prop :=
  ∃ before next more, log = before ++ .reserved i next :: more ∧
    (∀ e ∈ more, e.client? ≠ some i) ∧ Chosen init choose i next result before

section Rules

variable {choose : Choose σ β} {i : ι} {P : World ι σ → Prop}

theorem Does.bind {p : Call σ α} {γ : Type} {f : α → Call σ γ} {Q : α → World ι σ → Prop}
    {R : γ → World ι σ → Prop} (hp : Does init choose i P p Q)
    (hf : ∀ a, Does init choose i (Q a) (f a) R) : Does init choose i P (p >>= f) R :=
  Interference.Does.bind (fun f _ r hw => hw.serve f r) hp hf

theorem Does.ask {r : Request} {Q : r.Response σ → World ι σ → Prop}
    (hP : Lasts (Sound init) (Relied i) P) (hQ : ∀ x, Lasts (Sound init) (Relied i) (Q x))
    (h : ∀ w fault, Sound init w → P w → Guaranteed init choose i w (serve i fault w r).2 ∧
      Q (serve i fault w r).1 (serve i fault w r).2) : Does init choose i P (Allocators.ask r) Q :=
  Interference.Does.ask (fun f _ r hw => hw.serve f r) hP hQ h

theorem lasts_unreserved :
    Lasts (Sound init) (Relied i) fun w : World ι σ => Unreserved i w.log := by
  intro w v _ _ hrely hw next hmem
  obtain ⟨more, hlog, hmore⟩ := hrely.log
  rw [hlog] at hmem
  obtain hmem | hmem := List.mem_append.mp hmem
  · exact hw next hmem
  · exact hmore _ hmem rfl

theorem lasts_known (cm : Versioned Int) :
    Lasts (Sound init) (Relied i) (Known cm : World ι σ → Prop) :=
  fun _ _ _ _ hrely hw => hrely.known cm hw

theorem lasts_listed (seen : Option σ) :
    Lasts (Sound init) (Relied i) fun w : World ι σ => LastListed i seen w.log := by
  intro w v _ _ hrely hw
  obtain ⟨more, hlog, hmore⟩ := hrely.log
  rw [hlog]
  exact hw.append hmore

theorem lasts_done (result : β) :
    Lasts (Sound init) (Relied i) fun w : World ι σ => Done init choose i result w.log := by
  intro w v _ _ hrely ⟨before, next, after, hw, hafter, hchosen⟩
  obtain ⟨more, hlog, hmore⟩ := hrely.log
  refine ⟨before, next, after ++ more, by simp [hlog, hw], fun e he => ?_, hchosen⟩
  obtain he | he := List.mem_append.mp he
  · exact hafter e he
  · exact hmore e he

theorem guaranteed_of_log_eq {w v : World ι σ} (h : v.log = w.log) :
    Guaranteed init choose i w v := by
  intro next hreserved
  rw [h] at hreserved
  exact absurd (congrArg List.length hreserved) (by simp)

theorem does_read : Does init choose i (fun w => Unreserved i w.log)
    (Allocators.ask .read : Call σ _) fun x w =>
      Unreserved i w.log ∧ ∀ cm, x = .ok cm → Known cm w := by
  refine .ask lasts_unreserved (fun x => lasts_unreserved.and ?_) fun w fault hw hfree => ?_
  · exact fun w v hw hv hrely h cm hcm => lasts_known cm w v hw hv hrely (h cm hcm)
  · cases fault with
    | some status => exact ⟨guaranteed_of_log_eq rfl, hfree, fun cm hcm => by simp [serve] at hcm⟩
    | none =>
      cases hcounter : w.counter with
      | none =>
        simp only [serve, commit, hcounter]
        exact ⟨guaranteed_of_log_eq rfl, hfree, by simp⟩
      | some found =>
        simp only [serve, commit, hcounter]
        refine ⟨guaranteed_of_log_eq rfl, hfree, fun cm hcm => ?_⟩
        obtain rfl := Except.ok.inj hcm
        refine ⟨hw.timely found hcounter, fun x hx _ => ?_⟩
        exact Option.mem_unique hx hcounter

theorem does_create : Does init choose i (fun w => Unreserved i w.log)
    (Allocators.ask .create : Call σ _) fun x w =>
      Unreserved i w.log ∧ ∀ cm, x = .ok cm → Known cm w := by
  refine .ask lasts_unreserved (fun x => lasts_unreserved.and ?_) fun w fault hw hfree => ?_
  · exact fun w v hw hv hrely h cm hcm => lasts_known cm w v hw hv hrely (h cm hcm)
  · cases fault with
    | some status => exact ⟨guaranteed_of_log_eq rfl, hfree, fun cm hcm => by simp [serve] at hcm⟩
    | none =>
      cases hcounter : w.counter with
      | none =>
        simp only [serve, commit, hcounter]
        refine ⟨guaranteed_of_log_eq rfl, hfree, fun cm hcm => ?_⟩
        obtain rfl := Except.ok.inj hcm
        exact ⟨le_rfl, fun x hx _ => (Option.some.inj hx).symm⟩
      | some found =>
        simp only [serve, commit, hcounter]
        exact ⟨guaranteed_of_log_eq rfl, hfree, by simp⟩

theorem does_readCounter : Does init choose i (fun w => Unreserved i w.log)
    (readCounter : Call σ _) fun x w => Unreserved i w.log ∧ ∀ cm, x = .ok cm → Known cm w := by
  have hfail (e : Failure) : Does init choose i (fun w => Unreserved i w.log)
      (pure (.error e) : Call σ (Except Failure (Versioned Int))) fun x w =>
        Unreserved i w.log ∧ ∀ cm, x = .ok cm → Known cm w :=
    Does.pure lasts_unreserved fun w hw => ⟨hw, by simp⟩
  have hfound (cm : Versioned Int) : Does init choose i (fun w => Unreserved i w.log ∧ Known cm w)
      (pure (.ok cm) : Call σ (Except Failure (Versioned Int))) fun x w =>
        Unreserved i w.log ∧ ∀ cm, x = .ok cm → Known cm w :=
    Does.pure (lasts_unreserved.and (lasts_known cm)) fun w hw =>
      ⟨hw.1, fun cm' hcm => (Except.ok.inj hcm) ▸ hw.2⟩
  refine .bind does_read fun x => ?_
  match x with
  | .ok cm => exact Does.weaken (hfound cm) (fun w hw => ⟨hw.1, hw.2 cm rfl⟩) fun _ _ h => h
  | .error status =>
    dsimp only
    split
    · refine .bind (Does.weaken does_create (fun w hw => hw.1) fun _ _ h => h) fun y => ?_
      match y with
      | .ok cm => exact Does.weaken (hfound cm) (fun w hw => ⟨hw.1, hw.2 cm rfl⟩) fun _ _ h => h
      | .error status => exact Does.weaken (hfail _) (fun w hw => hw.1) fun _ _ h => h
    · exact Does.weaken (hfail _) (fun w hw => hw.1) fun _ _ h => h

theorem does_listInUse :
    Does init choose i (fun w => Unreserved i w.log ∧ Known cm w) (listInUse : Call σ _)
      fun seen w => (Unreserved i w.log ∧ Known cm w) ∧ LastListed i seen w.log := by
  have hlasts : Lasts (Sound init) (Relied i) fun w : World ι σ =>
      Unreserved i w.log ∧ Known cm w := lasts_unreserved.and (lasts_known cm)
  have hmore (w : World ι σ) (seen : Option σ) (h : Unreserved i w.log) :
      Unreserved i (w.log ++ [.listed i seen]) := by
    intro next hmem
    obtain hmem | hmem := List.mem_append.mp hmem
    · exact h next hmem
    · simp at hmem
  have hguar (w : World ι σ) (seen : Option σ) :
      Guaranteed init choose i w { w with log := w.log ++ [.listed i seen] } := by
    intro next hreserved
    simp at hreserved
  refine .bind (Q := fun x w => (Unreserved i w.log ∧ Known cm w) ∧ LastListed i (x.toOption) w.log)
    (Does.ask hlasts (fun x => hlasts.and (lasts_listed _)) fun w fault _ hw => ?_) fun x => ?_
  · cases fault with
    | some status =>
      exact ⟨hguar w none, ⟨hmore w none hw.1, hw.2⟩, lastListed_concat i none w.log⟩
    | none =>
      exact ⟨hguar w (some w.cluster), ⟨hmore w (some w.cluster) hw.1, hw.2⟩,
        lastListed_concat i (some w.cluster) w.log⟩
  · match x with
    | .ok seen => exact .pure (hlasts.and (lasts_listed _)) fun w hw => hw
    | .error _ => exact .pure (hlasts.and (lasts_listed _)) fun w hw => hw

theorem does_replace {seen : Option σ} {index : Int} {result : β}
    (hchoose : choose cm.value seen = .ok (index, result)) : Does init choose i
      (fun w => (Unreserved i w.log ∧ Known cm w) ∧ LastListed i seen w.log)
      (Allocators.ask (.replace cm.version (index + 1)) : Call σ _) fun x w => match x with
        | .ok () => Done init choose i result w.log
        | .error _ => Unreserved i w.log := by
  refine .ask ((lasts_unreserved.and (lasts_known cm)).and (lasts_listed seen))
    (fun x => ?_) fun w fault hw hlisted => ?_
  · match x with
    | .ok () => exact lasts_done result
    | .error _ => exact lasts_unreserved
  · obtain ⟨⟨hfree, hknown⟩, hlast⟩ := hlisted
    cases fault with
    | some status => exact ⟨guaranteed_of_log_eq rfl, hfree⟩
    | none =>
      cases hcounter : w.counter with
      | none =>
        simp only [serve, commit, hcounter]
        exact ⟨guaranteed_of_log_eq rfl, hfree⟩
      | some found =>
        by_cases hversion : found.version = cm.version
        · obtain rfl := hknown.2 found hcounter hversion
          have hcounts := hw.counts
          rw [hcounter] at hcounts
          have hchosen : Chosen init choose i (index + 1) result w.log := by
            refine ⟨seen, hlast, ?_⟩
            rw [← hcounts, Int.add_sub_cancel]
            exact hchoose
          simp only [serve, commit, hcounter, if_true]
          refine ⟨fun next hreserved => ?_, w.log, index + 1, [], rfl, by simp, hchosen⟩
          simp only [List.append_cancel_left_eq, List.cons.injEq, Event.reserved.injEq,
            true_and, and_true] at hreserved
          subst hreserved
          exact ⟨hfree, result, hchosen⟩
        · simp only [serve, commit, hcounter, hversion, if_false]
          exact ⟨guaranteed_of_log_eq rfl, hfree⟩

/-- An attempt reserves what it returns; one that fails has reserved nothing. -/
abbrev Reserves (init : Int) (choose : Choose σ β) (i : ι) (p : Call σ (Except Failure β)) : Prop :=
  Does init choose i (fun w => Unreserved i w.log) p fun x w => match x with
    | .ok result => Done init choose i result w.log
    | .error _ => Unreserved i w.log

theorem reserves_allocateOnce : Reserves init choose i (allocateOnce choose : Call σ _) := by
  have hfail (e : Failure) : Does init choose i (fun w => Unreserved i w.log)
      (pure (.error e) : Call σ (Except Failure β)) fun x w => match x with
        | .ok result => Done init choose i result w.log
        | .error _ => Unreserved i w.log := Does.pure lasts_unreserved fun w hw => hw
  refine .bind does_readCounter fun x => ?_
  match x with
  | .error e => exact Does.weaken (hfail e) (fun w hw => hw.1) fun _ _ h => h
  | .ok cm =>
    refine .bind (Does.weaken does_listInUse (fun w hw => ⟨hw.1, hw.2 cm rfl⟩)
      fun _ _ h => h) fun seen => ?_
    cases hchoose : choose cm.value seen with
    | error e =>
      simp only
      exact Does.weaken (hfail e) (fun w hw => hw.1.1) fun _ _ h => h
    | ok picked =>
      refine .bind (does_replace hchoose) fun y => ?_
      match y with
      | .ok () => exact .pure (lasts_done picked.2) fun w hw => hw
      | .error status => exact hfail _

theorem reserves_attempts {once : Call σ (Except Failure β)} (honce : Reserves init choose i once)
    (detail : String) (left : Nat) : Reserves init choose i (attempts once detail left) := by
  induction left with
  | zero => exact .pure lasts_unreserved fun w hw => hw
  | succ left ih =>
    refine .bind honce fun x => ?_
    match x with
    | .ok result => exact .pure (lasts_done result) fun w hw => hw
    | .error e =>
      dsimp only
      split
      · exact ih
      · exact .pure lasts_unreserved fun w hw => hw

end Rules

/-- What is there when the calls start. -/
structure Start (σ : Type) where
  clock : Nat
  counter : Option (Versioned Int)
  cluster : σ
  timely : ∀ cm, counter = some cm → cm.version ≤ clock

namespace Start

def world (s : Start σ) : World ι σ := ⟨s.clock, s.counter, s.cluster, []⟩

/-- A counter that is not there yet stands at zero. -/
def next (s : Start σ) : Int := s.counter.elim 0 (·.value)

theorem sound (s : Start σ) : Sound s.next (s.world : World ι σ) := ⟨s.timely, rfl⟩

end Start

/-- Any number of calls, none of which has asked for anything yet. -/
def calls (s : Start σ) (call : Call σ (Except Failure β)) :
    Crowd (World ι σ) Request (Request.Response σ) ι (Except Failure β) :=
  ⟨s.world, fun _ => call⟩

/-- Every reservation was chosen when it was made, and is its client's first; every listing
shows what was in use when it was made. -/
structure Orderly (init : Int) (choose : Choose σ β) (cluster : σ) (log : List (Event ι σ)) :
    Prop where
  chosen : ∀ before i next, before ++ [.reserved i next] <+: log →
    Unreserved i before ∧ ∃ result, Chosen init choose i next result before
  listed : ∀ before i seen, before ++ [.listed i (some seen)] <+: log →
    seen = clusterAfter cluster before

section Runs

variable {choose : Choose σ β} {cluster : σ} {log : List (Event ι σ)}

variable {e : Event ι σ} {w : World ι σ}

theorem Orderly.concat (h : Orderly init choose cluster log)
    (hchosen : ∀ i next, e = .reserved i next →
      Unreserved i log ∧ ∃ result, Chosen init choose i next result log)
    (hlisted : ∀ i seen, e = .listed i (some seen) → seen = clusterAfter cluster log) :
    Orderly init choose cluster (log ++ [e]) where
  chosen before i next hpre := by
    obtain ⟨rfl, hlast⟩ | hpre := Logs.last_or_before hpre
    · exact hchosen i next hlast.symm
    · exact h.chosen before i next hpre
  listed before i seen hpre := by
    obtain ⟨rfl, hlast⟩ | hpre := Logs.last_or_before hpre
    · exact hlisted i seen hlast.symm
    · exact h.listed before i seen hpre

theorem orderly_nil : Orderly init choose cluster ([] : List (Event ι σ)) where
  chosen before i next h := absurd (List.prefix_nil.mp h) (by simp)
  listed before i seen h := absurd (List.prefix_nil.mp h) (by simp)

/-- Where an index is never picked from behind the counter, the counter never goes back. -/
theorem Orderly.current_le (h : Orderly init choose cluster log)
    (hahead : ∀ n seen index result, choose n seen = .ok (index, result) → n ≤ index)
    {earlier later : List (Event ι σ)} (hearlier : earlier <+: later) (hlater : later <+: log) :
    current init earlier ≤ current init later := by
  induction later using List.reverseRecOn with
  | nil =>
    exact Int.le_of_eq (by rw [List.prefix_nil.mp hearlier])
  | append_singleton later e ih =>
    obtain rfl | hearlier := List.prefix_concat_iff.mp hearlier
    · exact Int.le_refl _
    · refine Int.le_trans (ih hearlier ((List.prefix_append _ _).trans hlater)) ?_
      cases e with
      | reserved i next =>
        obtain ⟨-, result, seen, -, hchoose⟩ := h.chosen later i next hlater
        have hle := hahead _ _ _ _ hchoose
        rw [current_concat_reserved]
        omega
      | changed s => exact Int.le_of_eq (current_concat_of_ne init (by simp)).symm
      | listed i seen => exact Int.le_of_eq (current_concat_of_ne init (by simp)).symm

/-- The log is orderly, and says what is in use. -/
def Recorded (init : Int) (choose : Choose σ β) (cluster : σ) (w : World ι σ) : Prop :=
  Orderly init choose cluster w.log ∧ w.cluster = clusterAfter cluster w.log

theorem clusterAfter_concat_of_ne (h : ∀ s, e ≠ .changed s) :
    clusterAfter cluster (log ++ [e]) = clusterAfter cluster log := by
  cases e with
  | changed s => exact absurd rfl (h s)
  | listed i seen => simp [clusterAfter]
  | reserved i next => simp [clusterAfter]

theorem Recorded.act (h : Recorded init choose cluster w) (s : σ) :
    Recorded init choose cluster (act s w) :=
  ⟨h.1.concat (by simp) (by simp), by simp [Allocators.act, clusterAfter]⟩

theorem Recorded.serve (h : Recorded init choose cluster w) {i : ι} {fault : Fault} {r : Request}
    (hguar : Guaranteed init choose i w (Allocators.serve i fault w r).2) :
    Recorded init choose cluster (Allocators.serve i fault w r).2 := by
  obtain hsame | ⟨seen, -, hseen, hlisted⟩ | ⟨-, -, hcreated⟩ | ⟨cm, next, -, -, hmoved⟩ :=
    serve_cases (i := i) fault w r
  · rw [hsame]
    exact h
  · rw [hlisted]
    refine ⟨h.1.concat (by simp) fun j s hs => ?_, ?_⟩
    · simp only [Event.listed.injEq] at hs
      obtain ⟨-, rfl⟩ := hs
      obtain hnone | hsome := hseen
      · exact absurd hnone (by simp)
      · exact (Option.some.inj hsome).trans h.2
    · exact h.2.trans (clusterAfter_concat_of_ne (by simp)).symm
  · rw [hcreated]
    exact h
  · rw [hmoved] at hguar ⊢
    refine ⟨h.1.concat (fun j n hn => ?_) (by simp), ?_⟩
    · simp only [Event.reserved.injEq] at hn
      obtain ⟨rfl, rfl⟩ := hn
      exact hguar next rfl
    · exact h.2.trans (clusterAfter_concat_of_ne (by simp)).symm

/-- In every run the log is orderly, and a call that has returned a result has reserved
it. -/
theorem orderly_of_run [DecidableEq ι] {s : Start σ} {call : Call σ (Except Failure β)}
    (hcall : ∀ i : ι, Reserves s.next choose i call)
    {cond : Crowd (World ι σ) Request (Request.Response σ) ι (Except Failure β) →
      Turn σ Fault ι → Prop}
    {t : Crowd (World ι σ) Request (Request.Response σ) ι (Except Failure β)}
    (h : Crowd.Run serve act cond (calls s call) t) : Recorded s.next choose s.cluster t.world ∧
      ∀ i result, t.rest i = .pure (.ok result) → Done s.next choose i result t.world.log := by
  have hstart : Crowd.Legal (Sound s.next) Relied (fun i w _ v => Guaranteed s.next choose i w v)
      (fun i x w => match x with
        | .ok result => Done s.next choose i result w.log
        | .error _ => Unreserved i w.log) serve (calls s call) :=
    ⟨s.sound, fun i => hcall i s.world s.sound fun next hmem => by simp [Start.world] at hmem⟩
  obtain ⟨hlegal, hrecorded⟩ := Crowd.Run.invariant (P := Recorded s.next choose s.cluster)
    (fun i w => Relied.refl w) (fun i fault w r hw => hw.serve fault r)
    (fun t a _ hw hP => ⟨hw.act a, fun i => relied_act a, hP.act a⟩)
    (fun t i fault r k _ _ _ hP hguar =>
      ⟨fun j hji => relied_serve (Ne.symm hji) fault r, hP.serve hguar⟩)
    hstart ⟨orderly_nil, rfl⟩ h
  exact ⟨hrecorded, fun i result hdone => hlegal.returned hdone⟩

end Runs

end Allocators
