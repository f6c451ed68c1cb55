import KubevirtUi.Tenancy.Ports

/-!
# No two tenants share a port

A document is replaced only under the version it was read under, so what a call writes is what
the document says with one entry more or less. The ports that are handed out are free, and an entry
stays until its tenant is released.
-/

namespace Tenancy

open Interference Logs List Option

variable {ι : Type} {pool : Pool} {jobs : ι → PortJob} {init : Entries} {i : ι}
  {log more : List (PortEvent ι)} {e : PortEvent ι} {tenant : String} {ports : Nat × Nat}

def PortEvent.owner (e : PortEvent ι) : Option ι := some e.client

theorem current_concat : current init (log ++ [e]) = e.step (current init log) := by
  rw [current, foldl_append]
  rfl

theorem OrderlyWrites.of_append (h : OrderlyWrites pool jobs init (log ++ more)) :
    OrderlyWrites pool jobs init log := by
  intro before i data after hlog
  apply h before i data (after ++ more)
  rw [hlog, append_assoc, cons_append]

theorem OrderlyWrites.concat (h : OrderlyWrites pool jobs init log)
    (he : ∀ i data, e = .wrote i data → (jobs i).Writes pool (current init log) data) :
    OrderlyWrites pool jobs init (log ++ [e]) := by
  intro before i data after hsplit
  obtain ⟨rfl, rfl, -⟩ | ⟨after', rfl, rfl⟩ := split_concat hsplit
  · exact he i data rfl
  · exact h before i data after' rfl

theorem OrderlyWrites.last {data : Entries}
    (h : OrderlyWrites pool jobs init (log ++ [.wrote i data])) :
    (jobs i).Writes pool (current init log) data :=
  h log i data [] rfl

theorem OrderlyWrites.apart (hinit : Apart pool init) (h : OrderlyWrites pool jobs init log) :
    Apart pool (current init log) := by
  induction log using List.reverseRecOn with
  | nil => exact hinit
  | append_singleton log e ih =>
    have hbefore := ih h.of_append
    rw [current_concat]
    cases e with
    | read i => exact hbefore
    | wrote i data =>
      have hwrites := h.last
      cases hjob : jobs i with
      | allocate tenant n =>
        rw [hjob] at hwrites
        obtain ⟨-, ports, hports, rfl⟩ := hwrites
        exact hbefore.insert hports
      | release tenant n =>
        rw [hjob] at hwrites
        obtain rfl := hwrites
        exact hbefore.erase

theorem OrderlyWrites.issued (h : OrderlyWrites pool jobs init (log ++ more))
    (hports : issued (current init log) tenant = some ports) (hmore : Unreleased jobs tenant more) :
    issued (current init (log ++ more)) tenant = some ports := by
  induction more using List.reverseRecOn with
  | nil => rwa [append_nil]
  | append_singleton more e ih =>
    rw [← append_assoc] at h ⊢
    have hbefore := ih h.of_append fun k data n hmem => hmore k data n (mem_append_left _ hmem)
    rw [current_concat]
    cases e with
    | read k => exact hbefore
    | wrote k data =>
      have hwrites := h.last
      change Tenancy.issued data tenant = some ports
      cases hjob : jobs k with
      | allocate other n =>
        rw [hjob] at hwrites
        obtain ⟨hnone, other', -, rfl⟩ := hwrites
        have hne : tenant ≠ other := by
          intro heq
          rw [← heq, hbefore] at hnone
          contradiction
        rwa [issued_insert_of_ne hne]
      | release other n =>
        rw [hjob] at hwrites
        obtain rfl := hwrites
        have hne : tenant ≠ other := by
          intro heq
          apply hmore k _ n (mem_append_right _ (mem_singleton_self _))
          rw [hjob, heq]
        rwa [issued_erase_of_ne hne]

section Moments

variable [DecidableEq ι]

theorem moment_concat_self (h : e.client = i) : moment i (log ++ [e]) = log ++ [e] :=
  rdropWhile_concat_neg _ _ _ (by simpa using h)

theorem moment_concat_of_ne (h : e.client ≠ i) : moment i (log ++ [e]) = moment i log :=
  rdropWhile_concat_pos _ _ _ (by simpa using h)

theorem moment_prefix_self : moment i log <+: log := rdropWhile_prefix _ _

theorem moment_of_extends {log' : List (PortEvent ι)}
    (h : Extends PortEvent.owner i log log') : moment i log' = moment i log := by
  obtain ⟨more, rfl, hmore⟩ := h
  induction more using List.reverseRecOn with
  | nil => rw [append_nil]
  | append_singleton more e ih =>
    have hne : e.client ≠ i := fun heq => hmore e (by simp) (congrArg some heq)
    rw [← append_assoc, moment_concat_of_ne hne]
    exact ih fun e' he' => hmore e' (mem_append_left _ he')

end Moments

/-- Nothing else has ever had this version. -/
def PortWorld.Known (w : PortWorld ι) (cm : Versioned Entries) : Prop :=
  cm.version ≤ w.clock ∧ ∀ cm', w.configMap = some cm' → cm'.version = cm.version → cm' = cm

/-- No version lies ahead of the clock, and the log tells what the document says. -/
structure Sound (init : Entries) (w : PortWorld ι) : Prop where
  timely : ∀ cm, w.configMap = some cm → cm.version ≤ w.clock
  document : w.entries = current init w.log

/-- What others leave as it was. -/
structure Kept (i : ι) (w v : PortWorld ι) : Prop where
  known : ∀ cm, w.Known cm → v.Known cm
  log : Extends PortEvent.owner i w.log v.log

/-- What a client does with a request: nothing, or it reads, or it writes what it may. -/
def Within (pool : Pool) (jobs : ι → PortJob) (i : ι) (w : PortWorld ι) (_ : PortRequest)
    (v : PortWorld ι) : Prop :=
  v = w ∨ v = w.note (.read i) ∨
    ∃ data, v = w.write i data ∧ (jobs i).Writes pool w.entries data

def Unwritten (i : ι) (w : PortWorld ι) : Prop := ∀ data, .wrote i data ∉ w.log

variable {r : PortRequest} {data' : Entries}

section Worlds

variable {w v : PortWorld ι} {cm : Versioned Entries} {data : Entries} {j : ι}

theorem Sound.known (h : Sound init w) (hcm : w.configMap = some cm) : w.Known cm :=
  ⟨h.timely cm hcm, fun _ hcm' _ => mem_unique hcm' hcm⟩

theorem PortWorld.Known.write (h : w.Known cm) : (w.write i data).Known cm := by
  refine ⟨Nat.le_succ_of_le h.1, fun cm' hcm' hversion => ?_⟩
  have hnew : w.clock + 1 = cm.version := by
    rw [← hversion, ← some.inj hcm']
  have hold := h.1
  omega

theorem Sound.note (h : Sound init w) : Sound init (w.note (.read i)) where
  timely := h.timely
  document := by
    rw [PortWorld.note, current_concat]
    exact h.document

theorem Sound.write : Sound init (w.write i data) where
  timely cm hcm := by
    rw [← some.inj hcm]
    exact Nat.le_refl _
  document := by
    rw [PortWorld.write, current_concat]
    rfl

theorem portServe_cases (i : ι) (fault : Option PortFailure) (w : PortWorld ι) (r : PortRequest) :
    (portServe i fault w r).2 = w ∨ (portServe i fault w r).2 = w.note (.read i) ∨
      ∃ data, (portServe i fault w r).2 = w.write i data := by
  cases fault with
  | some e => exact .inl rfl
  | none =>
    cases r with
    | read =>
      cases hcm : w.configMap <;> simp [portServe, portCommit, hcm]
    | create data =>
      cases hcm : w.configMap <;> simp [portServe, portCommit, hcm]
    | replace version data =>
      cases hcm : w.configMap with
      | none => simp [portServe, portCommit, hcm]
      | some cm =>
        by_cases hversion : cm.version = version <;>
          simp [portServe, portCommit, hcm, hversion]

theorem Sound.serve (fault : Option PortFailure) (w : PortWorld ι) (r : PortRequest)
    (h : Sound init w) : Sound init (portServe i fault w r).2 := by
  obtain hsame | hread | ⟨data, hwrite⟩ := portServe_cases i fault w r
  · rwa [hsame]
  · rw [hread]
    exact h.note
  · rw [hwrite]
    exact .write

theorem Kept.refl (i : ι) (w : PortWorld ι) : Kept i w w := ⟨fun _ h => h, .refl i w.log⟩

theorem Within.kept (h : Within pool jobs i w r v) (hne : j ≠ i) : Kept j w v := by
  have howner {e : PortEvent ι} (he : e.client = i) : e.owner ≠ some j := by
    intro heq
    exact hne (some.inj heq ▸ he)
  obtain rfl | rfl | ⟨data, rfl, -⟩ := h
  · exact .refl j v
  · exact ⟨fun _ h => h, extends_concat (howner rfl)⟩
  · exact ⟨fun _ h => h.write, extends_concat (howner rfl)⟩

theorem Within.orderly (h : Within pool jobs i w r v) (hsound : Sound init w)
    (horder : OrderlyWrites pool jobs init w.log) : OrderlyWrites pool jobs init v.log := by
  obtain rfl | rfl | ⟨data, rfl, hwrites⟩ := h
  · exact horder
  · exact horder.concat nofun
  · refine horder.concat fun k data' heq => ?_
    cases heq
    rwa [← hsound.document]

theorem lasts_unwritten : Lasts (Sound init) (Kept i) (Unwritten i) := by
  intro w v _ _ hkept h data hmem
  exact h data ((hkept.log.mem_iff rfl).mp hmem)

theorem lasts_known : Lasts (Sound init) (Kept i) fun w : PortWorld ι => w.Known cm :=
  fun _ _ _ _ hkept h => hkept.known cm h

end Worlds

variable [DecidableEq ι]

/-- What the client did last, it did to this document. -/
def Found (init : Entries) (i : ι) (data : Entries) (w : PortWorld ι) : Prop :=
  current init (moment i w.log) = data

/-- The client has read the document, and written nothing. -/
def HasRead (init : Entries) (i : ι) (data : Entries) (rv : Option Nat) (w : PortWorld ι) : Prop :=
  Unwritten i w ∧
    match rv with
    | some version => w.Known ⟨version, data⟩ ∧ Found init i data w
    | none => data = ∅

/-- A call that gives ports to a tenant returns those that it had at the call's moment, and one that
raises has written nothing. -/
def Promised (jobs : ι → PortJob) (init : Entries) (i : ι) :
    Except PortFailure (Option (Nat × Nat)) → PortWorld ι → Prop
  | .ok result, w => ∀ tenant n ports, jobs i = .allocate tenant n → result = some ports →
      issued (current init (moment i w.log)) tenant = some ports
  | .error _, w => Unwritten i w

section Calls

variable {data : Entries} {rv : Option Nat} {n left : Nat}

theorem lasts_found : Lasts (Sound init) (Kept i) (Found init i data) := by
  intro w v _ _ hkept h
  rwa [Found, moment_of_extends hkept.log]

theorem lasts_hasRead : Lasts (Sound init) (Kept i) (HasRead init i data rv) := by
  cases rv with
  | none => exact lasts_unwritten.and (lasts_const _)
  | some version => exact lasts_unwritten.and (lasts_known.and lasts_found)

variable (pool jobs init i) in
/-- A part of a call. Where it fails, nothing has been written. -/
abbrev PortsDo {α : Type} (P : PortWorld ι → Prop) (p : PortCall α) (Q : α → PortWorld ι → Prop) :
    Prop :=
  Attempts (portServe i) (Sound init) (Kept i) (Within pool jobs i) P p Q fun _ => Unwritten i

theorem readCm_reads :
    PortsDo pool jobs init i (Unwritten i) readCm fun x => HasRead init i x.1 x.2 := by
  have hask : PortsDo pool jobs init i (Unwritten i) (portAsk .read)
      fun cm => HasRead init i cm.value (some cm.version) := by
    refine .ask Sound.serve lasts_unwritten (fun _ => lasts_hasRead)
      (fun _ => lasts_unwritten) fun w fault hsound hw => ?_
    have hnoted : Unwritten i (w.note (.read i)) := by
      intro data hmem
      obtain hmem | hmem := mem_append.mp hmem
      · exact hw data hmem
      · cases mem_singleton.mp hmem
    cases fault with
    | some e => exact ⟨.inl rfl, hw⟩
    | none =>
      cases hcm : w.configMap with
      | none =>
        simp only [portServe, portCommit, hcm]
        exact ⟨.inr (.inl rfl), hnoted⟩
      | some cm =>
        simp only [portServe, portCommit, hcm]
        refine ⟨.inr (.inl rfl), hnoted, hsound.known hcm, ?_⟩
        have hmoment : moment i (w.note (.read i)).log = (w.note (.read i)).log :=
          moment_concat_self rfl
        have hentries : (w.note (.read i)).entries = cm.value := by
          simp only [PortWorld.entries, PortWorld.note, hcm, map_some, getD_some]
        rw [Found, hmoment, ← hsound.note.document, hentries]
  refine .tryCatch Sound.serve (fun _ => lasts_hasRead)
    (Attempts.bind Sound.serve (fun _ => lasts_unwritten) hask fun cm =>
      Attempts.pure lasts_hasRead fun _ hw => hw) fun e => ?_
  by_cases hmissing : e = .api 404
  · rw [if_pos hmissing]
    exact .pure lasts_unwritten fun w hw => ⟨hw, rfl⟩
  · rw [if_neg hmissing]
    exact .throw lasts_unwritten fun w hw => hw

/-- What is written under the version that was read replaces what was read. -/
theorem writeCm_writes (hwrites : (jobs i).Writes pool data data') :
    PortsDo pool jobs init i (HasRead init i data rv) (writeCm data' rv)
      fun _ => Found init i data' := by
  have hfound (w : PortWorld ι) : Found init i data' (w.write i data') := by
    have hmoment : moment i (w.write i data').log = (w.write i data').log := moment_concat_self rfl
    rw [Found, hmoment, PortWorld.write, current_concat]
    rfl
  cases rv with
  | none =>
    refine .ask Sound.serve lasts_hasRead (fun _ => lasts_found)
      (fun _ => lasts_unwritten) fun w fault _ hw => ?_
    obtain ⟨hunwritten, hempty⟩ := hw
    cases fault with
    | some e => exact ⟨.inl rfl, hunwritten⟩
    | none =>
      cases hcm : w.configMap with
      | some cm =>
        simp only [portServe, portCommit, hcm]
        exact ⟨.inl rfl, hunwritten⟩
      | none =>
        have hentries : w.entries = data := by
          rw [PortWorld.entries, hcm, hempty]
          rfl
        simp only [portServe, portCommit, hcm]
        exact ⟨.inr (.inr ⟨data', rfl, hentries ▸ hwrites⟩), hfound w⟩
  | some version =>
    refine .ask Sound.serve lasts_hasRead (fun _ => lasts_found)
      (fun _ => lasts_unwritten) fun w fault _ hw => ?_
    obtain ⟨hunwritten, hknown, -⟩ := hw
    cases fault with
    | some e => exact ⟨.inl rfl, hunwritten⟩
    | none =>
      cases hcm : w.configMap with
      | none =>
        simp only [portServe, portCommit, hcm]
        exact ⟨.inl rfl, hunwritten⟩
      | some cm =>
        by_cases hversion : cm.version = version
        · -- the version is that of the read, and so is the document
          obtain rfl := hknown.2 cm hcm hversion
          have hentries : w.entries = data := by
            rw [PortWorld.entries, hcm]
            rfl
          simp only [portServe, portCommit, hcm, if_true]
          exact ⟨.inr (.inr ⟨data', rfl, hentries ▸ hwrites⟩), hfound w⟩
        · simp only [portServe, portCommit, hcm, if_neg hversion]
          exact ⟨.inl rfl, hunwritten⟩

/-- The rest of a round: the document is written, or the handler decides whether to go again. -/
theorem write_keeps {α : Type} {next : PortCall α} {a : α} {handler : PortFailure → PortCall Bool}
    {Q : α → PortWorld ι → Prop} (hwrites : (jobs i).Writes pool data data')
    (hlasts : Lasts (Sound init) (Kept i) (Q a)) (hdone : ∀ w, Found init i data' w → Q a w)
    (hhandler : ∀ e, PortsDo pool jobs init i (Unwritten i) (handler e)
      fun again w => if again = true then Unwritten i w else Q a w)
    (hnext : PortsDo pool jobs init i (Unwritten i) next Q) :
    PortsDo pool jobs init i (HasRead init i data rv)
      (do
        let again ← tryCatch (do
            writeCm data' rv
            return false) handler
        if again then next else return a) Q := by
  refine .bind Sound.serve (fun _ => lasts_unwritten) (Attempts.tryCatch Sound.serve
    (fun again => ?_) (Attempts.bind Sound.serve (fun _ => lasts_unwritten) (writeCm_writes hwrites)
      fun _ => .pure lasts_found hdone) hhandler) fun again => ?_
  · cases again with
    | true => exact lasts_unwritten
    | false => exact hlasts
  · cases again with
    | true => exact hnext
    | false => exact .pure hlasts fun w hw => hw

/-- A call returns the ports that the tenant has, or gives it ports and returns these. -/
theorem allocateRounds_keeps (hjob : jobs i = .allocate tenant n) :
    PortsDo pool jobs init i (Unwritten i) (allocateRounds pool tenant n left)
      fun ports w => issued (current init (moment i w.log)) tenant = some ports := by
  induction left with
  | zero => exact .throw lasts_unwritten fun w hw => hw
  | succ left ih =>
    refine .bind Sound.serve (fun _ => lasts_unwritten) readCm_reads fun x => ?_
    obtain ⟨data, rv⟩ := x
    cases hissued : issued data tenant with
    | some ports =>
      simp only [hissued]
      refine .pure lasts_hasRead fun w hw => ?_
      cases rv with
      | none =>
        -- a document that is missing has no entry
        rw [hw.2] at hissued
        exact absurd hissued (by simp [issued])
      | some version => rw [hw.2.2, hissued]
    | none =>
      simp only [hissued]
      cases hfree : pickTwoFree pool (usedPorts data) with
      | none => exact .throw lasts_hasRead fun w hw => hw.1
      | some ports =>
        have hwrites : (jobs i).Writes pool data (data.insert tenant (formatEntry ports)) := by
          rw [hjob]
          exact ⟨hissued, ports, hfree, rfl⟩
        refine write_keeps hwrites ?_ (fun w hw => ?_) (fun e => ?_) ih
        · intro w v _ _ hkept h
          rwa [moment_of_extends hkept.log]
        · rw [hw, issued_insert_self]
        · by_cases hconflict : e = .api 409
          · rw [if_pos hconflict]
            exact .pure lasts_unwritten fun w hw => hw
          · rw [if_neg hconflict]
            exact .throw lasts_unwritten fun w hw => hw

theorem releaseRounds_keeps (hjob : jobs i = .release tenant n) :
    PortsDo pool jobs init i (Unwritten i) (releaseRounds tenant left) fun _ _ => True := by
  induction left with
  | zero => exact .pure lasts_unwritten fun w hw => trivial
  | succ left ih =>
    refine .bind Sound.serve (fun _ => lasts_unwritten) readCm_reads fun x => ?_
    obtain ⟨data, rv⟩ := x
    by_cases hin : tenant ∉ data
    · simp only [if_pos hin]
      exact .pure lasts_hasRead fun w hw => trivial
    · simp only [if_neg hin]
      have hwrites : (jobs i).Writes pool data (data.erase tenant) := by
        rw [hjob]
        rfl
      refine write_keeps hwrites (lasts_const True) (fun w hw => trivial) (fun e => ?_) ih
      by_cases hconflict : e = .api 409
      · rw [if_pos hconflict]
        exact .pure lasts_unwritten fun w hw => hw
      · rw [if_neg hconflict]
        by_cases hgone : e = .api 404
        · rw [if_pos hgone]
          exact .pure lasts_unwritten fun w hw => trivial
        · rw [if_neg hgone]
          exact .throw lasts_unwritten fun w hw => hw

end Calls

theorem program_keeps (i : ι) : Triple (portServe i) (interfere (Sound init) (Kept i)) (Sound init)
    (Within pool jobs i) (Unwritten i) ((jobs i).program pool) (Promised jobs init i) := by
  cases hjob : jobs i with
  | allocate tenant n =>
    have hrounds : PortsDo pool jobs init i (Unwritten i) (some <$> allocateCpPorts pool tenant n)
        fun result => Promised jobs init i (.ok result) := by
      refine .bind Sound.serve (fun _ => lasts_unwritten) (allocateRounds_keeps hjob)
        fun ports => .pure ?_ fun w hw other m ports' hother hports => ?_
      · intro w v _ _ hkept h
        rwa [moment_of_extends hkept.log]
      · rw [hjob, PortJob.allocate.injEq] at hother
        rw [← hother.1, ← some.inj hports]
        exact hw
    exact hrounds.conseq (fun _ _ hw => hw) fun x w _ hx => match x with
      | .ok _ => hx
      | .error _ => hx
  | release tenant n =>
    have hrounds : PortsDo pool jobs init i (Unwritten i)
        ((fun _ => none) <$> releaseCpPorts tenant n) fun result => Promised jobs init i (.ok result) := by
      refine .bind Sound.serve (fun _ => lasts_unwritten) (releaseRounds_keeps hjob)
        fun _ => .pure (lasts_const True) fun w _ other m ports hother _ => ?_
      rw [hjob] at hother
      cases hother
    exact hrounds.conseq (fun _ _ hw => hw) fun x w _ hx => match x with
      | .ok _ => hx
      | .error _ => hx

theorem legal_of_portsStart {s : PortCrowd ι} (h : PortsStart pool jobs init s) :
    Crowd.Legal (Sound init) Kept (Within pool jobs) (Promised jobs init) portServe s := by
  have hsound : Sound init s.world := by
    refine ⟨h.timely, ?_⟩
    rw [h.log]
    exact h.entries
  refine ⟨hsound, fun i => ?_⟩
  rw [h.rest i]
  apply program_keeps i s.world hsound
  intro data hmem
  rw [h.log] at hmem
  exact not_mem_nil hmem

theorem ports_kept (pool : Pool) (jobs : ι → PortJob) (init : Entries) {s t : PortCrowd ι}
    (hstart : PortsStart pool jobs init s) (hrun : PortRun s t) : PortsKept pool jobs init t := by
  have horder : OrderlyWrites pool jobs init s.world.log := by
    intro before i data after hlog
    rw [hstart.log] at hlog
    exact absurd hlog (by simp)
  obtain ⟨hlegal, hwrites⟩ := Crowd.Run.invariant (P := fun w => OrderlyWrites pool jobs init w.log)
    Kept.refl (fun _ => Sound.serve) (fun _ a => a.elim)
    (fun _ _ _ _ _ _ _ hsound hP hwithin =>
      ⟨fun _ hne => hwithin.kept hne, hwithin.orderly hsound hP⟩)
    (legal_of_portsStart hstart) horder hrun
  have hissued {i : ι} {tenant : String} {n : Nat} {ports : Nat × Nat}
      (hjob : jobs i = .allocate tenant n) (hdone : t.rest i = .pure (.ok (some ports))) :
      issued (current init (moment i t.world.log)) tenant = some ports :=
    hlegal.returned hdone tenant n ports hjob rfl
  refine ⟨hlegal.1.document, ?_, ?_, fun i e hdone => hlegal.returned hdone⟩
  · rw [hlegal.1.document]
    exact hwrites.apart hstart.apart
  · intro i j tenant m n ports ports' between hi hj hdone hdone' hbetween hunreleased
    have hfirst := hissued hi hdone
    have hsecond := hissued hj hdone'
    obtain ⟨later, hlater⟩ : moment j t.world.log <+: t.world.log := moment_prefix_self
    rw [← hlater] at hwrites
    have hmoment := hwrites.of_append
    rw [hbetween] at hmoment hsecond
    have hkept := hmoment.issued hfirst hunreleased
    exact mem_unique hkept hsecond

section Example

/-- Two calls for one tenant and one for another, with no ConfigMap yet. -/
def berths : Fin 3 → PortJob
  | 0 | 2 => .allocate "blue" 5
  | 1 => .allocate "green" 5

def berthsPool : Pool := ⟨20000, 20010, [20001]⟩

def berthsStart : PortCrowd (Fin 3) := ⟨⟨0, none, []⟩, fun i => (berths i).program berthsPool⟩

/-- The call has returned these ports. -/
def returnedPorts (ports : Nat × Nat) :
    Program PortRequest PortRequest.Response (Except PortFailure (Option (Nat × Nat))) → Bool
  | .pure (.ok result) => result = some ports
  | _ => false

/-- Two calls find no ConfigMap, and one of them creates it; the other one tries again, and so does
a third one afterwards. -/
theorem ports_kept_berths : ∃ t, PortsKept berthsPool berths ∅ t ∧
    returnedPorts (20000, 20002) (t.rest 1) = true ∧
    returnedPorts (20003, 20004) (t.rest 0) = true ∧
    returnedPorts (20003, 20004) (t.rest 2) = true := by
  have hplay : (Crowd.playWhile portServe (fun a : Empty => a.elim) (fun _ _ => True) berthsStart
      [.call 0 none, .call 1 none, .call 1 none, .call 0 none, .call 0 none, .call 2 none,
        .call 0 none, .call 2 none, .call 2 none]).any
      (fun t => returnedPorts (20000, 20002) (t.rest 1) &&
        returnedPorts (20003, 20004) (t.rest 0) &&
        returnedPorts (20003, 20004) (t.rest 2)) = true := by decide +kernel
  obtain ⟨t, hrun, ht⟩ := Crowd.exists_run_of_playWhile _ hplay
  simp only [Bool.and_eq_true] at ht
  have hstart : PortsStart berthsPool berths ∅ berthsStart :=
    ⟨nofun, rfl, apart_empty, rfl, fun _ => rfl⟩
  exact ⟨t, ports_kept berthsPool berths ∅ hstart hrun, ht.1.1, ht.1.2, ht.2⟩

end Example

end Tenancy
