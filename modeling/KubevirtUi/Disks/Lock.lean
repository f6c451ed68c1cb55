import KubevirtUi.Disks.Claim
import KubevirtUi.Library.Lock
import KubevirtUi.Library.Machine

/-!
# The claim on a disk is a lock

Any number of calls of any machines are under way at a time. A call reads the disk in one step
and writes what it has decided in another, which the API server takes only if nobody has written
in between. A write can be refused, or be made and its answer be lost; others write the disk too,
but leave the two labels alone.

The log has the calls that return with the disk claimed, under the UID of the machine, and the
releases that have been written. What a call has read is what there is, or it is out of date: this
is the invariant that carries the lock.
-/

namespace Disks

inductive Verb where
  | claim
  | release
  deriving DecidableEq

/-- A call that is about to write. -/
structure Call where
  verb : Verb
  holder : Holder
  read : DataVolume
  labels : Labels

inductive Fate where
  | made
  | lost
  | refused
  deriving DecidableEq

inductive Input where
  | read (verb : Verb) (holder : Holder)
  | write (call : Nat) (fate : Fate)
  | edit (labels : Labels)

structure State where
  disk : DataVolume
  calls : List Call := []
  log : List (Lock.Event String) := []

/-- A call reads the disk. -/
def State.ask (s : State) (verb : Verb) (holder : Holder) : State :=
  match verb with
  | .claim =>
    match claimDisk s.disk.labels holder with
    | .finished => { s with log := .taken holder.uid :: s.log }
    | .refused _ => s
    | .update labels => { s with calls := ⟨verb, holder, s.disk, labels⟩ :: s.calls }
  | .release =>
    match releaseDisk s.disk.labels holder with
    | .update labels => { s with calls := ⟨verb, holder, s.disk, labels⟩ :: s.calls }
    | _ => s

/-- What has come of a call whose write was made. -/
def Call.events (call : Call) (fate : Fate) : List (Lock.Event String) :=
  match call.verb, fate with
  | .claim, .made => [.taken call.holder.uid]
  | .release, .made | .release, .lost => [.released call.holder.uid]
  | _, _ => []

/-- A call writes the disk, if it has not been written since the call has read it. -/
def State.put (s : State) (call : Call) (fate : Fate) : State :=
  if fate = .refused ∨ call.read.resourceVersion ≠ s.disk.resourceVersion then s
  else { s with
    disk := ⟨s.disk.resourceVersion + 1, call.labels⟩
    log := call.events fate ++ s.log }

def step (s : State) : Input → Option State
  | .read verb holder => some (s.ask verb holder)
  | .write i fate =>
    (s.calls[i]?).map fun call => State.put { s with calls := s.calls.eraseIdx i } call fate
  | .edit labels =>
    if labels.get attachedToLabel = s.disk.labels.get attachedToLabel ∧
        labels.get attachedToUIDLabel = s.disk.labels.get attachedToUIDLabel then
      some { s with disk := ⟨s.disk.resourceVersion + 1, labels⟩ }
    else none

variable {s t : State} {call : Call} {holder : Holder} {verb : Verb} {labels : Labels}

/-- The call has read what there is, or its write will be refused. -/
structure Call.Current (call : Call) (disk : DataVolume) : Prop where
  le : call.read.resourceVersion ≤ disk.resourceVersion
  eq : call.read.resourceVersion = disk.resourceVersion → call.read = disk

/-- The call writes what its verb says. -/
def Call.Decided (call : Call) : Prop :=
  match call.verb with
  | .claim => claimDisk call.read.labels call.holder = .update call.labels
  | .release => releaseDisk call.read.labels call.holder = .update call.labels

/-- Who holds the lock by the log holds the disk by its labels. -/
def Marked (log : List (Lock.Event String)) (labels : Labels) : Prop :=
  ∀ uid, Lock.holder log = some uid → ∃ name, name ≠ "" ∧ uid ≠ "" ∧ HeldBy labels name uid

structure Inv (s : State) : Prop where
  calls : ∀ call ∈ s.calls, call.Current s.disk ∧ call.Decided
  marked : Marked s.log s.disk.labels
  orderly : Lock.Orderly s.log

theorem Call.Current.later {disk : DataVolume} (h : call.Current disk) (labels : Labels) :
    call.Current ⟨disk.resourceVersion + 1, labels⟩ := by
  have hle := h.le
  exact ⟨Nat.le_succ_of_le hle, fun heq => absurd heq (by dsimp only; omega)⟩

theorem marked_taken (h : HeldBy labels holder.name holder.uid)
    (log : List (Lock.Event String)) : Marked (.taken holder.uid :: log) labels := by
  intro uid huid
  obtain rfl : holder.uid = uid := Option.some.inj huid
  exact ⟨holder.name, holder.name_ne, holder.uid_ne, h⟩

theorem Marked.eq_of_update {log : List (Lock.Event String)} (h : Marked log labels) {uid : String}
    (huid : Lock.holder log = some uid) {labels' : Labels}
    (hupdate : claimDisk labels holder = .update labels' ∨
      releaseDisk labels holder = .update labels') : holder.uid = uid := by
  obtain ⟨name, hname, hne, hheld⟩ := h uid huid
  by_contra hother
  obtain hclaim | hrelease := hupdate
  · rw [claimDisk_eq_refused hheld hname hne (Ne.symm hother)] at hclaim
    contradiction
  · rw [releaseDisk_eq_finished hheld hne (Ne.symm hother)] at hrelease
    contradiction

theorem Inv.ask (h : Inv s) (verb : Verb) (holder : Holder) : Inv (s.ask verb holder) := by
  have hpush {verb : Verb} {labels : Labels}
      (hdecided : Call.Decided ⟨verb, holder, s.disk, labels⟩) :
      Inv { s with calls := ⟨verb, holder, s.disk, labels⟩ :: s.calls } := by
    refine ⟨fun call hcall => ?_, h.marked, h.orderly⟩
    obtain rfl | hcall := List.mem_cons.mp hcall
    · exact ⟨⟨Nat.le_refl _, fun _ => rfl⟩, hdecided⟩
    · exact h.calls call hcall
  cases verb with
  | claim =>
    rw [State.ask]
    cases hclaim : claimDisk s.disk.labels holder with
    | refused name => exact h
    | update labels => exact hpush hclaim
    | finished =>
      have hheld := heldBy_of_claimDisk_finished hclaim
      refine ⟨h.calls, marked_taken hheld s.log, fun uid huid => ?_, h.orderly⟩
      obtain ⟨name, -, -, hmarked⟩ := h.marked uid huid
      exact hheld.uid.symm.trans hmarked.uid
  | release =>
    rw [State.ask]
    cases hrelease : releaseDisk s.disk.labels holder with
    | update labels => exact hpush hrelease
    | finished => exact h
    | refused name => exact h

theorem Inv.put (h : Inv s) (hcall : call.Current s.disk) (hdecided : call.Decided) (fate : Fate) :
    Inv (s.put call fate) := by
  rw [State.put]
  split
  · exact h
  · next hwritten =>
    rw [not_or, not_not] at hwritten
    have hread := hcall.eq hwritten.2
    have hlater : ∀ other ∈ s.calls,
        other.Current ⟨s.disk.resourceVersion + 1, call.labels⟩ ∧ other.Decided :=
      fun other hother => ⟨(h.calls other hother).1.later _, (h.calls other hother).2⟩
    rw [Call.Decided, hread] at hdecided
    cases hverb : call.verb with
    | claim =>
      rw [hverb] at hdecided
      have hheld := heldBy_of_claimDisk_update hdecided
      have hown : ∀ uid, Lock.holder s.log = some uid → call.holder.uid = uid :=
        fun uid huid => h.marked.eq_of_update huid (.inl hdecided)
      cases fate with
      | refused => exact absurd rfl hwritten.1
      | made =>
        have hevents : call.events .made = [.taken call.holder.uid] := by
          simp [Call.events, hverb]
        rw [hevents]
        exact ⟨hlater, marked_taken hheld s.log, hown, h.orderly⟩
      | lost =>
        have hevents : call.events .lost = [] := by simp [Call.events, hverb]
        rw [hevents]
        refine ⟨hlater, fun uid huid => ?_, h.orderly⟩
        obtain rfl := hown uid huid
        exact ⟨call.holder.name, call.holder.name_ne, call.holder.uid_ne, hheld⟩
    | release =>
      rw [hverb] at hdecided
      have hown : ∀ uid, Lock.holder s.log = some uid → call.holder.uid = uid :=
        fun uid huid => h.marked.eq_of_update huid (.inr hdecided)
      have hevents : call.events fate = [.released call.holder.uid] := by
        cases fate with
        | refused => exact absurd rfl hwritten.1
        | made => simp [Call.events, hverb]
        | lost => simp [Call.events, hverb]
      rw [hevents]
      exact ⟨hlater, fun uid huid => by contradiction, hown, h.orderly⟩

theorem Inv.step {input : Input} (h : Inv s) (hstep : step s input = some t) : Inv t := by
  cases input with
  | read verb holder =>
    obtain rfl := Option.some.inj hstep
    exact h.ask verb holder
  | write i fate =>
    obtain ⟨call, hcall, rfl⟩ := Option.map_eq_some_iff.mp hstep
    obtain ⟨hcurrent, hdecided⟩ := h.calls call (List.mem_of_getElem? hcall)
    have hrest : Inv { s with calls := s.calls.eraseIdx i } :=
      ⟨fun other hother => h.calls other (List.mem_of_mem_eraseIdx hother), h.marked, h.orderly⟩
    exact hrest.put hcurrent hdecided fate
  | edit labels =>
    rw [Disks.step] at hstep
    split at hstep
    · next hsame =>
      obtain rfl := Option.some.inj hstep
      refine ⟨fun call hcall => ⟨(h.calls call hcall).1.later _, (h.calls call hcall).2⟩,
        fun uid huid => ?_, h.orderly⟩
      obtain ⟨name, hname, hne, hheld⟩ := h.marked uid huid
      exact ⟨name, hname, hne, hsame.1.trans hheld.name, hsame.2.trans hheld.uid⟩
    · contradiction

/-- After a machine has claimed a disk no machine with another UID claims it before the first
has released it, and none releases it for it. -/
theorem claimDisk_excludes (hcalls : s.calls = []) (hlog : s.log = [])
    (hrun : Machine.Run step (fun _ _ => True) s t)
    {later between earlier : List (Lock.Event String)} {uid other : String} :
    (t.log = later ++ .taken other :: (between ++ .taken uid :: earlier) → other ≠ uid →
        .released uid ∈ between) ∧
      (t.log = later ++ .released other :: (between ++ .taken uid :: earlier) →
        .released uid ∉ between → other = uid) := by
  have hinv : Inv t := by
    refine hrun.invariant ⟨?_, ?_, ?_⟩ fun h _ => h.step
    · simp [hcalls]
    · rw [hlog]
      exact nofun
    · rw [hlog]
      trivial
  constructor
  · intro heq hne
    exact (heq ▸ hinv.orderly).released_between hne
  · intro heq hheld
    exact (heq ▸ hinv.orderly).eq_of_released hheld

/-- Two machines that have had the same name. -/
theorem claimDisk_excludes_reused : ∃ t, Machine.Run step (fun _ _ => True) ⟨⟨7, ∅⟩, [], []⟩ t ∧
      t.log = [.taken "uid-2", .released "uid-1", .taken "uid-1"] ∧
      Lock.Event.released "uid-1" ∈ [Lock.Event.released "uid-1"] := by
  let first : Holder := ⟨"web", "uid-1", by decide, by decide⟩
  let second : Holder := ⟨"web", "uid-2", by decide, by decide⟩
  have hplay : (Machine.play step (fun _ _ => True) ⟨⟨7, ∅⟩, [], []⟩
      [.read .claim first, .read .claim second, .write 1 .made, .write 0 .made,
        .read .release second, .read .release first, .write 0 .made,
        .read .claim second, .write 0 .made]).map State.log =
      some [.taken "uid-2", .released "uid-1", .taken "uid-1"] := by decide +kernel
  obtain ⟨t, ht, hlog⟩ := Option.map_eq_some_iff.mp hplay
  have hrun := Machine.run_of_play .refl ht
  have hsplit : t.log = [] ++ .taken "uid-2" :: ([.released "uid-1"] ++ .taken "uid-1" :: []) :=
    hlog
  exact ⟨t, hrun, hlog, (claimDisk_excludes rfl rfl hrun).1 hsplit (by decide)⟩

end Disks
