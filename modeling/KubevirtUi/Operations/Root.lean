import KubevirtUi.Library.Cuts
import KubevirtUi.Library.Machine
import KubevirtUi.Operations.Passes

/-!
# A root disk is replaced

The template of a machine names its root disk. It is rewritten together with the volume that is
mounted, and in a later pass, when nothing names the old disk any more, that is removed. By which
name it is replaced follows from the template, until it is saved with the status; so it has to be
saved before, or together with, the rewriting.
-/

namespace Operations

open List Option AList

open Disks (DiskAttachment Volume)

variable {isQuantity : String → Bool}

/-- What there is when the operation begins. -/
structure Rebuild where
  name : String
  uid : String
  action : Action
  vm : ManagedVM
  current : String

def Rebuild.op (r : Rebuild) : Operation where
  name := r.name
  uid := r.uid
  vmName := r.vm.name
  action := r.action

def Rebuild.next (r : Rebuild) : String := nextRootDiskName r.vm.name r.current

/-- The template and the root volume name the disk. -/
structure VirtualMachine.Names (kvm : VirtualMachine) (disk : String) : Prop where
  template : kvm.dataVolumeTemplates.head? = some disk
  root : "rootdisk" ∈ kvm.volumes.map Volume.name
  volume : ∀ v ∈ kvm.volumes, v.name = "rootdisk" →
    ∃ hotpluggable, v.source = .dataVolume disk hotpluggable

/-- A `Recreate`, or a `RollbackDisk` whose snapshot is not of an attached disk. -/
structure Rebuild.Begun (r : Rebuild) (s : Cluster) : Prop where
  op : s.operations.lookup r.name = some r.op
  action : r.action = .recreate ∨ ∃ snapshotName, r.action = .rollbackDisk snapshotName
  machine : s.machines.lookup r.vm.name = some r.vm
  kvm : ∃ kvm, s.vms.lookup r.vm.target = some kvm ∧ kvm.Names r.current
  named : r.current ≠ ""
  there : r.current ∈ s.disks
  detached : ∀ snapshotName snapshot, r.action = .rollbackDisk snapshotName →
    s.snapshots.lookup snapshotName = some snapshot →
    snapshot.source ∉ r.vm.disks.map DiskAttachment.claim
  -- the other machines are on disks of their own
  others : ∀ name kvm disk, name ≠ r.vm.target → s.vms.lookup name = some kvm →
    kvm.dataVolumeTemplates.head? = some disk → disk ∈ s.disks ∧ disk ≠ r.current
  built : s.built = []

structure Rebuild.Survives (r : Rebuild) (start s : Cluster) : Prop where
  agrees : ∃ kvm disk, s.vms.lookup r.vm.target = some kvm ∧ kvm.Names disk
  kept : ∀ kvm disk, s.vms.lookup r.vm.target = some kvm → kvm.Names disk →
    disk ∈ s.disks ∨ disk ∉ start.disks ∧ disk ∉ s.built
  replaced : ∀ op, s.operations.lookup r.name = some op → op.phase = .succeeded →
    ∃ kvm disk, s.vms.lookup r.vm.target = some kvm ∧ kvm.Names disk ∧ s.built = [disk] ∧
      ∀ n, n ∈ s.disks ↔ n = disk ∨ n ∈ start.disks ∧ n ≠ r.current

/-- The operation goes on without having saved its names, and the machine is down; for a rollback,
the replacement is there and filled. -/
structure Rebuild.Unsaved (r : Rebuild) (s : Cluster) : Prop where
  unfinished : ∃ op, s.operations.lookup r.name = some op ∧ ¬ op.Finished ∧
    op.replacementDisk = ""
  down : (ensureStopped s r.vm).2 = true
  filled : ∀ snapshotName, r.action = .rollbackDisk snapshotName →
    (∃ snapshot, s.snapshots.lookup snapshotName = some snapshot ∧
      snapshot.readyToUse = true) ∧
      ∃ disk, s.disks.lookup r.next = some disk ∧ disk.phase = succeeded

/-- A pass saves the names with the template, if it has not before; and a `Recreate` goes on when
KubeVirt has made the disk. -/
def Rebuild.Saves (r : Rebuild) (s : Cluster) : Event → Prop
  | .pass cut => (∀ n, cut = some n → r.Unsaved s → n = 0 ∨ 2 ≤ n) ∧
      (r.action = .recreate → ∀ kvm disk, s.vms.lookup r.vm.target = some kvm →
        kvm.dataVolumeTemplates.head? = some disk → disk ∈ s.disks)
  | .change _ => True

variable {current : String} {kvm : VirtualMachine} {vm' : ManagedVM}

section Invariant

variable {r : Rebuild} {start s t : Cluster} {op op' : Operation} {vm : ManagedVM}

def Rebuild.Saved (r : Rebuild) (op : Operation) : Prop :=
  op.replacedDisk = r.current ∧ op.replacementDisk = r.next

structure Rebuild.Current (r : Rebuild) (op : Operation) : Prop where
  request : op.Continues r.op
  names : op.replacedDisk = "" ∧ op.replacementDisk = "" ∨ r.Saved op
  runningBefore : op.runningBefore = none ∨ op.runningBefore = some r.vm.running

/-- The machine as it was, but for the epoch that is recorded. -/
structure Rebuild.Same (r : Rebuild) (vm : ManagedVM) : Prop where
  name : vm.name = r.vm.name
  disks : vm.disks = r.vm.disks
  running : vm.running = r.vm.running
  target : vm.target = r.vm.target

/-- The machine is on its old disk. -/
structure Rebuild.Before (r : Rebuild) (s : Cluster) (op : Operation) : Prop where
  kvm : ∃ kvm, s.vms.lookup r.vm.target = some kvm ∧ kvm.Names r.current
  there : r.current ∈ s.disks
  phase : op.phase ≠ .succeeded

/-- The machine is on its new disk, and the names are saved. -/
structure Rebuild.After (r : Rebuild) (s : Cluster) (op : Operation) : Prop where
  kvm : ∃ kvm, s.vms.lookup r.vm.target = some kvm ∧ kvm.Names r.next
  saved : r.Saved op
  done : op.phase = .succeeded → r.current ∉ s.disks ∧ r.next ∈ s.disks

/-- This is the operation, and what there is besides. -/
structure Rebuild.Inv (r : Rebuild) (start s : Cluster) (op : Operation) : Prop where
  lookup : s.operations.lookup r.name = some op
  current : r.Current op
  stage : r.Before s op ∨ r.After s op
  machine : ∃ vm, s.machines.lookup r.vm.name = some vm ∧ r.Same vm
  detached : ∀ snapshotName snapshot, r.action = .rollbackDisk snapshotName →
    s.snapshots.lookup snapshotName = some snapshot →
    snapshot.source ∉ r.vm.disks.map DiskAttachment.claim
  others : ∀ name kvm disk, name ≠ r.vm.target → s.vms.lookup name = some kvm →
    kvm.dataVolumeTemplates.head? = some disk → disk ∈ s.disks ∧ disk ≠ r.current
  built : s.built = [] ∧ r.next ∉ s.disks ∨ s.built = [r.next] ∧ r.next ∈ s.disks
  rest : ∀ n, n ≠ r.current → n ≠ r.next → (n ∈ s.disks ↔ n ∈ start.disks)

theorem Rebuild.next_ne (r : Rebuild) : r.next ≠ r.current := nextRootDiskName_ne _ _

theorem Rebuild.next_ne_empty (r : Rebuild) : r.next ≠ "" := by
  have hstart : ∀ text, rootPrefix r.vm.name ++ text ≠ "" := by
    intro text h
    have hlength := congrArg String.length h
    rw [String.length_append, rootPrefix, String.length_append] at hlength
    have hseven : "-root-".length = 6 := rfl
    have hzero : "".length = 0 := rfl
    omega
  rw [Rebuild.next, nextRootDiskName]
  split
  · split
    · exact hstart _
    · exact hstart _
  · exact hstart _

theorem Rebuild.Begun.inv (h : r.Begun s) (hfree : r.next ∉ s.disks) : r.Inv s s r.op where
  lookup := h.op
  current := ⟨⟨rfl, rfl, rfl, rfl⟩, .inl ⟨rfl, rfl⟩, .inl rfl⟩
  stage := .inl ⟨h.kvm, h.there, Phase.noConfusion⟩
  machine := ⟨r.vm, h.machine, rfl, rfl, rfl, rfl⟩
  detached := h.detached
  others := h.others
  built := .inl ⟨h.built, hfree⟩
  rest := fun _ _ _ => .rfl

theorem Rebuild.Current.begin (h : r.Current op) (hvm : r.Same vm) :
    r.Current (op.begin vm) ∧ (op.begin vm).runningBefore = some r.vm.running := by
  have hrunning : (op.begin vm).runningBefore = some r.vm.running := by
    rw [Operation.begin, hvm.running]
    obtain hunset | hset := h.runningBefore
    · rw [hunset, getD_none]
    · rw [hset, getD_some]
  exact ⟨⟨{ h.request with }, h.names, .inr hrunning⟩, hrunning⟩

theorem Rebuild.Current.inProgress (h : r.Current op) (message : String) :
    r.Current (op.inProgress message) :=
  ⟨{ h.request with }, h.names, h.runningBefore⟩

theorem Rebuild.Current.finish (h : r.Current op) (phase : Phase) (message : String) :
    r.Current (op.finish phase message) :=
  ⟨{ h.request with }, h.names, h.runningBefore⟩

/-- Names that are chosen on the old disk, or have been saved, are the same. -/
theorem Rebuild.Current.choose (h : r.Current op) (hcurrent : r.current ≠ "")
    (hon : current = r.current ∨ r.Saved op) (hname : vm.name = r.vm.name) :
    r.Saved (op.choose current (nextRootDiskName vm.name current)) ∧
      r.Current (op.choose current (nextRootDiskName vm.name current)) := by
  have hsaved : r.Saved (op.choose current (nextRootDiskName vm.name current)) := by
    obtain ⟨hreplaced, hreplacement⟩ | hsaved := h.names
    · obtain rfl | hno := hon
      · constructor
        · exact if_pos hreplaced
        · rw [hname]
          exact if_pos hreplacement
      · exact absurd (hno.1.symm.trans hreplaced) hcurrent
    · constructor
      · rw [← hsaved.1]
        exact if_neg (hsaved.1 ▸ hcurrent)
      · rw [← hsaved.2]
        exact if_neg (hsaved.2 ▸ r.next_ne_empty)
  exact ⟨hsaved, { h.request with }, .inr hsaved,
    h.runningBefore⟩

section

variable (h : r.Inv start s op)

include h

theorem Rebuild.Inv.status (hcurrent : r.Current op') (hstage : r.Before s op' ∨ r.After s op') :
    r.Inv start (s.apply (.status op')) op' where
  lookup := by
    rw [Cluster.apply, hcurrent.request.name]
    exact lookup_insert _
  current := hcurrent
  stage := hstage.imp (fun h => ⟨h.1, h.2, h.3⟩) fun h => ⟨h.1, h.2, h.3⟩
  machine := h.machine
  detached := h.detached
  others := h.others
  built := h.built
  rest := h.rest

theorem Rebuild.Inv.status_of (hcurrent : r.Current op') (hsaved : r.Saved op → r.Saved op')
    (hphase : op'.phase ≠ .succeeded) : r.Inv start (s.apply (.status op')) op' := by
  refine h.status hcurrent (h.stage.imp (fun h => ⟨h.kvm, h.there, hphase⟩) fun h => ?_)
  exact ⟨h.kvm, hsaved h.saved, fun hno => absurd hno hphase⟩

/-- A `VirtualMachine` is changed, and names the disk that the stage says. -/
theorem Rebuild.Inv.vm_write (hstage : r.Before (s.apply (.vm r.vm.target kvm)) op ∨
      r.After (s.apply (.vm r.vm.target kvm)) op) :
    r.Inv start (s.apply (.vm r.vm.target kvm)) op where
  lookup := h.lookup
  current := h.current
  stage := hstage
  machine := h.machine
  detached := h.detached
  others := fun name found disk hname hfound =>
    h.others name found disk hname ((lookup_insert_ne hname).symm.trans hfound)
  built := h.built
  rest := h.rest

theorem Rebuild.Inv.halt {kvm' : VirtualMachine} (hkvm : s.vms.lookup r.vm.target = some kvm)
    (hsame : ∀ disk, kvm.Names disk → kvm'.Names disk) :
    r.Inv start (s.apply (.vm r.vm.target kvm')) op := by
  refine h.vm_write (h.stage.imp (fun h => ?_) fun h => ?_)
  · obtain ⟨found, hfound, hnames⟩ := h.kvm
    obtain rfl := mem_unique hkvm hfound
    exact ⟨⟨kvm', lookup_insert _, hsame _ hnames⟩, h.there, h.phase⟩
  · obtain ⟨found, hfound, hnames⟩ := h.kvm
    obtain rfl := mem_unique hkvm hfound
    exact ⟨⟨kvm', lookup_insert _, hsame _ hnames⟩, h.saved, h.done⟩

theorem Rebuild.Inv.disk (hnew : r.next ∉ s.disks) (disk : DataVolume) :
    r.Inv start (s.apply (.disk r.next disk)) op := by
  have hmem : ∀ n, n ∈ (s.apply (.disk r.next disk)).disks ↔ n = r.next ∨ n ∈ s.disks :=
    fun n => mem_insert _
  refine ⟨h.lookup, h.current, h.stage.imp (fun h => ?_) fun h => ?_, h.machine, h.detached,
    fun name kvm disk hname hkvm hhead => ?_, ?_, fun n hcurrent hnext => ?_⟩
  · exact ⟨h.kvm, (hmem _).mpr (.inr h.there), h.phase⟩
  · exact ⟨h.kvm, h.saved, fun hdone => absurd (h.done hdone).2 hnew⟩
  · obtain ⟨hthere, hne⟩ := h.others name kvm disk hname hkvm hhead
    exact ⟨(hmem _).mpr (.inr hthere), hne⟩
  · obtain ⟨hnone, -⟩ | ⟨-, hno⟩ := h.built
    · refine .inr ⟨?_, (hmem _).mpr (.inl rfl)⟩
      rw [Cluster.apply, hnone]
    · exact absurd hno hnew
  · rw [hmem, ← h.rest n hcurrent hnext]
    exact ⟨fun hn => hn.resolve_left hnext, .inr⟩

theorem Rebuild.Inv.removeDisk (hafter : r.After s op) (hphase : op.phase ≠ .succeeded) :
    r.Inv start (s.apply (.removeDisk r.current)) op := by
  have hmem : ∀ n, n ∈ (s.apply (.removeDisk r.current)).disks ↔ n ≠ r.current ∧ n ∈ s.disks :=
    fun n => mem_erase
  refine ⟨h.lookup, h.current, .inr ⟨hafter.kvm, hafter.saved, fun hno => absurd hno hphase⟩,
    h.machine, h.detached, fun name kvm disk hname hkvm hhead => ?_, ?_,
    fun n hcurrent hnext => ?_⟩
  · obtain ⟨hthere, hne⟩ := h.others name kvm disk hname hkvm hhead
    exact ⟨(hmem _).mpr ⟨hne, hthere⟩, hne⟩
  · refine h.built.imp (fun hb => ⟨hb.1, ?_⟩) fun hb => ⟨hb.1, (hmem _).mpr ⟨r.next_ne, hb.2⟩⟩
    exact fun hno => hb.2 ((hmem _).mp hno).2
  · rw [hmem, ← h.rest n hcurrent hnext]
    exact ⟨And.right, fun hn => ⟨hcurrent, hn⟩⟩

theorem Rebuild.Inv.machine_write (hvm : r.Same vm) : r.Inv start (s.apply (.machine vm)) op where
  lookup := h.lookup
  current := h.current
  stage := h.stage.imp (fun h => ⟨h.1, h.2, h.3⟩) fun h => ⟨h.1, h.2, h.3⟩
  machine := ⟨vm, by rw [Cluster.apply, hvm.name]; exact lookup_insert _, hvm⟩
  detached := h.detached
  others := h.others
  built := h.built
  rest := h.rest

end

theorem VirtualMachine.Names.pointed (h : kvm.Names r.current) (hsaved : r.Saved op) :
    VirtualMachine.Names
      { kvm with
        volumes := kvm.volumes.map fun v =>
          match v.source with
          | .dataVolume name hotpluggable =>
            if name = op.replacedDisk then
              { v with source := .dataVolume op.replacementDisk hotpluggable }
            else v
          | _ => v
        dataVolumeTemplates := op.replacementDisk :: kvm.dataVolumeTemplates.tail
        pointedFor := op.uid } r.next := by
  have hname : ∀ v : Volume, (match v.source with
      | .dataVolume name hotpluggable =>
        if name = op.replacedDisk then
          { v with source := .dataVolume op.replacementDisk hotpluggable }
        else v
      | _ => v).name = v.name := by
    intro v
    split
    · split <;> rfl
    · rfl
  refine ⟨congrArg some hsaved.2, ?_, fun v hv hroot => ?_⟩
  · obtain ⟨v, hv, hroot⟩ := mem_map.mp h.root
    exact mem_map.mpr ⟨_, mem_map_of_mem hv, (hname v).trans hroot⟩
  · obtain ⟨old, hold, rfl⟩ := mem_map.mp hv
    obtain ⟨hotpluggable, hsource⟩ := h.volume old hold ((hname old).symm.trans hroot)
    refine ⟨hotpluggable, ?_⟩
    rw [hsource]
    dsimp only
    rw [if_pos hsaved.1.symm, hsaved.2]

/-- A pass that makes these calls can be stopped anywhere. -/
abbrev Rebuild.Mild (r : Rebuild) (start s : Cluster) (calls : List Write) : Prop :=
  Cuts.Throughout Cluster.apply (fun s => ∃ op, r.Inv start s op) s calls

theorem Rebuild.Inv.mild_status (h : r.Inv start s op) (hcurrent : r.Current op')
    (hsaved : r.Saved op → r.Saved op')
    (hphase : op'.phase ≠ .succeeded := by exact Phase.noConfusion) :
    r.Mild start s [.status op'] :=
  .cons ⟨op, h⟩ (.nil ⟨op', h.status_of hcurrent hsaved hphase⟩)

theorem ensureStopped_congr (h : vm.target = vm'.target) :
    ensureStopped s vm = ensureStopped s vm' := by
  rw [ensureStopped, ensureStopped, h]

theorem Rebuild.Inv.point (h : r.Inv start s op') (hsaved : r.Saved op) (hcurrent : r.Current op)
    (hvm : r.Same vm) (hnames : kvm.Names r.current) (hphase : op'.phase ≠ .succeeded)
    (verb : String) : ∃ write message, pointAtRootDisk s op vm kvm r.current verb =
        ([write], some (op.inProgress message)) ∧
      (r.Saved op' ∧ r.Mild start s [write, .status (op.inProgress message)] ∨
        ¬ r.Saved op' ∧ ∃ op'', r.Inv start
          ([write, .status (op.inProgress message)].foldl Cluster.apply s) op'') := by
  have hne : r.current ≠ op.replacementDisk := by
    rw [hsaved.2]
    exact r.next_ne.symm
  have hpointed := hnames.pointed hsaved
  have hrunning := fun message => hcurrent.inProgress message
  rw [pointAtRootDisk, if_pos hne, hvm.target]
  refine ⟨_, _, rfl, ?_⟩
  generalize verb ++ " " ++ op.replacedDisk ++ " as " ++ op.replacementDisk = message
  by_cases hbefore : r.Saved op'
  · have hmoved := h.vm_write (.inr ⟨⟨_, lookup_insert _, hpointed⟩, hbefore,
      fun hdone => absurd hdone hphase⟩)
    exact .inl ⟨hbefore, .cons ⟨op', h⟩
      (hmoved.mild_status (hrunning _) (fun _ => hsaved))⟩
  · -- nothing that is written depends on which of the two comes first
    refine .inr ⟨hbefore, op.inProgress message, ?_⟩
    exact (h.status_of (hrunning message) (fun _ => hsaved) Phase.noConfusion).vm_write
      (.inr ⟨⟨_, lookup_insert _, hpointed⟩, hsaved, Phase.noConfusion⟩)

theorem Rebuild.Inv.finish (h : r.Inv start s op') (hafter : r.After s op')
    (hgone : r.current ∉ s.disks) (hthere : r.next ∈ s.disks) (hsaved : r.Saved op)
    (hcurrent : r.Current op) (hvm : r.Same vm') (p : Prop) [Decidable p] (message : String) :
    r.Mild start s ((if p then [.machine vm'] else []) ++
      [.status (op.finish .succeeded message)]) := by
  have hstatus : ∀ {u}, r.Inv start u op' → r.After u op' → r.current ∉ u.disks →
      r.next ∈ u.disks → r.Mild start u [.status (op.finish .succeeded message)] := by
    intro u h hafter hgone hthere
    have hdone := h.status (hcurrent.finish .succeeded message)
      (.inr ⟨hafter.kvm, hsaved, fun _ => ⟨hgone, hthere⟩⟩)
    exact .cons ⟨op', h⟩ (.nil ⟨_, hdone⟩)
  refine .ite_append (fun _ => .cons ⟨op', h⟩ ?_) fun _ => hstatus h hafter hgone hthere
  exact hstatus (h.machine_write hvm) ⟨hafter.1, hafter.2, hafter.3⟩ hgone hthere

theorem Rebuild.Inv.retire (h : r.Inv start s op') (hafter : r.After s op')
    (hphase : op'.phase ≠ .succeeded) (hthere : r.next ∈ s.disks) (hsaved : r.Saved op)
    (hcurrent : r.Current op) (hrunning : op.runningBefore = some r.vm.running) (hvm : r.Same vm)
    (kvm : VirtualMachine) (verb message : String) :
    ∃ writes, pointAtRootDisk s op vm kvm r.next verb = (writes, none) ∧
      r.Mild start s (writes ++ restoreRunState op (recorded op vm) ++
        [.status (op.finish .succeeded message)]) := by
  have hkeeps : restoreRunState op (recorded op vm) = [] := by
    have hpower : (recorded op vm).running = r.vm.running := by
      rw [recorded]
      split
      · exact hvm.running
      · exact hvm.running
    rw [restoreRunState, hrunning]
    exact if_pos hpower
  rw [pointAtRootDisk, if_neg (not_not.mpr hsaved.2.symm), hkeeps, hsaved.1, hsaved.2]
  refine ⟨_, rfl, ?_⟩
  rw [append_nil, append_assoc]
  have hsame : r.Same { vm with rootDiskEpoch := epochOf r.next, rootDiskName := r.next } :=
    ⟨hvm.1, hvm.2, hvm.3, hvm.4⟩
  by_cases hremoves : r.current ≠ r.next ∧ r.current ∈ s.disks
  · rw [if_pos hremoves, singleton_append]
    have hremoved := h.removeDisk hafter hphase
    exact .cons ⟨op', h⟩ (hremoved.finish ⟨hafter.1, hafter.2, fun hno => absurd hno hphase⟩
      (fun hno => (mem_erase.mp hno).1 rfl) (mem_erase.mpr ⟨r.next_ne, hthere⟩) hsaved
      hcurrent hsame (vm.rootDiskEpoch < epochOf r.next) message)
  · rw [if_neg hremoves, nil_append]
    have hgone : r.current ∉ s.disks := fun hno => hremoves ⟨r.next_ne.symm, hno⟩
    exact h.finish hafter hgone hthere hsaved hcurrent hsame
      (vm.rootDiskEpoch < epochOf r.next) message

/-- A pass that would lose the names if it were stopped after its first call. -/
structure Rebuild.Joint (r : Rebuild) (start s : Cluster) (op : Operation)
    (calls : List Write) : Prop where
  unsaved : ¬ r.Saved op
  down : (ensureStopped s r.vm).2 = true
  length : calls.length = 2
  done : ∃ op', r.Inv start (calls.foldl Cluster.apply s) op'

/-- When the names are known, the machine is stopped, put on the new disk, or rid of the old one. -/
theorem Rebuild.Inv.move (h : r.Inv start s op') (hphase : op'.phase ≠ .succeeded)
    (hsaved : r.Saved op) (hcurrent : r.Current op)
    (hrunning : op.runningBefore = some r.vm.running) (hvm : r.Same vm)
    (hkvm : s.vms.lookup r.vm.target = some kvm)
    (hhead : kvm.dataVolumeTemplates.head? = some current)
    (hthere : current = r.next → r.next ∈ s.disks) (waiting verb message : String) :
    r.Mild start s (moveRootDisk s op vm kvm current waiting verb message).calls ∨
      r.Joint start s op' (moveRootDisk s op vm kvm current waiting verb message).calls := by
  rw [moveRootDisk, ensureStopped_congr hvm.target]
  split
  · next writes hstopping =>
    refine .inl ?_
    obtain hnil | ⟨found, hfound, hhalts⟩ := ensureStopped_cases s r.vm
    · rw [hstopping] at hnil
      subst hnil
      exact h.mild_status (hcurrent.inProgress _) (fun _ => hsaved)
    · obtain rfl := congrArg Prod.fst (hstopping.symm.trans hhalts)
      have hhalted : r.Inv start (s.apply
          (.vm r.vm.target { found with runStrategy := some halted })) op' :=
        h.halt hfound fun disk hnames => ⟨hnames.1, hnames.2, hnames.3⟩
      exact .cons ⟨op', h⟩
        (hhalted.mild_status (hcurrent.inProgress _) (fun _ => hsaved))
  · next hdown =>
    have hdown : (ensureStopped s r.vm).2 = true := by rw [hdown]
    obtain hbefore | hafter := h.stage
    · obtain ⟨found, hfound, hnames⟩ := hbefore.kvm
      obtain rfl := mem_unique hkvm hfound
      obtain rfl := mem_unique hhead hnames.template
      obtain ⟨write, text, hpoint, ⟨-, hmild⟩ | ⟨hunsaved, hdone⟩⟩ :=
        h.point hsaved hcurrent hvm hnames hphase verb
      · rw [hpoint]
        exact .inl hmild
      · rw [hpoint]
        exact .inr ⟨hunsaved, hdown, rfl, hdone⟩
    · obtain ⟨found, hfound, hnames⟩ := hafter.kvm
      obtain rfl := mem_unique hkvm hfound
      obtain rfl := mem_unique hhead hnames.template
      obtain ⟨writes, hretire, hmild⟩ := h.retire hafter hphase (hthere rfl) hsaved hcurrent
        hrunning hvm kvm verb message
      rw [hretire]
      exact .inl hmild

theorem Rebuild.Inv.restoring (isQuantity : String → Bool) (h : r.Inv start s op')
    (hsaved : r.Saved op)
    (hcurrent : r.Current op) (snapshotName source : String) (snapshot : VolumeSnapshot) :
    (∀ pass, restoring isQuantity s op snapshotName snapshot source = some pass →
        r.Mild start s pass.calls) ∧
      (restoring isQuantity s op snapshotName snapshot source = none →
        ∃ disk, s.disks.lookup r.next = some disk ∧ disk.phase = succeeded) := by
  have hstatus : ∀ {u} message, r.Inv start u op' →
      r.Mild start u [.status (op.inProgress message)] := fun message h =>
    h.mild_status (hcurrent.inProgress message) (fun _ => hsaved)
  rw [← hsaved.2]
  refine restoring_cases (.nil ⟨op', h⟩) (fun built message hnone _ => ?_)
    fun message => hstatus message h
  rw [hsaved.2] at hnone ⊢
  exact .cons ⟨op', h⟩ (hstatus message (h.disk (lookup_eq_none.mp hnone) _))

/-- The disk that the machine is on is the old one, or the names have been saved. -/
theorem Rebuild.Inv.on (h : r.Inv start s op) : ∃ kvm current rest,
    s.vms.lookup r.vm.target = some kvm ∧ kvm.dataVolumeTemplates = current :: rest ∧
      (current = r.current ∨ r.Saved op) := by
  have hhead : ∀ {kvm : VirtualMachine} {disk}, kvm.Names disk →
      ∃ rest, kvm.dataVolumeTemplates = disk :: rest :=
    fun hnames => List.head?_eq_some_iff.mp hnames.template
  obtain hbefore | hafter := h.stage
  · obtain ⟨kvm, hkvm, hnames⟩ := hbefore.kvm
    obtain ⟨rest, hrest⟩ := hhead hnames
    exact ⟨kvm, r.current, rest, hkvm, hrest, .inl rfl⟩
  · obtain ⟨kvm, hkvm, hnames⟩ := hafter.kvm
    obtain ⟨rest, hrest⟩ := hhead hnames
    exact ⟨kvm, r.next, rest, hkvm, hrest, .inr hafter.saved⟩

theorem Rebuild.Inv.rollback (h : r.Inv start s op') (hphase : op'.phase ≠ .succeeded)
    (hnamed : r.current ≠ "") (hcurrent : r.Current op)
    (hrunning : op.runningBefore = some r.vm.running) (hkept : r.Saved op' → r.Saved op)
    (hvm : r.Same vm) (snapshotName source : String) (snapshot : VolumeSnapshot) :
    let pass := rollbackRootDisk isQuantity s op vm snapshotName snapshot source
    r.Mild start s pass.calls ∨ r.Joint start s op' pass.calls ∧
      ∃ disk, s.disks.lookup r.next = some disk ∧ disk.phase = succeeded := by
  obtain ⟨kvm, current, rest, hkvm, htemplates, hon⟩ := h.on
  obtain ⟨hsaved, hchosen⟩ := hcurrent.choose hnamed (hon.imp_right hkept) hvm.name
  dsimp only
  rw [rollbackRootDisk, hvm.target, hkvm]
  dsimp only
  rw [htemplates]
  dsimp only
  have hpower : (op.choose current (nextRootDiskName vm.name current)).runningBefore =
      some r.vm.running := hrunning
  generalize op.choose current (nextRootDiskName vm.name current) = op at *
  obtain ⟨hwaits, hfilled⟩ :=
    h.restoring isQuantity hsaved hchosen snapshotName source snapshot
  split
  · next pass hpass => exact .inl (hwaits pass hpass)
  · next hnone =>
    obtain ⟨disk, hdisk, hdone⟩ := hfilled hnone
    have hthere : r.next ∈ s.disks := lookup_isSome.mp (isSome_of_eq_some hdisk)
    have hhead : kvm.dataVolumeTemplates.head? = some current := by rw [htemplates]; rfl
    exact (h.move hphase hsaved hchosen hpower hvm hkvm hhead (fun _ => hthere) _ _ _).imp_right
      fun hjoint => ⟨hjoint, disk, hdisk, hdone⟩

/-- What a pass does: it can be stopped anywhere, or the names are not saved yet. -/
theorem Rebuild.Inv.calls (isQuantity : String → Bool) (h : r.Inv start s op)
    (hnamed : r.current ≠ "")
    (haction : r.action = .recreate ∨ ∃ snapshotName, r.action = .rollbackDisk snapshotName)
    (hbuilt : r.action = .recreate → ∀ kvm disk, s.vms.lookup r.vm.target = some kvm →
      kvm.dataVolumeTemplates.head? = some disk → disk ∈ s.disks) :
    r.Mild start s (reconcile isQuantity s op) ∨
      r.Unsaved s ∧ r.Joint start s op (reconcile isQuantity s op) := by
  by_cases hfinished : op.Finished
  · rw [reconcile_finished hfinished]
    exact .inl (.nil ⟨op, h⟩)
  have hphase : op.phase ≠ .succeeded := fun hdone => hfinished (.inl hdone)
  obtain ⟨vm, hmachine, hvm⟩ := h.machine
  have hlookup : s.machines.lookup op.vmName = some vm := by
    rw [h.current.request.vmName]
    exact hmachine
  rw [reconcile_eq hfinished hlookup]
  obtain ⟨hcurrent, hrunning⟩ := h.current.begin hvm
  have hkept : r.Saved op → r.Saved (op.begin vm) := id
  have hunsaved : ¬ r.Saved op → op.replacementDisk = "" :=
    fun hno => (h.current.names.resolve_right hno).2
  obtain haction | ⟨snapshotName, haction⟩ := haction
  · have hact : (op.begin vm).action = .recreate := hcurrent.request.action.trans haction
    rw [act_recreate hact, reconcileRecreate, hvm.target]
    obtain ⟨kvm, current, rest, hkvm, htemplates, hon⟩ := h.on
    have hhead : kvm.dataVolumeTemplates.head? = some current := by rw [htemplates]; rfl
    obtain ⟨hsaved, hchosen⟩ := hcurrent.choose hnamed (hon.imp_right hkept) hvm.name
    rw [hkvm]
    dsimp only
    rw [htemplates]
    refine (h.move hphase hsaved hchosen hrunning hvm hkvm hhead
      (fun hnext => hnext ▸ hbuilt haction kvm current hkvm hhead) _ _ _).imp_right
      fun hjoint => ⟨⟨⟨op, h.lookup, hfinished, hunsaved hjoint.unsaved⟩, hjoint.down, ?_⟩, hjoint⟩
    intro snapshotName hno
    rw [haction] at hno
    contradiction
  · have hact : (op.begin vm).action = .rollbackDisk snapshotName :=
      hcurrent.request.action.trans haction
    have hends : ∀ message, r.Mild start s [.status ((op.begin vm).finish .failed message)] :=
      fun message => h.mild_status (hcurrent.finish _ _) hkept
    rw [act_rollbackDisk hact, reconcileRollbackDisk]
    generalize op.begin vm = begun at *
    split
    · exact .inl (hends _)
    next snapshot hsnapshot =>
    dsimp only
    split
    · exact .inl (h.mild_status (hcurrent.inProgress _) hkept)
    next hready =>
    rw [Bool.not_eq_false] at hready
    split
    · exact .inl (hends _)
    have hdetached : snapshot.source ∉ vm.disks.map DiskAttachment.claim := by
      rw [hvm.disks]
      exact h.detached snapshotName snapshot haction hsnapshot
    rw [if_pos hdetached]
    split
    · refine (h.rollback hphase hnamed hcurrent hrunning hkept hvm snapshotName snapshot.source
        snapshot).imp_right fun hjoint => ⟨⟨⟨op, h.lookup, hfinished,
          hunsaved hjoint.1.unsaved⟩, hjoint.1.down, ?_⟩, hjoint.1⟩
      intro name hname
      obtain rfl := Action.rollbackDisk.inj (haction.symm.trans hname)
      exact ⟨⟨snapshot, hsnapshot, hready⟩, hjoint.2⟩
    · exact .inl (hends _)

theorem Rebuild.Inv.change (h : r.Inv start s op) {change : Change}
    (hstep : s.change change = some t) : r.Inv start t op := by
  obtain ⟨vmName, kvm, disk, -, hkvm, hhead, hnew, rfl⟩ | ⟨hbuilt, hdisks⟩ :=
    built_of_change hstep
  · by_cases htarget : vmName = r.vm.target
    · subst htarget
      obtain hbefore | hafter := h.stage
      · obtain ⟨found, hfound, hnames⟩ := hbefore.kvm
        obtain rfl := mem_unique hkvm hfound
        obtain rfl := mem_unique hhead hnames.template
        exact absurd hbefore.there hnew
      · obtain ⟨found, hfound, hnames⟩ := hafter.kvm
        obtain rfl := mem_unique hkvm hfound
        obtain rfl := mem_unique hhead hnames.template
        exact h.disk hnew _
    · exact absurd (h.others vmName kvm disk htarget hkvm hhead).1 hnew
  · obtain ⟨hops, hmachines, hvms, hsnapshots⟩ := rest_of_change hstep
    refine ⟨hops ▸ h.lookup, h.current, h.stage.imp (fun h => ?_) fun h => ?_,
      hmachines ▸ h.machine, fun name snapshot haction hsnapshot => ?_,
      fun name kvm disk hname hkvm hhead => ?_, ?_, fun n hcurrent hnext => ?_⟩
    · exact ⟨hvms ▸ h.kvm, (hdisks _).mpr h.there, h.phase⟩
    · refine ⟨hvms ▸ h.kvm, h.saved, fun hdone => ?_⟩
      exact ⟨mt (hdisks _).mp (h.done hdone).1, (hdisks _).mpr (h.done hdone).2⟩
    · obtain ⟨old, hold, hsource⟩ := hsnapshots name snapshot hsnapshot
      exact hsource ▸ h.detached name old haction hold
    · obtain ⟨hthere, hne⟩ := h.others name kvm disk hname (hvms ▸ hkvm) hhead
      exact ⟨(hdisks _).mpr hthere, hne⟩
    · rw [hbuilt, hdisks]
      exact h.built
    · rw [hdisks]
      exact h.rest n hcurrent hnext

theorem Rebuild.Inv.step (h : r.Inv start s op) (hnamed : r.current ≠ "")
    (haction : r.action = .recreate ∨ ∃ snapshotName, r.action = .rollbackDisk snapshotName)
    {e : Event} (hsaves : r.Saves s e) (hstep : s.step isQuantity r.name e = some t) :
    ∃ op, r.Inv start t op := by
  cases e with
  | change change => exact ⟨op, h.change hstep⟩
  | pass cut =>
    obtain ⟨found, hfound, rfl⟩ := map_eq_some_iff.mp hstep
    obtain rfl := mem_unique h.lookup hfound
    rw [Cluster.pass]
    obtain hmild | ⟨hunsaved, hjoint⟩ := h.calls isQuantity hnamed haction hsaves.2
    · exact hmild _
    · obtain hstart | hlength : cut = some 0 ∨ 2 ≤ cut.getD 2 := by
        cases cut with
        | none => exact .inr le_rfl
        | some n => exact (hsaves.1 n rfl hunsaved).imp_left (congrArg some)
      · rw [hstart]
        exact ⟨op, h⟩
      · rw [hjoint.length, take_of_length_le (hjoint.length.trans_le hlength)]
        exact hjoint.done

/-- Runs in which the names are saved with the template, if not before. -/
theorem Rebuild.Begun.run (h : r.Begun start) (hfree : r.next ∉ start.disks)
    (hrun : Machine.Run (Cluster.step isQuantity r.name) r.Saves start s) :
    ∃ op, r.Inv start s op :=
  hrun.invariant (P := fun s => ∃ op, r.Inv start s op) ⟨_, h.inv hfree⟩
    fun ⟨_, hinv⟩ hsaves hstep => hinv.step h.named h.action hsaves hstep

theorem Rebuild.Inv.survives (h : r.Inv start s op)
    (hfree : r.next ∉ start.disks) : r.Survives start s := by
  have hon : ∃ kvm disk, s.vms.lookup r.vm.target = some kvm ∧ kvm.Names disk := by
    obtain hbefore | hafter := h.stage
    · obtain ⟨kvm, hkvm, hnames⟩ := hbefore.kvm
      exact ⟨kvm, _, hkvm, hnames⟩
    · obtain ⟨kvm, hkvm, hnames⟩ := hafter.kvm
      exact ⟨kvm, _, hkvm, hnames⟩
  refine ⟨hon, fun kvm disk hkvm hnames => ?_, fun found hfound hdone => ?_⟩
  · obtain hbefore | hafter := h.stage
    · obtain ⟨found, hfound, hcurrent⟩ := hbefore.kvm
      obtain rfl := mem_unique hkvm hfound
      obtain rfl := mem_unique hnames.template hcurrent.template
      exact .inl hbefore.there
    · obtain ⟨found, hfound, hnext⟩ := hafter.kvm
      obtain rfl := mem_unique hkvm hfound
      obtain rfl := mem_unique hnames.template hnext.template
      obtain ⟨hnone, -⟩ | ⟨-, hmem⟩ := h.built
      · exact .inr ⟨hfree, hnone ▸ not_mem_nil⟩
      · exact .inl hmem
  · obtain rfl := mem_unique h.lookup hfound
    obtain hbefore | hafter := h.stage
    · exact absurd hdone hbefore.phase
    obtain ⟨kvm, hkvm, hnames⟩ := hafter.kvm
    obtain ⟨hgone, hmem⟩ := hafter.done hdone
    obtain ⟨-, hno⟩ | ⟨hbuilt, -⟩ := h.built
    · exact absurd hmem hno
    refine ⟨kvm, r.next, hkvm, hnames, hbuilt, fun n => ?_⟩
    by_cases hnext : n = r.next
    · subst hnext
      exact ⟨fun _ => .inl rfl, fun _ => hmem⟩
    · by_cases hcurrent : n = r.current
      · subst hcurrent
        exact ⟨fun hno => absurd hno hgone, fun hno => absurd rfl (hno.resolve_left hnext).2⟩
      · rw [h.rest n hcurrent hnext]
        exact ⟨fun hn => .inr ⟨hn, hcurrent⟩, fun hn => (hn.resolve_left hnext).1⟩

/-- In a run in which the names are saved with the template, if not before, the root disk is
replaced wherever passes are stopped. -/
theorem rebuild_survives (h : r.Begun start) (hfree : r.next ∉ start.disks)
    (hrun : Machine.Run (Cluster.step isQuantity r.name) r.Saves start s) : r.Survives start s := by
  obtain ⟨op, hinv⟩ := h.run hfree hrun
  exact hinv.survives hfree

end Invariant

/-- A machine that is down, and is to be wiped. -/
def Rebuild.web : Rebuild where
  name := "rebuild"
  uid := "uid-1"
  action := .recreate
  vm := { name := "web", running := false }
  current := "web-root-1"

def Cluster.web : Cluster where
  operations := AList.insert "rebuild" Rebuild.web.op ∅
  machines := AList.insert "web" Rebuild.web.vm ∅
  vms := AList.insert "web" ⟨some "Halted", ["web-root-1"],
    [⟨"rootdisk", .dataVolume "web-root-1" false⟩], ""⟩ ∅
  disks := AList.insert "web-root-1" { size := "10Gi", phase := "Succeeded" } ∅

theorem Rebuild.begun_web : Rebuild.web.Begun Cluster.web := by
  refine ⟨rfl, .inl rfl, rfl, ⟨_, rfl, rfl, by decide, fun v hv _ => ?_⟩, by decide,
    by decide +kernel, fun _ _ hno => by contradiction, fun name kvm disk hname hkvm _ => ?_, rfl⟩
  · obtain rfl := mem_singleton.mp hv
    exact ⟨false, rfl⟩
  · have hnone : Cluster.web.vms.lookup name = none := lookup_insert_ne hname
    rw [hnone] at hkvm
    contradiction

theorem Rebuild.free_web : Rebuild.web.next ∉ Cluster.web.disks := by decide +kernel

/-- What its template names is there. -/
def Cluster.Built (s : Cluster) (name : String) : Prop :=
  (s.vms.lookup name).all fun kvm => kvm.dataVolumeTemplates.head?.all (· ∈ s.disks)

instance (s : Cluster) (name : String) : Decidable (s.Built name) :=
  inferInstanceAs (Decidable (_ = true))

/-- The machine is wiped in two passes. -/
theorem rebuild_survives_web : ∃ t, Rebuild.web.Survives Cluster.web t ∧
    (t.operations.lookup "rebuild").map (·.phase) = some .succeeded ∧
      t.built = ["web-root-2"] := by
  have hplay : (Machine.play (Cluster.step (fun _ => true) "rebuild")
      (fun s e => e.Unfailing ∧ s.Built "web" ∨ e matches .change _) Cluster.web
      [.pass none, .change (.build "web"), .pass none]).any
      (fun t => (t.operations.lookup "rebuild").map (·.phase) = some .succeeded ∧
        t.built = ["web-root-2"]) = true := by decide +kernel
  obtain ⟨t, hrun, ht⟩ := Machine.exists_run_of_play _ hplay
  have hsaves : Machine.Run (Cluster.step (fun _ => true) "rebuild") Rebuild.web.Saves
      Cluster.web t := by
    refine hrun.mono fun u e he => ?_
    cases e with
    | change _ => trivial
    | pass cut =>
      obtain ⟨hcut, hbuilt⟩ := he.resolve_right Bool.false_ne_true
      refine ⟨fun n hn => ?_, fun _ kvm disk hkvm hhead => ?_⟩
      · obtain rfl : cut = none := hcut
        contradiction
      · have hkvm : u.vms.lookup "web" = some kvm := hkvm
        rw [Cluster.Built, hkvm, all_some, hhead, all_some] at hbuilt
        exact of_decide_eq_true hbuilt
  exact ⟨t, rebuild_survives Rebuild.begun_web Rebuild.free_web hsaves, of_decide_eq_true ht⟩

/-- The process stops when it has rewritten the template for the first time. The next pass chooses
other names, and the first disk is never removed. -/
theorem not_rebuild_survives :
    ¬ ∀ (isQuantity : String → Bool) (r : Rebuild) (start s : Cluster), r.Begun start →
      r.next ∉ start.disks →
      Machine.Run (Cluster.step isQuantity r.name) (fun _ _ => True) start s →
      r.Survives start s := by
  intro hall
  have hplay : (Machine.play (Cluster.step (fun _ => true) "rebuild") (fun _ _ => True) Cluster.web
      [.pass (some 1), .change (.build "web"), .pass none, .change (.build "web"), .pass none]).any
      (fun t => (t.operations.lookup "rebuild").any (·.phase = .succeeded) ∧
        t.built = ["web-root-3", "web-root-2"]) = true := by decide +kernel
  obtain ⟨t, hrun, ht⟩ := Machine.exists_run_of_play _ hplay
  obtain ⟨hdone, htwo⟩ := of_decide_eq_true ht
  obtain ⟨op, hop, hdone⟩ := (any_eq_true _ _).mp hdone
  have hsurvives := hall (fun _ => true) Rebuild.web Cluster.web t Rebuild.begun_web
    Rebuild.free_web hrun
  obtain ⟨kvm, disk, -, -, hone, -⟩ := hsurvives.replaced op hop (of_decide_eq_true hdone)
  rw [htwo] at hone
  have hlength : 2 = 1 := congrArg List.length hone
  exact absurd hlength (by decide)

end Operations
