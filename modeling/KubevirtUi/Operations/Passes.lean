import KubevirtUi.Disks.Sync
import KubevirtUi.Go.Strconv

/-!
# What a pass over an operation does

An operation is an object: what is to be done, and how far it has got. The disks, snapshots and
machines it works on, and the objects that KubeVirt does its work with, are found by their names.

A pass reads what there is, and makes calls one after the other; the last saves the status of the
operation. It can be stopped between any two of them, or one can fail: then what comes after it is
not done, and the next pass starts from what there is.
-/

namespace Operations

open Option AList

open Disks (DiskAttachment Volume VolumeSource Labels)

def halted : String := "Halted"

def succeeded : String := "Succeeded"

def failed : String := "Failed"

def managedLabel : String := "kubevirt-ui.io/managed"

def adoptAnnotation : String := "platform.kubevirt-ui.io/adopt"

def ownerAnnotation : String := "kubevirt-ui.io/owner"

structure ManagedVM where
  name : String
  displayName : String := ""
  disks : List DiskAttachment := []
  running : Bool
  initialPasswordSecretRef : Option String := none
  annotations : Labels := ∅
  virtualMachineName : String := ""
  rootDiskName : String := ""
  rootDiskEpoch : Int := 0

/-- The `VirtualMachine` behind a machine. -/
structure VirtualMachine where
  runStrategy : Option String
  dataVolumeTemplates : List String
  volumes : List Volume
  /-- The operation that has last put it on a disk: no code reads this. -/
  pointedFor : String := ""
  deriving DecidableEq

structure DataVolume where
  labels : Labels := ∅
  /-- The snapshot that it is filled from. -/
  snapshot : Option String := none
  storageClass : String := ""
  size : String := ""
  phase : String := ""
  /-- The operation that it was made for: no code reads this. -/
  madeFor : String := ""
  deriving DecidableEq

structure VolumeSnapshot where
  readyToUse : Bool
  source : String
  restoreSize : String := ""
  deriving DecidableEq

/-- The labels that say for which operation an object was made. -/
structure Owner where
  name : String
  uid : String
  deriving DecidableEq

structure Restore where
  owner : Owner
  target : String
  snapshotName : String
  complete : Bool := false
  /-- The reason and the message. -/
  failure : Option (String × String) := none

structure Migration where
  owner : Owner
  vmiName : String
  node : String
  phase : String := ""

structure Clone where
  owner : Owner
  source : String
  target : String
  phase : String := ""
  targetName : Option String := none

inductive Action where
  | restore (snapshotName : String)
  | migrate (targetNode : String)
  | rollbackDisk (snapshotName : String)
  | recreate
  | clone (targetName : String) (startAfterClone : Bool)
  | unknown (action : String)
  deriving DecidableEq

inductive Phase where
  | unset
  | pending
  | running
  | succeeded
  | failed
  deriving DecidableEq

structure Operation where
  name : String
  uid : String
  vmName : String
  action : Action
  phase : Phase := .unset
  message : String := ""
  runningBefore : Option Bool := none
  childName : String := ""
  replacementDisk : String := ""
  replacedDisk : String := ""
  targetName : String := ""
  deriving DecidableEq

def Operation.Finished (op : Operation) : Prop := op.phase = .succeeded ∨ op.phase = .failed

instance (op : Operation) : Decidable op.Finished := inferInstanceAs (Decidable (_ ∨ _))

def Operation.inProgress (op : Operation) (message : String) : Operation :=
  { op with phase := .running, message }

def Operation.finish (op : Operation) (phase : Phase) (message : String) : Operation :=
  { op with phase, message }

def Operation.owner (op : Operation) : Owner := ⟨op.name, op.uid⟩

structure Cluster where
  operations : AList fun _ : String => Operation := ∅
  machines : AList fun _ : String => ManagedVM := ∅
  vms : AList fun _ : String => VirtualMachine := ∅
  /-- Where a machine runs. -/
  instances : AList fun _ : String => String := ∅
  disks : AList fun _ : String => DataVolume := ∅
  snapshots : AList fun _ : String => VolumeSnapshot := ∅
  vmSnapshots : List String := []
  restores : AList fun _ : String => Restore := ∅
  migrations : AList fun _ : String => Migration := ∅
  clones : AList fun _ : String => Clone := ∅
  /-- Every disk that has been made: no code reads this. -/
  built : List String := []

/-- A call that changes something. -/
inductive Write where
  | restore (name : String) (restore : Restore)
  | migration (name : String) (migration : Migration)
  | clone (name : String) (clone : Clone)
  | disk (name : String) (disk : DataVolume)
  | removeDisk (name : String)
  | vm (name : String) (vm : VirtualMachine)
  | machine (vm : ManagedVM)
  | status (op : Operation)

def Cluster.apply (s : Cluster) : Write → Cluster
  | .restore name restore => { s with restores := s.restores.insert name restore }
  | .migration name migration => { s with migrations := s.migrations.insert name migration }
  | .clone name clone => { s with clones := s.clones.insert name clone }
  | .disk name disk => { s with disks := s.disks.insert name disk, built := name :: s.built }
  | .removeDisk name => { s with disks := s.disks.erase name }
  | .vm name vm => { s with vms := s.vms.insert name vm }
  | .machine vm => { s with machines := s.machines.insert vm.name vm }
  | .status op => { s with operations := s.operations.insert op.name op }

/-- The name of the `VirtualMachine` behind a machine. -/
def ManagedVM.target (vm : ManagedVM) : String :=
  if vm.virtualMachineName = "" then vm.name else vm.virtualMachineName

def rootPrefix (vmName : String) : String := vmName ++ "-root-"

def isRootDiskOf (vm : ManagedVM) (claim : String) : Bool :=
  if vm.rootDiskName ≠ "" then vm.rootDiskName = claim
  else Go.hasPrefix claim (rootPrefix vm.name)

/-- The epoch of a root disk's name is advanced. -/
def nextRootDiskName (vmName current : String) : String :=
  let start := rootPrefix vmName
  if Go.hasPrefix current start then
    match Go.atoi (String.ofList (current.toList.drop start.length)) with
    | some epoch => start ++ toString ((epoch + 1).bmod (2 ^ 64))
    | none => start ++ "2"
  else start ++ "2"

def epochOf (diskName : String) : Int :=
  match Go.afterLast "-root-".toList diskName.toList with
  | none => 0
  | some text =>
    match Go.atoi (String.ofList text) with
    | none => 0
    | some epoch => epoch.bmod (2 ^ 32)

/-- The name of the disk that an attached one is replaced with. -/
def rollbackName (op : Operation) (source : String) : String :=
  source ++ "-rb-" ++ String.ofList (op.name.toList.drop (op.name.length - 6))

theorem hasPrefix_iff {s start : String} :
    Go.hasPrefix s start = true ↔ ∃ rest, s.toList = start.toList ++ rest := by
  rw [Go.hasPrefix, List.isPrefixOf_iff_prefix]
  exact ⟨fun ⟨rest, h⟩ => ⟨rest, h.symm⟩, fun ⟨rest, h⟩ => ⟨rest, h.symm⟩⟩

theorem atoi_toString_bmod (n : Int) :
    Go.atoi (toString (n.bmod (2 ^ 64))) = some (n.bmod (2 ^ 64)) :=
  Go.atoi_toString (Int.le_bmod (by decide)) (Int.bmod_lt (by decide))

theorem bmod_succ_ne {n : Int} : (n + 1).bmod (2 ^ 64) ≠ n := by
  intro h
  have hdvd : ((2 ^ 64 : Nat) : Int) ∣ (n + 1).bmod (2 ^ 64) - (n + 1) := Int.dvd_bmod_sub_self
  have hone : n - (n + 1) = -1 := by omega
  rw [h, hone] at hdvd
  exact absurd hdvd (by decide)

theorem nextRootDiskName_ne (vmName current : String) :
    nextRootDiskName vmName current ≠ current := by
  intro hsame
  have hstart : ∀ s, Go.hasPrefix (rootPrefix vmName ++ s) (rootPrefix vmName) = true :=
    fun s => hasPrefix_iff.mpr ⟨s.toList, String.toList_append⟩
  have hrest : ∀ s, String.ofList ((rootPrefix vmName ++ s).toList.drop
      (rootPrefix vmName).length) = s := by
    intro s
    rw [String.toList_append, ← String.length_toList, List.drop_left, String.ofList_toList]
  rw [nextRootDiskName] at hsame
  split at hsame
  · split at hsame
    · next epoch hepoch =>
      rw [← hsame, hrest, atoi_toString_bmod] at hepoch
      exact bmod_succ_ne (some.inj hepoch)
    · next hnone =>
      rw [← hsame, hrest] at hnone
      revert hnone
      decide
  · next hno =>
    rw [← hsame] at hno
    exact hno (hstart _)

/-- The calls that change something, and the status that is saved after them, if none has failed. -/
structure Pass where
  writes : List Write
  status : Option Operation

variable (isQuantity : String → Bool)

def orUnknown (s : String) : String := if s = "" then "unknown" else s

/-- What halts the machine, and whether it is down. -/
def ensureStopped (s : Cluster) (vm : ManagedVM) : List Write × Bool :=
  match s.vms.lookup vm.target with
  | none => ([], true)
  | some kvm =>
    if kvm.runStrategy ≠ some halted then
      ([.vm vm.target { kvm with runStrategy := some halted }], false)
    else ([], s.instances.lookup vm.target = none)

/-- The list with another disk, if it has the one that is replaced. -/
def swapDisk (vm : ManagedVM) (source target : String) : Option ManagedVM :=
  if source ∈ vm.disks.map DiskAttachment.claim then
    some { vm with
      disks := vm.disks.map fun d => if d.claim = source then { d with claim := target } else d }
  else none

def restoreRunState (op : Operation) (vm : ManagedVM) : List Write :=
  match op.runningBefore with
  | none => []
  | some running => if vm.running = running then [] else [.machine { vm with running }]

/-- A disk that is filled from the snapshot, with the labels of the one that it replaces, but not
its holder. -/
def buildReplacementDisk (s : Cluster) (op : Operation) (snapshotName : String)
    (snapshot : VolumeSnapshot) (source : String) : Option DataVolume :=
  let restoreSize := if snapshot.restoreSize ≠ "" then snapshot.restoreSize else "1Gi"
  let labels : Labels := AList.insert managedLabel "true" ∅
  let built : DataVolume :=
    match s.disks.lookup source with
    | none => { labels, size := restoreSize }
    | some existing =>
      { labels := existing.labels.entries.foldl (fun labels entry =>
          if entry.1 = Disks.attachedToLabel ∨ entry.1 = Disks.attachedToUIDLabel then labels
          else labels.insert entry.1 entry.2) labels
        storageClass := existing.storageClass
        size := if existing.size ≠ "" then existing.size else restoreSize }
  if isQuantity built.size then some { built with snapshot := some snapshotName, madeFor := op.uid }
  else none

/-- The machine is put on another root disk; when it is, the one that it was on is removed. -/
def pointAtRootDisk (s : Cluster) (op : Operation) (vm : ManagedVM) (kvm : VirtualMachine)
    (current : String) (verb : String) : List Write × Option Operation :=
  if current ≠ op.replacementDisk then
    let volumes := kvm.volumes.map fun v =>
      match v.source with
      | .dataVolume name hotpluggable =>
        if name = op.replacedDisk then
          { v with source := .dataVolume op.replacementDisk hotpluggable }
        else v
      | _ => v
    let dataVolumeTemplates := op.replacementDisk :: kvm.dataVolumeTemplates.tail
    ([.vm vm.target { kvm with volumes, dataVolumeTemplates, pointedFor := op.uid }],
      some (op.inProgress (verb ++ " " ++ op.replacedDisk ++ " as " ++ op.replacementDisk)))
  else
    let removes := if op.replacedDisk ≠ op.replacementDisk ∧ op.replacedDisk ∈ s.disks then
      [Write.removeDisk op.replacedDisk] else []
    let epoch := epochOf op.replacementDisk
    let records := if vm.rootDiskEpoch < epoch then
      [Write.machine { vm with rootDiskEpoch := epoch, rootDiskName := op.replacementDisk }] else []
    (removes ++ records, none)

/-- The machine as it is after its epoch has been recorded. -/
def recorded (op : Operation) (vm : ManagedVM) : ManagedVM :=
  if vm.rootDiskEpoch < epochOf op.replacementDisk then
    { vm with rootDiskEpoch := epochOf op.replacementDisk, rootDiskName := op.replacementDisk }
  else vm

/-- The names are chosen once, and kept when they have been saved. -/
def Operation.choose (op : Operation) (replaced replacement : String) : Operation :=
  { op with
    replacedDisk := if op.replacedDisk = "" then replaced else op.replacedDisk
    replacementDisk := if op.replacementDisk = "" then replacement else op.replacementDisk }

/-- The replacement that is there, or the pass that makes it or waits for it. -/
def restoring (s : Cluster) (op : Operation) (snapshotName : String) (snapshot : VolumeSnapshot)
    (source : String) : Option Pass :=
  match s.disks.lookup op.replacementDisk with
  | none =>
    match buildReplacementDisk isQuantity s op snapshotName snapshot source with
    | none => some ⟨[], none⟩
    | some built => some ⟨[.disk op.replacementDisk built],
        some (op.inProgress ("building " ++ op.replacementDisk ++ " from " ++ snapshotName))⟩
  | some replacement =>
    if replacement.phase ≠ succeeded then
      some ⟨[], some (op.inProgress ("restoring " ++ snapshotName ++ " into " ++
        op.replacementDisk ++ " (" ++ orUnknown replacement.phase ++ ")"))⟩
    else none

/-- What the two ways to get another root disk have in common, when it is known which one. -/
def moveRootDisk (s : Cluster) (op : Operation) (vm : ManagedVM) (kvm : VirtualMachine)
    (current waiting verb done : String) : Pass :=
  match ensureStopped s vm with
  | (writes, false) => ⟨writes, some (op.inProgress waiting)⟩
  | (_, true) =>
    match pointAtRootDisk s op vm kvm current verb with
    | (writes, some op) => ⟨writes, some op⟩
    | (writes, none) =>
      ⟨writes ++ restoreRunState op (recorded op vm), some (op.finish .succeeded done)⟩

def rollbackRootDisk (s : Cluster) (op : Operation) (vm : ManagedVM) (snapshotName : String)
    (snapshot : VolumeSnapshot) (source : String) : Pass :=
  match s.vms.lookup vm.target with
  | none => ⟨[], some (op.finish .failed ("VirtualMachine " ++ vm.target ++ " does not exist"))⟩
  | some kvm =>
    match kvm.dataVolumeTemplates with
    | [] => ⟨[], some (op.finish .failed "this machine has no disk of its own to roll back")⟩
    | current :: _ =>
      let op := op.choose current (nextRootDiskName vm.name current)
      match restoring isQuantity s op snapshotName snapshot source with
      | some pass => pass
      | none => moveRootDisk s op vm kvm current
          "waiting for the machine to stop before swapping its root disk" "rolling back"
          (op.replacedDisk ++ " rolled back to " ++ snapshotName ++ " as " ++ op.replacementDisk)

def reconcileRollbackDisk (s : Cluster) (op : Operation) (vm : ManagedVM)
    (snapshotName : String) : Pass :=
  match s.snapshots.lookup snapshotName with
  | none => ⟨[], some (op.finish .failed ("VolumeSnapshot " ++ snapshotName ++ " does not exist"))⟩
  | some snapshot =>
    let source := snapshot.source
    if snapshot.readyToUse = false then
      ⟨[], some (op.inProgress "waiting for the snapshot to be usable")⟩
    else if source = "" then
      ⟨[], some (op.finish .failed "the snapshot does not name the claim it was taken from")⟩
    else if source ∉ vm.disks.map DiskAttachment.claim then
      if isRootDiskOf vm source then
        rollbackRootDisk isQuantity s op vm snapshotName snapshot source
      else ⟨[], some (op.finish .failed
        (source ++ " is neither one of this machine's attached disks nor its root disk"))⟩
    else
      let op := op.choose source (rollbackName op source)
      match restoring isQuantity s op snapshotName snapshot source with
      | some pass => pass
      | none =>
        match ensureStopped s vm with
        | (writes, false) => ⟨writes,
            some (op.inProgress "waiting for the machine to stop before swapping the disk")⟩
        | (_, true) =>
          match swapDisk vm op.replacedDisk op.replacementDisk with
          | none => ⟨[], none⟩
          | some vm =>
            let removes := if op.replacedDisk ∈ s.disks then
              [Write.removeDisk op.replacedDisk] else []
            ⟨.machine vm :: removes ++ restoreRunState op vm,
              some (op.finish .succeeded (op.replacedDisk ++ " rolled back to " ++ snapshotName ++
                " as " ++ op.replacementDisk))⟩

def reconcileRecreate (s : Cluster) (op : Operation) (vm : ManagedVM) : Pass :=
  match s.vms.lookup vm.target with
  | none => ⟨[], some (op.finish .failed ("VirtualMachine " ++ vm.target ++ " does not exist"))⟩
  | some kvm =>
    match kvm.dataVolumeTemplates with
    | [] => ⟨[], some (op.finish .failed "this machine has no disk of its own to recreate")⟩
    | current :: _ =>
      let op := op.choose current (nextRootDiskName vm.name current)
      moveRootDisk s op vm kvm current
        "waiting for the machine to stop before rebuilding its disk" "rebuilding"
        (vm.name ++ " rebuilt from its image as " ++ op.replacementDisk)

def reconcileRestore (s : Cluster) (op : Operation) (vm : ManagedVM) (snapshotName : String) :
    Pass :=
  let text := "restoring " ++ vm.target ++ " from " ++ snapshotName
  if snapshotName ∉ s.vmSnapshots then
    ⟨[], some (op.finish .failed ("snapshot " ++ snapshotName ++ " does not exist"))⟩
  else
    let childName := if op.childName = "" then op.name ++ "-restore" else op.childName
    match s.restores.lookup childName with
    | none => ⟨[.restore childName { owner := op.owner, target := vm.target, snapshotName }],
        some (({ op with childName }).inProgress text)⟩
    | some restore =>
      let op := { op with childName }
      if restore.complete then
        ⟨restoreRunState op vm,
          some (op.finish .succeeded ("restored " ++ vm.target ++ " from " ++ snapshotName))⟩
      else
        match restore.failure with
        | some (reason, message) => ⟨restoreRunState op vm, some (op.finish .failed
            ("restore failed: " ++ if message = "" then reason else message))⟩
        | none => ⟨[], some (op.inProgress text)⟩

def reconcileMigrate (s : Cluster) (op : Operation) (vm : ManagedVM) (targetNode : String) : Pass :=
  match s.instances.lookup vm.target with
  | none => ⟨[], some (op.finish .failed
      (vm.target ++ " is not running; there is nothing to migrate"))⟩
  | some node =>
    if targetNode ≠ "" ∧ node = targetNode then
      ⟨[], some (op.finish .succeeded (vm.target ++ " is already on " ++ node))⟩
    else
      let childName := if op.childName = "" then op.name ++ "-migration" else op.childName
      match s.migrations.lookup childName with
      | none => ⟨[.migration childName
            { owner := op.owner, vmiName := vm.target, node := targetNode }],
          some (({ op with childName }).inProgress ("migrating " ++ vm.target))⟩
      | some migration =>
        let op := { op with childName }
        if migration.phase = succeeded then
          ⟨[], some (op.finish .succeeded (vm.target ++ " now runs on " ++ node))⟩
        else if migration.phase = failed then
          ⟨[], some (op.finish .failed ("migration of " ++ vm.target ++ " failed"))⟩
        else ⟨[], some (op.inProgress
          ("migrating " ++ vm.target ++ " (" ++ migration.phase ++ ")"))⟩

def displayNameOf (vm : ManagedVM) : String :=
  if vm.displayName ≠ "" then vm.displayName else vm.name

/-- The copy is described like the machine that it was made from, without its disks. -/
def adoptClone (s : Cluster) (op : Operation) (vm : ManagedVM) (startAfterClone : Bool) :
    List Write :=
  if op.targetName ∈ s.machines then []
  else
    let annotations : Labels := AList.insert adoptAnnotation op.targetName ∅
    let owner := vm.annotations.get ownerAnnotation
    [.machine
      { name := op.targetName
        displayName := displayNameOf vm ++ " (copy)"
        running := startAfterClone
        annotations := if owner ≠ "" then annotations.insert ownerAnnotation owner
          else annotations }]

def reconcileClone (s : Cluster) (op : Operation) (vm : ManagedVM) (target : String)
    (startAfterClone : Bool) : Pass :=
  let childName := if op.childName = "" then op.name ++ "-clone" else op.childName
  match s.clones.lookup childName with
  | none => ⟨[.clone childName { owner := op.owner, source := vm.target, target }],
      some (({ op with childName }).inProgress ("cloning " ++ vm.target))⟩
  | some clone =>
    let op := { op with childName, targetName := clone.targetName.getD op.targetName }
    if clone.phase = succeeded then
      if op.targetName = "" then
        ⟨[], some (op.finish .failed "the clone finished without naming what it produced")⟩
      else ⟨adoptClone s op vm startAfterClone,
        some (op.finish .succeeded ("cloned " ++ vm.target ++ " to " ++ op.targetName))⟩
    else if clone.phase = failed then
      ⟨[], some (op.finish .failed ("KubeVirt could not clone " ++ vm.target))⟩
    else ⟨[], some (op.inProgress
      ("cloning " ++ vm.target ++ " (" ++ orUnknown clone.phase ++ ")"))⟩

def Operation.act (s : Cluster) (op : Operation) (vm : ManagedVM) : Pass :=
  match op.action with
  | .restore snapshotName => reconcileRestore s op vm snapshotName
  | .migrate targetNode => reconcileMigrate s op vm targetNode
  | .rollbackDisk snapshotName => reconcileRollbackDisk isQuantity s op vm snapshotName
  | .recreate => reconcileRecreate s op vm
  | .clone target startAfterClone => reconcileClone s op vm target startAfterClone
  | .unknown action => ⟨[], some (op.finish .failed ("unknown action \"" ++ action ++ "\""))⟩

/-- A status is saved after the calls before it. -/
def Pass.calls (pass : Pass) : List Write := pass.writes ++ pass.status.toList.map .status

/-- Whether the machine was running is noted once. -/
def Operation.begin (op : Operation) (vm : ManagedVM) : Operation :=
  { op with runningBefore := some (op.runningBefore.getD vm.running) }

/-- The calls of a pass over an operation. -/
def reconcile (s : Cluster) (op : Operation) : List Write :=
  if op.Finished then []
  else match s.machines.lookup op.vmName with
    | none => [.status { op with
        phase := .pending
        message := "ManagedVM " ++ op.vmName ++ " does not exist yet" }]
    | some vm => ((op.begin vm).act isQuantity s vm).calls

/-- What a pass leaves that is stopped after so many calls. -/
def Cluster.pass (s : Cluster) (op : Operation) (cut : Option Nat) : Cluster :=
  let calls := reconcile isQuantity s op
  (calls.take (cut.getD calls.length)).foldl Cluster.apply s

section Reconcile

theorem ensureStopped_cases (s : Cluster) (vm : ManagedVM) :
    (ensureStopped s vm).1 = [] ∨ ∃ kvm, s.vms.lookup vm.target = some kvm ∧
      ensureStopped s vm = ([.vm vm.target { kvm with runStrategy := some halted }], false) := by
  rw [ensureStopped]
  split
  · exact .inl rfl
  · next kvm hkvm =>
    split
    · exact .inr ⟨kvm, hkvm, rfl⟩
    · exact .inl rfl

variable {isQuantity} {s : Cluster} {op : Operation} {vm : ManagedVM} {snapshotName : String}

theorem reconcile_finished (h : op.Finished) : reconcile isQuantity s op = [] := by
  rw [reconcile, if_pos h]

theorem reconcile_eq (h : ¬ op.Finished) (hvm : s.machines.lookup op.vmName = some vm) :
    reconcile isQuantity s op = ((op.begin vm).act isQuantity s vm).calls := by
  rw [reconcile, if_neg h, hvm]

theorem pass_finished (h : op.Finished) (cut : Option Nat) : s.pass isQuantity op cut = s := by
  rw [Cluster.pass, reconcile_finished h]
  simp

theorem act_rollbackDisk (h : op.action = .rollbackDisk snapshotName) :
    op.act isQuantity s vm = reconcileRollbackDisk isQuantity s op vm snapshotName := by
  unfold Operation.act
  rw [h]

theorem act_recreate (h : op.action = .recreate) :
    op.act isQuantity s vm = reconcileRecreate s op vm := by
  unfold Operation.act
  rw [h]

theorem snapshot_of_buildReplacementDisk {source : String} {snapshot : VolumeSnapshot}
    {built : DataVolume}
    (h : buildReplacementDisk isQuantity s op snapshotName snapshot source = some built) :
    built.snapshot = some snapshotName ∧ built.madeFor = op.uid := by
  rw [buildReplacementDisk] at h
  obtain ⟨-, h⟩ := ite_none_right_eq_some.mp h
  obtain rfl := some.inj h
  exact ⟨rfl, rfl⟩

/-- The disk is there and filled, or the pass ends here: it makes the disk, or waits for it. -/
theorem restoring_cases {source : String} {snapshot : VolumeSnapshot} {good : Pass → Prop}
    (hnothing : good ⟨[], none⟩)
    (hmakes : ∀ built message, s.disks.lookup op.replacementDisk = none →
      buildReplacementDisk isQuantity s op snapshotName snapshot source = some built →
      good ⟨[.disk op.replacementDisk built], some (op.inProgress message)⟩)
    (hwaits : ∀ message, good ⟨[], some (op.inProgress message)⟩) :
    (∀ pass, restoring isQuantity s op snapshotName snapshot source = some pass → good pass) ∧
      (restoring isQuantity s op snapshotName snapshot source = none →
        ∃ disk, s.disks.lookup op.replacementDisk = some disk ∧ disk.phase = succeeded) := by
  rw [restoring]
  split
  · next hnew =>
    split
    · exact ⟨fun pass hpass => some.inj hpass ▸ hnothing, nofun⟩
    · next built hbuilt =>
      exact ⟨fun pass hpass => some.inj hpass ▸ hmakes built _ hnew hbuilt, nofun⟩
  · next disk hdisk =>
    split
    · exact ⟨fun pass hpass => some.inj hpass ▸ hwaits _, nofun⟩
    · next hphase => exact ⟨nofun, fun _ => ⟨disk, hdisk, not_not.mp hphase⟩⟩

end Reconcile

/-- What KubeVirt, CDI and the snapshots do by themselves. -/
inductive Change where
  | progress (disk phase : String)
  | build (vm : String)
  | start (vm node : String)
  | stop (vm : String)
  | snapshot (name : String) (readyToUse : Bool)
  | forget (name : String)

def Cluster.change (s : Cluster) : Change → Option Cluster
  | .progress name phase =>
    -- what has succeeded stays so
    (s.disks.lookup name).bind fun disk => if disk.phase = succeeded then none
      else some { s with disks := s.disks.insert name { disk with phase } }
  | .build name =>
    -- the disk of a template is made when there is none
    (s.vms.lookup name).bind fun vm => vm.dataVolumeTemplates.head?.bind fun disk =>
      if disk ∈ s.disks then none
      else some (s.apply (.disk disk { madeFor := vm.pointedFor }))
  | .start name node =>
    (s.vms.lookup name).bind fun vm => if vm.runStrategy = some halted then none
      else some { s with instances := s.instances.insert name node }
  | .stop name => some { s with instances := s.instances.erase name }
  | .snapshot name readyToUse =>
    (s.snapshots.lookup name).map fun snapshot =>
      { s with snapshots := s.snapshots.insert name { snapshot with readyToUse } }
  | .forget name => some { s with snapshots := s.snapshots.erase name }

/-- The request is the one that the operation has begun with. -/
structure Operation.Continues (op start : Operation) : Prop where
  name : op.name = start.name
  uid : op.uid = start.uid
  vmName : op.vmName = start.vmName
  action : op.action = start.action

/-- The operation is alone on its machine: it is passed over, and there is what others do by
themselves. -/
inductive Event where
  | pass (cut : Option Nat)
  | change (change : Change)

def Cluster.step (name : String) (s : Cluster) :
    Event → Option Cluster
  | .pass cut => (s.operations.lookup name).map (s.pass isQuantity · cut)
  | .change change => s.change change

/-- Nothing fails. -/
def Event.Unfailing : Event → Prop
  | .pass cut => cut = none
  | .change _ => True

instance : DecidablePred Event.Unfailing := fun
  | .pass _ => inferInstanceAs (Decidable (_ = none))
  | .change _ => inferInstanceAs (Decidable True)

section Change

variable {s t : Cluster} {change : Change}

section

variable (h : s.change change = some t)

include h

/-- A disk gets on, or one is made for a template that has none, or neither. -/
theorem change_cases :
    (∃ name phase disk, s.disks.lookup name = some disk ∧ disk.phase ≠ succeeded ∧
      t = { s with disks := s.disks.insert name { disk with phase } }) ∨
    (∃ vmName kvm disk, change = .build vmName ∧ s.vms.lookup vmName = some kvm ∧
      kvm.dataVolumeTemplates.head? = some disk ∧ disk ∉ s.disks ∧
        t = s.apply (.disk disk { madeFor := kvm.pointedFor })) ∨
    ∃ instances snapshots, t = { s with instances, snapshots } ∧
      ∀ name snapshot, snapshots.lookup name = some snapshot →
        ∃ old, s.snapshots.lookup name = some old ∧ snapshot.source = old.source := by
  have hsame : ∀ name snapshot, s.snapshots.lookup name = some snapshot →
      ∃ old, s.snapshots.lookup name = some old ∧ snapshot.source = old.source :=
    fun name snapshot h => ⟨snapshot, h, rfl⟩
  cases change with
  | progress name phase =>
    obtain ⟨disk, hdisk, h⟩ := bind_eq_some_iff.mp h
    obtain ⟨hphase, h⟩ := ite_none_left_eq_some.mp h
    exact .inl ⟨name, phase, disk, hdisk, hphase, (some.inj h).symm⟩
  | build vmName =>
    obtain ⟨kvm, hkvm, h⟩ := bind_eq_some_iff.mp h
    obtain ⟨disk, hdisk, h⟩ := bind_eq_some_iff.mp h
    obtain ⟨hnew, h⟩ := ite_none_left_eq_some.mp h
    exact .inr (.inl ⟨vmName, kvm, disk, rfl, hkvm, hdisk, hnew, (some.inj h).symm⟩)
  | start name node =>
    obtain ⟨kvm, -, h⟩ := bind_eq_some_iff.mp h
    obtain ⟨-, h⟩ := ite_none_left_eq_some.mp h
    exact .inr (.inr ⟨_, _, (some.inj h).symm, hsame⟩)
  | stop name => exact .inr (.inr ⟨_, _, (some.inj h).symm, hsame⟩)
  | snapshot name ready =>
    obtain ⟨old, hold, rfl⟩ := map_eq_some_iff.mp h
    refine .inr (.inr ⟨_, _, rfl, fun other found hfound => ?_⟩)
    by_cases hother : other = name
    · subst hother
      obtain rfl := mem_unique (lookup_insert _) hfound
      exact ⟨old, hold, rfl⟩
    · exact hsame other found ((lookup_insert_ne hother).symm.trans hfound)
  | forget name =>
    refine .inr (.inr ⟨_, _, (some.inj h).symm, fun other found hfound => ?_⟩)
    by_cases hother : other = name
    · subst hother
      rw [lookup_erase] at hfound
      contradiction
    · exact hsame other found ((lookup_erase_ne hother).symm.trans hfound)

theorem disk_of_change {name : String} {disk : DataVolume}
    (hdisk : s.disks.lookup name = some disk) : ∃ disk', t.disks.lookup name = some disk' ∧
      disk'.snapshot = disk.snapshot ∧ disk'.madeFor = disk.madeFor ∧
        (disk.phase = succeeded → disk' = disk) := by
  obtain ⟨other, phase, found, hfound, hphase, rfl⟩ | ⟨vmName, kvm, built, -, -, -, hnew, rfl⟩ |
    ⟨instances, snapshots, rfl, -⟩ := change_cases h
  · by_cases hother : name = other
    · subst hother
      obtain rfl := mem_unique hdisk hfound
      exact ⟨_, lookup_insert _, rfl, rfl, fun hfilled => absurd hfilled hphase⟩
    · exact ⟨disk, (lookup_insert_ne hother).trans hdisk, rfl, rfl, fun _ => rfl⟩
  · have hother : name ≠ built := by
      rintro rfl
      exact hnew (lookup_isSome.mp (isSome_of_eq_some hdisk))
    exact ⟨disk, (lookup_insert_ne hother).trans hdisk, rfl, rfl, fun _ => rfl⟩
  · exact ⟨disk, hdisk, rfl, rfl, fun _ => rfl⟩

/-- A disk is made for a template that has none, or no disk comes or goes. -/
theorem built_of_change :
    (∃ vmName kvm disk, change = .build vmName ∧ s.vms.lookup vmName = some kvm ∧
      kvm.dataVolumeTemplates.head? = some disk ∧ disk ∉ s.disks ∧
        t = s.apply (.disk disk { madeFor := kvm.pointedFor })) ∨
      t.built = s.built ∧ ∀ n, n ∈ t.disks ↔ n ∈ s.disks := by
  obtain ⟨name, phase, disk, hdisk, -, rfl⟩ | hbuilt | ⟨instances, snapshots, rfl, -⟩ :=
    change_cases h
  · refine .inr ⟨rfl, fun n => (mem_insert _).trans (or_iff_right_of_imp ?_)⟩
    rintro rfl
    exact lookup_isSome.mp (isSome_of_eq_some hdisk)
  · exact .inl hbuilt
  · exact .inr ⟨rfl, fun _ => .rfl⟩

theorem rest_of_change : t.operations = s.operations ∧ t.machines = s.machines ∧ t.vms = s.vms ∧
      ∀ name snapshot, t.snapshots.lookup name = some snapshot →
        ∃ old, s.snapshots.lookup name = some old ∧ snapshot.source = old.source := by
  obtain ⟨name, phase, disk, -, -, rfl⟩ | ⟨vmName, kvm, disk, -, -, -, -, rfl⟩ |
    ⟨instances, snapshots, rfl, hsnapshots⟩ := change_cases h
  · exact ⟨rfl, rfl, rfl, fun name snapshot h => ⟨snapshot, h, rfl⟩⟩
  · exact ⟨rfl, rfl, rfl, fun name snapshot h => ⟨snapshot, h, rfl⟩⟩
  · exact ⟨rfl, rfl, rfl, hsnapshots⟩

theorem children_of_change :
    t.restores = s.restores ∧ t.migrations = s.migrations ∧ t.clones = s.clones := by
  obtain ⟨name, phase, disk, -, -, rfl⟩ | ⟨vmName, kvm, disk, -, -, -, -, rfl⟩ |
    ⟨instances, snapshots, rfl, -⟩ := change_cases h <;> exact ⟨rfl, rfl, rfl⟩

theorem mem_of_change {name : String} (hmem : name ∈ s.disks) : name ∈ t.disks := by
  obtain ⟨disk, hdisk⟩ := isSome_iff_exists.mp (lookup_isSome.mpr hmem)
  obtain ⟨disk', hdisk', -⟩ := disk_of_change h hdisk
  exact lookup_isSome.mp (isSome_of_eq_some hdisk')

theorem notMem_of_change {name : String}
    (hfree : ∀ vmName kvm, s.vms.lookup vmName = some kvm → name ∉ kvm.dataVolumeTemplates)
    (hno : name ∉ s.disks) : name ∉ t.disks := by
  obtain ⟨vmName, kvm, disk, -, hkvm, hhead, -, rfl⟩ | ⟨-, hmem⟩ := built_of_change h
  · intro hmem
    obtain rfl | hold := (mem_insert _).mp hmem
    · exact hfree vmName kvm hkvm (List.mem_of_head? hhead)
    · exact hno hold
  · exact mt (hmem name).mp hno

end

end Change

end Operations
