import KubevirtUi.Library.Cuts
import KubevirtUi.Library.Machine
import KubevirtUi.Operations.Passes

/-!
# A disk is rolled back

An attached disk is replaced by one that is filled from a snapshot: the replacement is made, the
machine is stopped, its list is changed, and the old disk is removed. Which disk is replaced is
read from the snapshot in every pass, and looked for in the list; so a pass that finds the list
changed already does not know it any more, and gives the operation up.
-/

namespace Operations

open Option AList

open Disks (DiskAttachment)

variable {isQuantity : String → Bool}

/-- What there is when the operation begins. -/
structure Job where
  name : String
  uid : String
  vm : ManagedVM
  snapshotName : String
  source : String

def Job.op (j : Job) : Operation where
  name := j.name
  uid := j.uid
  vmName := j.vm.name
  action := .rollbackDisk j.snapshotName

def Job.replacement (j : Job) : String := rollbackName j.op j.source

/-- The list with the replacement. -/
def Job.swapped (j : Job) : ManagedVM :=
  { j.vm with
    disks := j.vm.disks.map fun d =>
      if d.claim = j.source then { d with claim := j.replacement } else d }

structure Job.Begun (j : Job) (s : Cluster) : Prop where
  op : s.operations.lookup j.name = some j.op
  machine : s.machines.lookup j.vm.name = some j.vm
  snapshot : ∃ snapshot, s.snapshots.lookup j.snapshotName = some snapshot ∧
    snapshot.source = j.source
  attached : j.source ∈ j.vm.disks.map DiskAttachment.claim
  listed : ∀ d ∈ j.vm.disks, d.claim ∈ s.disks

/-- Whole passes, so many, and what others do. -/
inductive Passes (isQuantity : String → Bool) (name : String) (s : Cluster) :
    Nat → Cluster → Prop where
  | nil : Passes isQuantity name s 0 s
  | change {n t u change} : Passes isQuantity name s n t → t.change change = some u →
      Passes isQuantity name s n u
  | pass {n t u} : Passes isQuantity name s n t → t.step isQuantity name (.pass none) = some u →
      Passes isQuantity name s (n + 1) u

/-- The operation has succeeded, and the disk is replaced. -/
structure Job.Done (j : Job) (s : Cluster) : Prop where
  op : ∃ op, s.operations.lookup j.name = some op ∧ op.phase = .succeeded
  removed : j.source ∉ s.disks
  power : ∃ vm, s.machines.lookup j.vm.name = some vm ∧ vm.running = j.vm.running

/-- However it goes on, the operation succeeds when its passes do not fail any more. -/
def Job.Ends (isQuantity : String → Bool) (j : Job) (s : Cluster) : Prop :=
  ∀ t, Machine.Run (Cluster.step isQuantity j.name) (fun _ _ => True) s t →
    ∃ n, ∀ u, Passes isQuantity j.name t n u → j.Done u

structure Job.Survives (isQuantity : String → Bool) (j : Job) (s : Cluster) : Prop where
  listed : ∀ vm, s.machines.lookup j.vm.name = some vm → ∀ d ∈ vm.disks, d.claim ∈ s.disks
  kept : j.source ∉ s.disks → ∃ vm, s.machines.lookup j.vm.name = some vm ∧
    j.replacement ∈ vm.disks.map DiskAttachment.claim ∧
    ∃ disk, s.disks.lookup j.replacement = some disk ∧ disk.snapshot = some j.snapshotName ∧
      disk.phase = succeeded
  ends : (∀ vm, s.machines.lookup j.vm.name = some vm →
    j.source ∉ vm.disks.map DiskAttachment.claim) → j.Ends isQuantity s

/-- Nobody else has a use for the two names: there is no replacement yet, and neither is the root
disk of a machine, which KubeVirt would make anew. -/
structure Job.Free (j : Job) (s : Cluster) : Prop where
  replacement : j.replacement ∉ s.disks
  templates : ∀ name kvm, s.vms.lookup name = some kvm →
    j.replacement ∉ kvm.dataVolumeTemplates ∧ j.source ∉ kvm.dataVolumeTemplates

/-- The operation goes on, the replacement is there and filled, and the machine is down. -/
structure Job.Ready (j : Job) (s : Cluster) : Prop where
  unfinished : ∃ op, s.operations.lookup j.name = some op ∧ ¬ op.Finished
  snapshot : ∃ snapshot, s.snapshots.lookup j.snapshotName = some snapshot ∧
    snapshot.readyToUse = true
  replacement : ∃ disk, s.disks.lookup j.replacement = some disk ∧ disk.phase = succeeded
  down : (ensureStopped s j.vm).2 = true

/-- A pass that changes the list removes the old disk and saves its status, or changes nothing. -/
def Job.Whole (j : Job) (s : Cluster) : Event → Prop
  | .pass (some n) => j.Ready s → n = 0 ∨ 3 ≤ n
  | _ => True

theorem rollbackName_ne (op : Operation) (source : String) : rollbackName op source ≠ source := by
  intro h
  have hlength := congrArg String.length h
  simp [rollbackName, String.length_append] at hlength
  have hsep : "-rb-".length = 4 := rfl
  omega

variable {op : Operation} {name : String}

section Step

variable {j : Job} {s t : Cluster}

/-- What of the operation stays while it goes on. -/
structure Job.Current (j : Job) (op : Operation) : Prop where
  request : op.Continues j.op
  replaced : op.replacedDisk = "" ∨ op.replacedDisk = j.source
  replacement : op.replacementDisk = "" ∨ op.replacementDisk = j.replacement
  runningBefore : op.runningBefore = none ∨ op.runningBefore = some j.vm.running

/-- Until the list is changed. -/
structure Job.Going (j : Job) (s : Cluster) : Prop where
  op : ∃ op, s.operations.lookup j.name = some op ∧ j.Current op ∧ op.phase ≠ .succeeded
  machine : s.machines.lookup j.vm.name = some j.vm
  snapshot : ∀ snapshot, s.snapshots.lookup j.snapshotName = some snapshot →
    snapshot.source = j.source
  listed : ∀ d ∈ j.vm.disks, d.claim ∈ s.disks
  made : ∀ disk, s.disks.lookup j.replacement = some disk → disk.snapshot = some j.snapshotName
  templates : ∀ name kvm, s.vms.lookup name = some kvm →
    j.replacement ∉ kvm.dataVolumeTemplates ∧ j.source ∉ kvm.dataVolumeTemplates

/-- When the list has been changed, and all is done. -/
structure Job.Gone (j : Job) (s : Cluster) : Prop where
  op : ∃ op, s.operations.lookup j.name = some op ∧ op.phase = .succeeded
  machine : s.machines.lookup j.vm.name = some j.swapped
  removed : j.source ∉ s.disks
  listed : ∀ d ∈ j.swapped.disks, d.claim ∈ s.disks
  replaced : ∃ disk, s.disks.lookup j.replacement = some disk ∧
    disk.snapshot = some j.snapshotName ∧ disk.phase = succeeded
  templates : ∀ name kvm, s.vms.lookup name = some kvm →
    j.replacement ∉ kvm.dataVolumeTemplates ∧ j.source ∉ kvm.dataVolumeTemplates

theorem Job.Begun.going (h : j.Begun s) (hfree : j.Free s) : j.Going s := by
  obtain ⟨snapshot, hsnapshot, hsource⟩ := h.snapshot
  refine ⟨⟨j.op, h.op, ⟨⟨rfl, rfl, rfl, rfl⟩, .inl rfl, .inl rfl, .inl rfl⟩, Phase.noConfusion⟩,
    h.machine, fun found hfound => ?_, h.listed, fun disk hdisk => ?_, hfree.templates⟩
  · obtain rfl := mem_unique hsnapshot hfound
    exact hsource
  · exact absurd (lookup_isSome.mp (isSome_of_eq_some hdisk)) hfree.replacement

theorem Job.Current.choose (h : j.Current op) :
    let chosen := op.choose j.source (rollbackName op j.source)
    chosen.replacedDisk = j.source ∧ chosen.replacementDisk = j.replacement ∧
      j.Current chosen := by
  have hname : rollbackName op j.source = j.replacement := by
    rw [Job.replacement, rollbackName, rollbackName, h.request.name]
  have hreplaced : (if op.replacedDisk = "" then j.source else op.replacedDisk) = j.source := by
    obtain hunset | hset := h.replaced
    · rw [if_pos hunset]
    · rw [hset, ite_self]
  have hreplacement : (if op.replacementDisk = "" then rollbackName op j.source
      else op.replacementDisk) = j.replacement := by
    obtain hunset | hset := h.replacement
    · rw [if_pos hunset, hname]
    · rw [hset, hname, ite_self]
  exact ⟨hreplaced, hreplacement, { h.request with },
    .inr hreplaced, .inr hreplacement, h.runningBefore⟩

theorem Job.Current.begin (h : j.Current op) :
    j.Current (op.begin j.vm) ∧ (op.begin j.vm).runningBefore = some j.vm.running := by
  have hrunning : (op.begin j.vm).runningBefore = some j.vm.running := by
    rw [Operation.begin]
    obtain hunset | hset := h.runningBefore
    · rw [hunset, getD_none]
    · rw [hset, getD_some]
  exact ⟨⟨{ h.request with }, h.replaced, h.replacement,
    .inr hrunning⟩, hrunning⟩

theorem Job.Current.inProgress (h : j.Current op) (message : String) :
    j.Current (op.inProgress message) :=
  ⟨{ h.request with }, h.replaced, h.replacement,
    h.runningBefore⟩

theorem Job.Current.finish (h : j.Current op) (phase : Phase) (message : String) :
    j.Current (op.finish phase message) :=
  ⟨{ h.request with }, h.replaced, h.replacement,
    h.runningBefore⟩

theorem Job.Going.status (h : j.Going s) (hop : j.Current op) (hphase : op.phase ≠ .succeeded) :
    j.Going (s.apply (.status op)) where
  op := ⟨op, by rw [Cluster.apply, hop.request.name]; exact lookup_insert _, hop, hphase⟩
  machine := h.machine
  snapshot := h.snapshot
  listed := h.listed
  made := h.made
  templates := h.templates

theorem Job.Going.vm (h : j.Going s) {kvm kvm' : VirtualMachine}
    (hkvm : s.vms.lookup name = some kvm)
    (hsame : kvm'.dataVolumeTemplates = kvm.dataVolumeTemplates) :
    j.Going (s.apply (.vm name kvm')) := by
  refine ⟨h.op, h.machine, h.snapshot, h.listed, h.made, fun other found hfound => ?_⟩
  by_cases hother : other = name
  · subst hother
    obtain rfl := mem_unique (lookup_insert _) hfound
    exact hsame ▸ h.templates other kvm hkvm
  · exact h.templates other found ((lookup_insert_ne hother).symm.trans hfound)

theorem Job.Going.disk (h : j.Going s) {disk : DataVolume}
    (hdisk : disk.snapshot = some j.snapshotName) :
    j.Going (s.apply (.disk j.replacement disk)) where
  op := h.op
  machine := h.machine
  snapshot := h.snapshot
  listed := fun d hd => (mem_insert _).mpr (.inr (h.listed d hd))
  made := by
    intro found hfound
    obtain rfl := mem_unique (lookup_insert _) hfound
    exact hdisk
  templates := h.templates

/-- A pass that makes these calls leaves the list, wherever it is stopped. -/
abbrev Job.Mild (j : Job) (s : Cluster) (calls : List Write) : Prop :=
  Cuts.Throughout Cluster.apply j.Going s calls

theorem Job.Going.mild_status (h : j.Going s) (hop : j.Current op)
    (hphase : op.phase ≠ .succeeded := by exact Phase.noConfusion) : j.Mild s [.status op] :=
  .cons h (.nil (h.status hop hphase))

/-- The replacement is there and filled, or the pass makes it or waits for it. -/
theorem Job.Going.restoring (isQuantity : String → Bool) (h : j.Going s) (hop : j.Current op)
    (hname : op.replacementDisk = j.replacement) (snapshot : VolumeSnapshot) :
    (∀ pass, restoring isQuantity s op j.snapshotName snapshot j.source = some pass →
        j.Mild s pass.calls) ∧
      (restoring isQuantity s op j.snapshotName snapshot j.source = none →
        ∃ disk, s.disks.lookup j.replacement = some disk ∧ disk.phase = succeeded) := by
  rw [← hname]
  refine restoring_cases (.nil h) (fun built message _ hbuilt => ?_)
    fun message => h.mild_status (hop.inProgress message)
  have hdisk := h.disk (snapshot_of_buildReplacementDisk hbuilt).1
  rw [hname]
  exact .cons h (hdisk.mild_status (hop.inProgress message))

/-- A pass leaves the list as it is, or puts the replacement on it and does all that comes after. -/
theorem Job.Going.calls (isQuantity : String → Bool) (h : j.Going s)
    (hattached : j.source ∈ j.vm.disks.map DiskAttachment.claim)
    (hlookup : s.operations.lookup j.name = some op) : j.Mild s (reconcile isQuantity s op) ∨
      j.Ready s ∧ ∃ op', reconcile isQuantity s op =
        [.machine j.swapped, .removeDisk j.source, .status op'] ∧
          op'.name = j.name ∧ op'.phase = .succeeded := by
  obtain ⟨found, hfound, hop, hphase⟩ := h.op
  obtain rfl := mem_unique hlookup hfound
  have hvm : s.machines.lookup op.vmName = some j.vm := by
    rw [hop.request.vmName]
    exact h.machine
  by_cases hfinished : op.Finished
  · rw [reconcile_finished hfinished]
    exact .inl (.nil h)
  rw [reconcile_eq hfinished hvm]
  obtain ⟨hbegin, hrunning⟩ := hop.begin
  have haction : (op.begin j.vm).action = .rollbackDisk j.snapshotName := hbegin.request.action
  rw [act_rollbackDisk haction, reconcileRollbackDisk]
  generalize op.begin j.vm = op at *
  split
  · exact .inl (h.mild_status (hbegin.finish _ _))
  next snapshot hsnapshot =>
  have hsource := h.snapshot snapshot hsnapshot
  dsimp only
  rw [hsource]
  split
  · exact .inl (h.mild_status (hbegin.inProgress _))
  next hready =>
  rw [Bool.not_eq_false] at hready
  split
  · exact .inl (h.mild_status (hbegin.finish _ _))
  obtain ⟨hreplaced, hreplacement, hchosen⟩ := hbegin.choose
  have hpower : (op.choose j.source (rollbackName op j.source)).runningBefore =
      some j.vm.running := hrunning
  generalize op.choose j.source (rollbackName op j.source) = op at *
  obtain ⟨hwaits, hthere⟩ := h.restoring isQuantity hchosen hreplacement snapshot
  split
  · next pass hpass => exact .inl (hwaits pass hpass)
  next hnone =>
  obtain ⟨disk, hdisk, hfilled⟩ := hthere hnone
  have hstatus : ∀ message, j.Mild s [.status (op.inProgress message)] :=
    fun message => h.mild_status (hchosen.inProgress message)
  split
  · next writes hstopping =>
    obtain hnil | ⟨kvm, hkvm, hhalts⟩ := ensureStopped_cases s j.vm
    · rw [hstopping] at hnil
      subst hnil
      exact .inl (hstatus _)
    · obtain rfl := congrArg Prod.fst (hstopping.symm.trans hhalts)
      have hhalted : j.Going (s.apply
          (.vm j.vm.target { kvm with runStrategy := some halted })) := h.vm hkvm rfl
      exact .inl (.cons h (hhalted.mild_status (hchosen.inProgress _)))
  · next hdown =>
    have hswap : swapDisk j.vm j.source j.replacement = some j.swapped := by
      rw [swapDisk, if_pos hattached]
      rfl
    have hthere : j.source ∈ s.disks := by
      obtain ⟨d, hd, hclaim⟩ := List.mem_map.mp hattached
      exact hclaim ▸ h.listed d hd
    have hkeeps : restoreRunState op j.swapped = [] := by
      rw [restoreRunState, hpower]
      exact if_pos rfl
    rw [hreplaced, hreplacement, hswap]
    refine .inr ⟨⟨⟨_, hlookup, hfinished⟩, ⟨snapshot, hsnapshot, hready⟩,
      ⟨disk, hdisk, hfilled⟩, ?_⟩,
      op.finish .succeeded (j.source ++ " rolled back to " ++ j.snapshotName ++ " as " ++
        j.replacement), ?_, hchosen.request.name, rfl⟩
    · rw [hdown]
    · dsimp only
      rw [if_pos hthere, hkeeps]
      rfl

theorem Job.Going.gone (h : j.Going s) (hready : j.Ready s) (hname : op.name = j.name)
    (hphase : op.phase = .succeeded) :
    j.Gone ([.machine j.swapped, .removeDisk j.source, .status op].foldl Cluster.apply s) := by
  obtain ⟨disk, hdisk, hfilled⟩ := hready.replacement
  have hne : j.replacement ≠ j.source := rollbackName_ne j.op j.source
  have hthere : j.replacement ∈ s.disks.erase j.source := by
    rw [mem_erase]
    exact ⟨hne, lookup_isSome.mp (isSome_of_eq_some hdisk)⟩
  constructor
  · exact ⟨op, hname ▸ lookup_insert _, hphase⟩
  · exact lookup_insert _
  · exact fun hmem => (mem_erase.mp hmem).1 rfl
  · intro d hd
    obtain ⟨e, he, rfl⟩ := List.mem_map.mp hd
    split
    · exact hthere
    · next hother => exact mem_erase.mpr ⟨hother, h.listed e he⟩
  · exact ⟨disk, (lookup_erase_ne hne).trans hdisk, h.made disk hdisk, hfilled⟩
  · exact h.templates

theorem Job.Going.change (h : j.Going s) {change : Change} (hstep : s.change change = some t) :
    j.Going t := by
  obtain ⟨hops, hmachines, hvms, hsnapshots⟩ := rest_of_change hstep
  refine ⟨hops ▸ h.op, hmachines ▸ h.machine, fun snapshot hsnapshot => ?_,
    fun d hd => mem_of_change hstep (h.listed d hd), fun disk hdisk => ?_, hvms ▸ h.templates⟩
  · obtain ⟨old, hold, hsource⟩ := hsnapshots _ snapshot hsnapshot
    exact hsource.trans (h.snapshot old hold)
  · by_cases hmem : j.replacement ∈ s.disks
    · obtain ⟨old, hold⟩ := isSome_iff_exists.mp (lookup_isSome.mpr hmem)
      obtain ⟨disk', hdisk', hsnapshot, -⟩ := disk_of_change hstep hold
      obtain rfl := mem_unique hdisk hdisk'
      exact hsnapshot.trans (h.made old hold)
    · have hno := notMem_of_change hstep (fun name kvm hkvm => (h.templates name kvm hkvm).1) hmem
      exact absurd (lookup_isSome.mp (isSome_of_eq_some hdisk)) hno

theorem Job.Gone.change (h : j.Gone s) {change : Change} (hstep : s.change change = some t) :
    j.Gone t := by
  obtain ⟨hops, hmachines, hvms, -⟩ := rest_of_change hstep
  obtain ⟨disk, hdisk, hsnapshot, hfilled⟩ := h.replaced
  obtain ⟨disk', hdisk', -, -, hsame⟩ := disk_of_change hstep hdisk
  obtain rfl := hsame hfilled
  exact ⟨hops ▸ h.op, hmachines ▸ h.machine,
    notMem_of_change hstep (fun name kvm hkvm => (h.templates name kvm hkvm).2) h.removed,
    fun d hd => mem_of_change hstep (h.listed d hd), ⟨disk', hdisk', hsnapshot, hfilled⟩,
    hvms ▸ h.templates⟩

theorem Job.Gone.step (h : j.Gone s) {e : Event}
    (hstep : s.step isQuantity j.name e = some t) : j.Gone t := by
  cases e with
  | change change => exact h.change hstep
  | pass cut =>
    obtain ⟨op, hop, hphase⟩ := h.op
    obtain ⟨found, hfound, rfl⟩ := map_eq_some_iff.mp hstep
    obtain rfl := mem_unique hop hfound
    rw [pass_finished (.inl hphase)]
    exact h

theorem Job.Going.step (h : j.Going s)
    (hattached : j.source ∈ j.vm.disks.map DiskAttachment.claim) {e : Event}
    (hwhole : j.Whole s e) (hstep : s.step isQuantity j.name e = some t) :
    j.Going t ∨ j.Gone t := by
  cases e with
  | change change => exact .inl (h.change hstep)
  | pass cut =>
    obtain ⟨op, hop, rfl⟩ := map_eq_some_iff.mp hstep
    rw [Cluster.pass]
    obtain hmild | ⟨hready, op', hcalls, hname, hphase⟩ :=
      h.calls isQuantity hattached hop
    · exact .inl (hmild _)
    · have hgone := h.gone hready hname hphase
      rw [hcalls]
      cases cut with
      | none => exact .inr hgone
      | some n =>
        obtain rfl | hn := hwhole hready
        · exact .inl h
        · dsimp only [getD_some]
          rw [List.take_of_length_le hn]
          exact .inr hgone

/-- Runs in which no pass is stopped between changing the list and saving its status. -/
theorem Job.Begun.run (h : j.Begun s) (hfree : j.Free s)
    (hrun : Machine.Run (Cluster.step isQuantity j.name) j.Whole s t) : j.Going t ∨ j.Gone t := by
  refine hrun.invariant (P := fun s => j.Going s ∨ j.Gone s) (.inl (h.going hfree)) ?_
  rintro u v e (hgoing | hgone) hwhole hstep
  · exact hgoing.step h.attached hwhole hstep
  · exact .inr (hgone.step hstep)

theorem Passes.run {n : Nat} (h : Passes isQuantity name s n t) :
    Machine.Run (Cluster.step isQuantity name) (fun _ _ => True) s t := by
  induction h with
  | nil => exact .refl
  | @change n t u change _ hstep ih => exact .step (i := .change change) ih trivial hstep
  | pass _ hstep ih => exact .step ih trivial hstep

theorem Job.Gone.run (h : j.Gone s)
    (hrun : Machine.Run (Cluster.step isQuantity j.name) (fun _ _ => True) s t) : j.Gone t :=
  hrun.invariant h fun hgone _ hstep => hgone.step hstep

/-- However many passes there are over an operation that has finished, nothing happens. -/
theorem Passes.finished (hop : s.operations.lookup name = some op) (h : op.Finished) (n : Nat) :
    Passes isQuantity name s n s := by
  induction n with
  | zero => exact .nil
  | succ n ih =>
    refine .pass ih ?_
    rw [Cluster.step, hop, map_some, pass_finished h]

theorem Job.Gone.done (h : j.Gone s) : j.Done s := ⟨h.op, h.removed, _, h.machine, rfl⟩

theorem Job.Going.survives (h : j.Going s)
    (hattached : j.source ∈ j.vm.disks.map DiskAttachment.claim) : j.Survives isQuantity s := by
  obtain ⟨d, hd, hclaim⟩ := List.mem_map.mp hattached
  refine ⟨fun vm hvm => ?_, fun hgone => ?_, fun hswapped => ?_⟩
  · obtain rfl := mem_unique h.machine hvm
    exact h.listed
  · exact absurd (hclaim ▸ h.listed d hd) hgone
  · exact absurd hattached (hswapped j.vm h.machine)

theorem Job.Gone.survives (h : j.Gone s)
    (hattached : j.source ∈ j.vm.disks.map DiskAttachment.claim) : j.Survives isQuantity s := by
  refine ⟨fun vm hvm => ?_, fun _ => ⟨_, h.machine, ?_, h.replaced⟩, fun _ t hrun => ⟨0, ?_⟩⟩
  · obtain rfl := mem_unique h.machine hvm
    exact h.listed
  · obtain ⟨d, hd, hclaim⟩ := List.mem_map.mp hattached
    refine List.mem_map.mpr ⟨_, List.mem_map_of_mem hd, ?_⟩
    rw [if_pos hclaim]
  · exact fun u hpasses => ((h.run hrun).run hpasses.run).done

/-- In a run in which no pass is stopped between changing the list and saving its status, the disk
is rolled back wherever else passes are stopped. -/
theorem rollback_survives (h : j.Begun s) (hfree : j.Free s)
    (hrun : Machine.Run (Cluster.step isQuantity j.name) j.Whole s t) :
    j.Survives isQuantity t := by
  obtain hgoing | hgone := h.run hfree hrun
  · exact hgoing.survives h.attached
  · exact hgone.survives h.attached

end Step

/-- A machine that is down, with one disk. -/
def Job.data : Job where
  name := "roll-back-000001"
  uid := "uid-1"
  vm := { name := "web", disks := [⟨"data", "", ""⟩], running := false }
  snapshotName := "data-snap"
  source := "data"

/-- There is a snapshot of the disk. -/
def Cluster.data : Cluster where
  operations := AList.insert Job.data.name Job.data.op ∅
  machines := AList.insert "web" Job.data.vm ∅
  disks := AList.insert "data" { size := "1Gi", phase := "Succeeded" } ∅
  snapshots := AList.insert "data-snap" ⟨true, "data", ""⟩ ∅

theorem Job.begun_data : Job.data.Begun Cluster.data := by
  refine ⟨rfl, rfl, ⟨_, rfl, rfl⟩, by decide, fun d hd => ?_⟩
  obtain rfl := List.mem_singleton.mp hd
  decide +kernel

theorem Job.free_data : Job.data.Free Cluster.data :=
  ⟨by decide +kernel, fun name kvm hkvm => by contradiction⟩

/-- The disk is rolled back in two passes. -/
theorem rollback_survives_data : ∃ t, Job.data.Survives (fun _ => true) t ∧
      (t.machines.lookup "web").map (·.disks) = some [⟨"data-rb-000001", "", ""⟩] := by
  have hplay : (Machine.play (Cluster.step (fun _ => true) Job.data.name)
      (fun _ e => e.Unfailing) Cluster.data
      [.pass none, .change (.progress "data-rb-000001" "Succeeded"), .pass none]).any
      (fun t => (t.machines.lookup "web").map (·.disks) = some [⟨"data-rb-000001", "", ""⟩]) =
      true := by decide +kernel
  obtain ⟨t, hrun, ht⟩ := Machine.exists_run_of_play _ hplay
  have hwhole : Machine.Run (Cluster.step (fun _ => true) Job.data.name) Job.data.Whole
      Cluster.data t := by
    refine hrun.mono fun u e hunfailing => ?_
    cases e with
    | change _ => trivial
    | pass cut =>
      obtain rfl : cut = none := hunfailing
      trivial
  exact ⟨t, rollback_survives Job.begun_data Job.free_data hwhole, of_decide_eq_true ht⟩

/-- The process stops when it has changed the list. The next pass finds the disk of the snapshot
on it no longer. -/
theorem not_rollback_survives :
    ¬ ∀ (isQuantity : String → Bool) (j : Job) (s t : Cluster), j.Begun s → j.Free s →
      Machine.Run (Cluster.step isQuantity j.name) (fun _ _ => True) s t →
      j.Survives isQuantity t := by
  intro hall
  have hplay : (Machine.play (Cluster.step (fun _ => true) Job.data.name) (fun _ _ => True)
      Cluster.data
      [.pass none, .change (.progress "data-rb-000001" "Succeeded"), .pass (some 1)]).any
      (fun t => (t.machines.lookup "web").map (·.disks) = some [⟨"data-rb-000001", "", ""⟩] ∧
        ((t.step (fun _ => true) Job.data.name (.pass none)).any
          fun u => (u.operations.lookup Job.data.name).any (·.phase = .failed)) = true) =
      true := by decide +kernel
  obtain ⟨t, hrun, ht⟩ := Machine.exists_run_of_play _ hplay
  obtain ⟨hdisks, hnext⟩ := of_decide_eq_true ht
  obtain ⟨u, hu, hop⟩ := (any_eq_true _ _).mp hnext
  obtain ⟨op, hop, hfailed⟩ := (any_eq_true _ _).mp hop
  have hfailed := of_decide_eq_true hfailed
  have hsurvives := hall (fun _ => true) Job.data Cluster.data t Job.begun_data Job.free_data hrun
  have hends : Job.data.Ends (fun _ => true) t := by
    refine hsurvives.ends fun vm hvm => ?_
    have hvm : t.machines.lookup "web" = some vm := hvm
    rw [hvm, map_some] at hdisks
    rw [some.inj hdisks]
    decide
  obtain ⟨n, hn⟩ := hends u (.step .refl trivial hu)
  obtain ⟨found, hfound, hsucceeded⟩ := (hn u (Passes.finished hop (.inr hfailed) n)).op
  obtain rfl := mem_unique hop hfound
  rw [hfailed] at hsucceeded
  contradiction

end Operations
