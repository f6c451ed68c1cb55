import KubevirtUi.Library.Cuts
import KubevirtUi.Library.Machine
import KubevirtUi.Operations.Passes

/-!
# The operations of a namespace

Operations are submitted, passed over in any order, and reaped; what they make stays, and is found
by its name. So an object has to be known for whose it is: a child bears the labels of its
operation, and of a disk it is noted here for which operation it was made.
-/

namespace Operations

open Option AList

variable {isQuantity : String → Bool}

def Action.suffix : Action → String
  | .restore _ => "-restore"
  | .migrate _ => "-migration"
  | .clone _ _ => "-clone"
  | _ => ""

/-- The name under which an operation looks for its restore, migration or clone. -/
def Operation.child (op : Operation) : String := op.name ++ op.action.suffix

/-- The operation goes on, under its name. -/
structure Cluster.Live (s : Cluster) (op : Operation) : Prop where
  lookup : s.operations.lookup op.name = some op
  unfinished : ¬ op.Finished

/-- Nothing has this identity: it is given to an operation when that is submitted. -/
def Cluster.Unknown (s : Cluster) (uid : String) : Prop :=
  uid ≠ "" ∧ (∀ e ∈ s.operations.entries, e.2.uid ≠ uid) ∧
    (∀ e ∈ s.disks.entries, e.2.madeFor ≠ uid) ∧ (∀ e ∈ s.vms.entries, e.2.pointedFor ≠ uid) ∧
    (∀ e ∈ s.restores.entries, e.2.owner.uid ≠ uid) ∧
    (∀ e ∈ s.migrations.entries, e.2.owner.uid ≠ uid) ∧
    ∀ e ∈ s.clones.entries, e.2.owner.uid ≠ uid

instance (s : Cluster) (uid : String) : Decidable (s.Unknown uid) :=
  inferInstanceAs (Decidable (_ ∧ _))

/-- What happens in a namespace. -/
inductive Happening where
  | submit (name uid vmName : String) (action : Action)
  | reap (name : String)
  | pass (name : String) (cut : Option Nat)
  | change (change : Change)
  | restoring (name : String) (complete : Bool) (failure : Option (String × String))
  | migrating (name phase : String)
  | cloning (name phase : String) (targetName : Option String)
  | discard (name : String)
  | machine (vm : ManagedVM)
  | dropMachine (name : String)
  | vm (name : String) (kvm : VirtualMachine)
  | dropVM (name : String)
  | disk (name : String) (disk : DataVolume)
  | dropDisk (name : String)
  | snapshot (name : String) (snapshot : VolumeSnapshot)
  | vmSnapshots (names : List String)

def VirtualMachine.root (kvm : VirtualMachine) : Option String := kvm.dataVolumeTemplates.head?

/-- A `VirtualMachine` that somebody writes: who has put it on its disk is known as long as it is
on that. -/
def VirtualMachine.after (old : Option VirtualMachine) (kvm : VirtualMachine) : VirtualMachine :=
  { kvm with
    pointedFor := match old with
      | some old => if old.root = kvm.root then old.pointedFor else ""
      | none => "" }

def Cluster.happen (isQuantity : String → Bool) (s : Cluster) : Happening → Option Cluster
  | .submit name uid vmName action =>
    if name ∈ s.operations ∨ ¬ s.Unknown uid then none
    else some { s with operations := s.operations.insert name { name, uid, vmName, action } }
  | .reap name => some { s with operations := s.operations.erase name }
  | .pass name cut => (s.operations.lookup name).map (s.pass isQuantity · cut)
  | .change change => s.change change
  | .restoring name complete failure => (s.restores.lookup name).map fun restore =>
    { s with restores := s.restores.insert name { restore with complete, failure } }
  | .migrating name phase => (s.migrations.lookup name).map fun migration =>
    { s with migrations := s.migrations.insert name { migration with phase } }
  | .cloning name phase targetName => (s.clones.lookup name).map fun clone =>
    { s with clones := s.clones.insert name { clone with phase, targetName } }
  | .discard name => some
      { s with
        restores := s.restores.erase name
        migrations := s.migrations.erase name
        clones := s.clones.erase name }
  | .machine vm => some (s.apply (.machine vm))
  | .dropMachine name => some { s with machines := s.machines.erase name }
  | .vm name kvm => some (s.apply (.vm name (kvm.after (s.vms.lookup name))))
  | .dropVM name => some { s with vms := s.vms.erase name }
  -- an operation has not made it
  | .disk name disk => some (s.apply (.disk name { disk with madeFor := "" }))
  | .dropDisk name => some (s.apply (.removeDisk name))
  | .snapshot name snapshot => some { s with snapshots := s.snapshots.insert name snapshot }
  | .vmSnapshots names => some { s with vmSnapshots := names }

/-- A disk was made for the operation, and filled from its snapshot. -/
structure Operation.Made (op : Operation) (disk : DataVolume) : Prop where
  madeFor : disk.madeFor = op.uid
  filled : ∀ snapshotName, op.action = .rollbackDisk snapshotName →
    disk.snapshot = some snapshotName

/-- Nobody else has a use for the disk's name. -/
structure Operation.Clear (op : Operation) (s : Cluster) (name : String) : Prop where
  disk : ∀ disk, s.disks.lookup name = some disk → op.Made disk
  vms : ∀ vmName kvm, s.vms.lookup vmName = some kvm → kvm.root = some name →
    kvm.pointedFor = op.uid
  others : ∀ other, s.Live other → other.name ≠ op.name → other.replacementDisk ≠ name

/-- The names of the objects that such an action has for children. -/
def Cluster.children (s : Cluster) : Action → List String
  | .restore _ => s.restores.keys
  | .migrate _ => s.migrations.keys
  | .clone _ _ => s.clones.keys
  | _ => []

def Cluster.nextRoot (s : Cluster) (vm : ManagedVM) : Option String :=
  (s.vms.lookup vm.target).bind fun kvm => kvm.root.map (nextRootDiskName vm.name)

/-- The disk that a pass chooses for the operation, if it has not yet. -/
def Operation.choice (op : Operation) (s : Cluster) (vm : ManagedVM) : Option String :=
  match op.action with
  | .recreate => s.nextRoot vm
  | .rollbackDisk snapshotName => (s.snapshots.lookup snapshotName).bind fun snapshot =>
    if snapshot.source ∈ vm.disks.map Disks.DiskAttachment.claim then
      some (rollbackName op snapshot.source)
    else s.nextRoot vm
  | _ => none

/-- The disk that a pass works on. -/
def Operation.used (op : Operation) (s : Cluster) (vm : ManagedVM) : Option String :=
  if op.replacementDisk = "" then op.choice s vm else some op.replacementDisk

/-- The name is one that an operation has saved. -/
def Cluster.Held (s : Cluster) (name : String) : Prop :=
  name ≠ "" ∧ ∃ op, s.Live op ∧ op.replacementDisk = name

/-- Names are not used twice. -/
def Cluster.Apart (s : Cluster) : Happening → Prop
  | .submit name _ _ action => name ++ action.suffix ∉ s.children action
  | .pass name _ => ∀ op vm disk, s.operations.lookup name = some op → ¬ op.Finished →
      op.replacementDisk = "" → s.machines.lookup op.vmName = some vm →
      op.choice s vm = some disk → op.Clear s disk
  | .change (.build vmName) => ∀ kvm disk op, s.vms.lookup vmName = some kvm →
      kvm.root = some disk → disk ≠ "" → s.Live op → op.replacementDisk = disk →
      op.action = .recreate
  | .vm name kvm => ∀ disk, kvm.root = some disk → s.Held disk →
      (s.vms.lookup name).bind VirtualMachine.root = some disk
  | .disk name _ => ¬ s.Held name
  | _ => True

/-- The child, if there is one, is its own, and was asked for what the operation asks for. -/
def Operation.OwnsChild (op : Operation) (s : Cluster) : Prop :=
  match op.action with
  | .restore snapshotName => ∀ restore, s.restores.lookup op.child = some restore →
      restore.owner = op.owner ∧ restore.snapshotName = snapshotName
  | .migrate targetNode => ∀ migration, s.migrations.lookup op.child = some migration →
      migration.owner = op.owner ∧ migration.node = targetNode
  | .clone targetName _ => ∀ clone, s.clones.lookup op.child = some clone →
      clone.owner = op.owner ∧ clone.target = targetName
  | _ => True

structure Operation.Sound (op : Operation) (s : Cluster) : Prop where
  child : op.childName = "" ∨ op.childName = op.child
  owns : op.OwnsChild s
  clear : op.replacementDisk ≠ "" → op.Clear s op.replacementDisk

structure Cluster.Sound (s : Cluster) : Prop where
  names : ∀ name op, s.operations.lookup name = some op → op.name = name
  machines : ∀ name vm, s.machines.lookup name = some vm → vm.name = name
  live : ∀ op, s.Live op → op.Sound s

variable {vmName other : String} {kvm : VirtualMachine}

variable {s t : Cluster} {op : Operation}

section Sound

variable {op' : Operation} {name : String}

theorem Cluster.Live.eq (h : s.Live op) (h' : s.Live op') (hname : op'.name = op.name) : op' = op :=
  mem_unique h'.lookup (hname ▸ h.lookup)

theorem Operation.Clear.congr (h : op.Clear s name) (hop : op'.Continues op) :
    op'.Clear s name where
  disk := fun disk hdisk => ⟨(h.disk disk hdisk).madeFor.trans hop.uid.symm,
    fun snapshotName haction => (h.disk disk hdisk).filled snapshotName
      (hop.action.symm.trans haction)⟩
  vms := fun vmName kvm hkvm hroot => (h.vms vmName kvm hkvm hroot).trans hop.uid.symm
  others := fun other hother hne => h.others other hother (hop.name ▸ hne)

theorem Operation.Continues.child (h : op'.Continues op) : op'.child = op.child := by
  rw [Operation.child, Operation.child, h.name, h.action]

theorem Operation.Continues.owner (h : op'.Continues op) : op'.owner = op.owner := by
  rw [Operation.owner, Operation.owner, h.name, h.uid]

theorem Operation.OwnsChild.congr (h : op.OwnsChild s) (hop : op'.Continues op) :
    op'.OwnsChild s := by
  unfold Operation.OwnsChild at h ⊢
  rw [hop.action, hop.child, hop.owner]
  exact h

theorem name_of_child (hsuffix : op'.action.suffix = op.action.suffix)
    (hchild : op'.child = op.child) : op'.name = op.name := by
  rw [Operation.child, Operation.child, hsuffix] at hchild
  exact (String.append_left_inj _).mp hchild

theorem Cluster.Live.of_eq (h : s.Live op) (hops : t.operations = s.operations) : t.Live op :=
  ⟨hops ▸ h.lookup, h.unfinished⟩

theorem Cluster.Sound.made (h : s.Sound) {disk : DataVolume} (hop : s.Live op)
    (hne : op.replacementDisk ≠ "") (hdisk : s.disks.lookup op.replacementDisk = some disk) :
    op.Made disk :=
  ((h.live op hop).clear hne).disk disk hdisk

theorem Cluster.Sound.pointed (h : s.Sound) (hop : s.Live op) (hne : op.replacementDisk ≠ "")
    (hkvm : s.vms.lookup vmName = some kvm) (hroot : kvm.root = some op.replacementDisk) :
    kvm.pointedFor = op.uid :=
  ((h.live op hop).clear hne).vms vmName kvm hkvm hroot

theorem Cluster.Sound.of (h : s.Sound) (hops : t.operations = s.operations)
    (hmachines : ∀ name vm, t.machines.lookup name = some vm → vm.name = name)
    (howns : ∀ op, s.Live op → op.OwnsChild s → op.OwnsChild t)
    (hmade : ∀ op disk, s.Live op → op.replacementDisk ≠ "" →
      t.disks.lookup op.replacementDisk = some disk → op.Made disk)
    (hpointed : ∀ op vmName kvm, s.Live op → op.replacementDisk ≠ "" →
      t.vms.lookup vmName = some kvm → kvm.root = some op.replacementDisk →
      kvm.pointedFor = op.uid) : t.Sound where
  names := by
    rw [hops]
    exact h.names
  machines := hmachines
  live := by
    intro op hop
    have hop : s.Live op := hop.of_eq hops.symm
    have hold := h.live op hop
    refine ⟨hold.child, howns op hop hold.owns, fun hne => ⟨fun disk => hmade op disk hop hne,
      fun vmName kvm => hpointed op vmName kvm hop hne, fun other hother => ?_⟩⟩
    exact (hold.clear hne).others other (hother.of_eq hops.symm)

end Sound

section Others

theorem Cluster.Sound.machine (h : s.Sound) (vm : ManagedVM) : (s.apply (.machine vm)).Sound := by
  refine h.of rfl (fun name found hfound => ?_) (fun _ _ hold => hold) (fun _ _ => h.made)
    fun _ _ _ => h.pointed
  by_cases hname : name = vm.name
  · subst hname
    rw [← mem_unique (lookup_insert _) hfound]
  · exact h.machines name found ((lookup_insert_ne hname).symm.trans hfound)

theorem lookup_of_erase {α : String → Type} {m : AList α} {name : String} {a : α name}
    (h : (m.erase other).lookup name = some a) : m.lookup name = some a := by
  have hname : name ≠ other := by
    rintro rfl
    rw [lookup_erase] at h
    contradiction
  exact (lookup_erase_ne hname).symm.trans h

theorem Cluster.Sound.removeDisk (h : s.Sound) (name : String) :
    (s.apply (.removeDisk name)).Sound :=
  h.of rfl h.machines (fun _ _ hold => hold)
    (fun _ _ hop hne hdisk => h.made hop hne (lookup_of_erase hdisk)) fun _ _ _ => h.pointed

theorem Cluster.Sound.disk (h : s.Sound) {name : String} {disk : DataVolume}
    (hmade : ∀ op, s.Live op → op.replacementDisk ≠ "" → op.replacementDisk = name →
      op.Made disk) : (s.apply (.disk name disk)).Sound := by
  refine h.of rfl h.machines (fun _ _ hold => hold) (fun op found hop hne hfound => ?_)
    fun _ _ _ => h.pointed
  by_cases hname : op.replacementDisk = name
  · rw [hname] at hfound
    obtain rfl := mem_unique (lookup_insert _) hfound
    exact hmade op hop hne hname
  · exact h.made hop hne ((lookup_insert_ne hname).symm.trans hfound)

theorem Cluster.Sound.vm (h : s.Sound) {name : String}
    (hpointed : ∀ op, s.Live op → op.replacementDisk ≠ "" →
      kvm.root = some op.replacementDisk → kvm.pointedFor = op.uid) :
    (s.apply (.vm name kvm)).Sound := by
  refine h.of rfl h.machines (fun _ _ hold => hold) (fun _ _ => h.made)
    fun op vmName found hop hne hfound hroot => ?_
  by_cases hname : vmName = name
  · subst hname
    obtain rfl := mem_unique (lookup_insert _) hfound
    exact hpointed op hop hne hroot
  · exact h.pointed hop hne ((lookup_insert_ne hname).symm.trans hfound) hroot

theorem Operation.OwnsChild.mono (h : op.OwnsChild s)
    (hrestores : ∀ snapshotName restore, op.action = .restore snapshotName →
      t.restores.lookup op.child = some restore → s.restores.lookup op.child = some restore ∨
        restore.owner = op.owner ∧ restore.snapshotName = snapshotName)
    (hmigrations : ∀ targetNode migration, op.action = .migrate targetNode →
      t.migrations.lookup op.child = some migration →
        s.migrations.lookup op.child = some migration ∨
          migration.owner = op.owner ∧ migration.node = targetNode)
    (hclones : ∀ targetName start clone, op.action = .clone targetName start →
      t.clones.lookup op.child = some clone → s.clones.lookup op.child = some clone ∨
        clone.owner = op.owner ∧ clone.target = targetName) : op.OwnsChild t := by
  unfold Operation.OwnsChild at h ⊢
  cases haction : op.action with
  | restore snapshotName =>
    simp only [haction] at h ⊢
    exact fun restore hrestore => (hrestores _ restore haction hrestore).elim (h restore) id
  | migrate targetNode =>
    simp only [haction] at h ⊢
    exact fun migration hmigration =>
      (hmigrations _ migration haction hmigration).elim (h migration) id
  | clone targetName start =>
    simp only [haction] at h ⊢
    exact fun clone hclone => (hclones _ _ clone haction hclone).elim (h clone) id
  | _ => trivial

theorem lookup_of_insert {α : Type} {m : AList fun _ : String => α} {name : String} {a b : α}
    (h : (m.insert other b).lookup name = some a) :
    m.lookup name = some a ∨ name = other ∧ a = b := by
  by_cases hname : name = other
  · subst hname
    exact .inr ⟨rfl, mem_unique h (lookup_insert _)⟩
  · exact .inl ((lookup_insert_ne hname).symm.trans h)

theorem Cluster.Sound.restore (h : s.Sound) {name : String} {restore : Restore}
    (hown : ∀ op snapshotName, s.Live op → op.action = .restore snapshotName → op.child = name →
      restore.owner = op.owner ∧ restore.snapshotName = snapshotName) :
    (s.apply (.restore name restore)).Sound := by
  refine h.of rfl h.machines (fun op hop hold => ?_) (fun _ _ => h.made) fun _ _ _ => h.pointed
  refine hold.mono (fun snapshotName found haction hfound => ?_) (fun _ _ _ => .inl)
    fun _ _ _ _ => .inl
  refine (lookup_of_insert hfound).imp_right ?_
  rintro ⟨hname, rfl⟩
  exact hown op snapshotName hop haction hname

theorem Cluster.Sound.migration (h : s.Sound) {name : String} {migration : Migration}
    (hown : ∀ op targetNode, s.Live op → op.action = .migrate targetNode → op.child = name →
      migration.owner = op.owner ∧ migration.node = targetNode) :
    (s.apply (.migration name migration)).Sound := by
  refine h.of rfl h.machines (fun op hop hold => ?_) (fun _ _ => h.made) fun _ _ _ => h.pointed
  refine hold.mono (fun _ _ _ => .inl) (fun targetNode found haction hfound => ?_)
    fun _ _ _ _ => .inl
  refine (lookup_of_insert hfound).imp_right ?_
  rintro ⟨hname, rfl⟩
  exact hown op targetNode hop haction hname

theorem Cluster.Sound.clone (h : s.Sound) {name : String} {clone : Clone}
    (hown : ∀ op targetName start, s.Live op → op.action = .clone targetName start →
      op.child = name → clone.owner = op.owner ∧ clone.target = targetName) :
    (s.apply (.clone name clone)).Sound := by
  refine h.of rfl h.machines (fun op hop hold => ?_) (fun _ _ => h.made) fun _ _ _ => h.pointed
  refine hold.mono (fun _ _ _ => .inl) (fun _ _ _ => .inl)
    fun targetName start found haction hfound => ?_
  refine (lookup_of_insert hfound).imp_right ?_
  rintro ⟨hname, rfl⟩
  exact hown op targetName start hop haction hname

theorem Operation.OwnsChild.restore (h : op.OwnsChild s) {snapshotName : String}
    (haction : op.action = .restore snapshotName) {restore : Restore}
    (hrestore : s.restores.lookup op.child = some restore) :
    restore.owner = op.owner ∧ restore.snapshotName = snapshotName := by
  unfold Operation.OwnsChild at h
  rw [haction] at h
  exact h restore hrestore

theorem Operation.OwnsChild.migration (h : op.OwnsChild s) {targetNode : String}
    (haction : op.action = .migrate targetNode) {migration : Migration}
    (hmigration : s.migrations.lookup op.child = some migration) :
    migration.owner = op.owner ∧ migration.node = targetNode := by
  unfold Operation.OwnsChild at h
  rw [haction] at h
  exact h migration hmigration

theorem Operation.OwnsChild.clone (h : op.OwnsChild s) {targetName : String} {start : Bool}
    (haction : op.action = .clone targetName start) {clone : Clone}
    (hclone : s.clones.lookup op.child = some clone) :
    clone.owner = op.owner ∧ clone.target = targetName := by
  unfold Operation.OwnsChild at h
  rw [haction] at h
  exact h clone hclone

theorem Cluster.Sound.change (h : s.Sound) {change : Change} (hapart : s.Apart (.change change))
    (hstep : s.change change = some t) : t.Sound := by
  obtain ⟨hops, hmachines, hvms, -⟩ := rest_of_change hstep
  have howns : ∀ op, s.Live op → op.OwnsChild s → op.OwnsChild t := by
    obtain ⟨hrestores, hmigrations, hclones⟩ := children_of_change hstep
    intro op _ hold
    refine hold.mono (fun _ _ _ => ?_) (fun _ _ _ => ?_) fun _ _ _ _ => ?_
    · exact hrestores ▸ .inl
    · exact hmigrations ▸ .inl
    · exact hclones ▸ .inl
  refine h.of hops (hmachines ▸ h.machines) howns (fun op disk hop hne hdisk => ?_)
    (hvms ▸ fun _ _ _ => h.pointed)
  by_cases hmem : op.replacementDisk ∈ s.disks
  · obtain ⟨old, hold⟩ := isSome_iff_exists.mp (lookup_isSome.mpr hmem)
    obtain ⟨found, hfound, hsnapshot, hmadeFor, -⟩ := disk_of_change hstep hold
    obtain rfl := mem_unique hdisk hfound
    have hmade := h.made hop hne hold
    exact ⟨hmadeFor.trans hmade.madeFor,
      fun snapshotName haction => hsnapshot.trans (hmade.filled snapshotName haction)⟩
  have hthere : op.replacementDisk ∈ t.disks :=
    lookup_isSome.mp (isSome_of_eq_some hdisk)
  obtain ⟨vmName, kvm, built, rfl, hkvm, hroot, -, rfl⟩ | ⟨-, hsame⟩ := built_of_change hstep
  · obtain hold | ⟨rfl, rfl⟩ := lookup_of_insert hdisk
    · exact absurd (lookup_isSome.mp (isSome_of_eq_some hold)) hmem
    · refine ⟨h.pointed hop hne hkvm hroot, fun snapshotName haction => ?_⟩
      have hrecreate := hapart kvm _ op hkvm hroot hne hop rfl
      rw [hrecreate] at haction
      contradiction
  · exact absurd ((hsame _).mp hthere) hmem

theorem Cluster.Sound.submit (h : s.Sound) {name uid : String} {action : Action}
    (hapart : name ++ action.suffix ∉ s.children action) : Cluster.Sound
      { s with operations := s.operations.insert name { name, uid, vmName, action } } := by
  refine ⟨fun other op hop => ?_, h.machines, fun op hop => ?_⟩
  · obtain hold | ⟨rfl, rfl⟩ := lookup_of_insert hop
    · exact h.names other op hold
    · rfl
  obtain hold | ⟨-, rfl⟩ := lookup_of_insert hop.lookup
  · have hsound := h.live op ⟨hold, hop.unfinished⟩
    refine ⟨hsound.child, hsound.owns, fun hne => ⟨(hsound.clear hne).disk,
      (hsound.clear hne).vms, fun other hother hname => ?_⟩⟩
    obtain hthere | ⟨-, rfl⟩ := lookup_of_insert hother.lookup
    · exact (hsound.clear hne).others other ⟨hthere, hother.unfinished⟩ hname
    · exact hne.symm
  · refine ⟨.inl rfl, ?_, fun hne => absurd rfl hne⟩
    unfold Operation.OwnsChild
    cases action with
    | restore snapshotName =>
      exact fun restore hrestore => absurd (mem_keys.mpr
        (lookup_isSome.mp (isSome_of_eq_some hrestore))) hapart
    | migrate targetNode =>
      exact fun migration hmigration => absurd (mem_keys.mpr
        (lookup_isSome.mp (isSome_of_eq_some hmigration))) hapart
    | clone targetName start =>
      exact fun clone hclone => absurd (mem_keys.mpr
        (lookup_isSome.mp (isSome_of_eq_some hclone))) hapart
    | _ => trivial

theorem Cluster.Sound.reap (h : s.Sound) (name : String) :
    Cluster.Sound { s with operations := s.operations.erase name } := by
  have hlive : ∀ op, Cluster.Live { s with operations := s.operations.erase name } op →
      s.Live op := fun op hop => ⟨lookup_of_erase hop.lookup, hop.unfinished⟩
  refine ⟨fun other op hop => h.names other op (lookup_of_erase hop), h.machines, fun op hop => ?_⟩
  have hsound := h.live op (hlive op hop)
  exact ⟨hsound.child, hsound.owns, fun hne => ⟨(hsound.clear hne).disk, (hsound.clear hne).vms,
    fun other hother => (hsound.clear hne).others other (hlive other hother)⟩⟩

end Others

theorem Cluster.Sound.happen (h : s.Sound) {e : Happening} (hapart : s.Apart e)
    (hpass : ∀ name cut, e ≠ .pass name cut) (hstep : s.happen isQuantity e = some t) :
    t.Sound := by
  cases e with
  | submit name uid vmName action =>
    obtain ⟨-, hstep⟩ := ite_none_left_eq_some.mp hstep
    obtain rfl := some.inj hstep
    exact h.submit hapart
  | reap name =>
    obtain rfl := some.inj hstep
    exact h.reap name
  | pass name cut => exact absurd rfl (hpass name cut)
  | change change => exact h.change hapart hstep
  | restoring name complete failure =>
    obtain ⟨restore, hrestore, rfl⟩ := map_eq_some_iff.mp hstep
    refine h.restore fun op snapshotName hop haction hname => ?_
    subst hname
    have hown := (h.live op hop).owns.restore haction hrestore
    exact hown
  | migrating name phase =>
    obtain ⟨migration, hmigration, rfl⟩ := map_eq_some_iff.mp hstep
    refine h.migration fun op targetNode hop haction hname => ?_
    subst hname
    have hown := (h.live op hop).owns.migration haction hmigration
    exact hown
  | cloning name phase targetName =>
    obtain ⟨clone, hclone, rfl⟩ := map_eq_some_iff.mp hstep
    refine h.clone fun op target run hop haction hname => ?_
    subst hname
    have hown := (h.live op hop).owns.clone haction hclone
    exact hown
  | discard name =>
    obtain rfl := some.inj hstep
    refine h.of rfl h.machines (fun op _ hold => ?_) (fun _ _ => h.made) fun _ _ _ => h.pointed
    exact hold.mono (fun _ _ _ hthere => .inl (lookup_of_erase hthere))
      (fun _ _ _ hthere => .inl (lookup_of_erase hthere))
      fun _ _ _ _ hthere => .inl (lookup_of_erase hthere)
  | machine vm =>
    obtain rfl := some.inj hstep
    exact h.machine vm
  | dropMachine name =>
    obtain rfl := some.inj hstep
    exact h.of rfl (fun other vm hvm => h.machines other vm (lookup_of_erase hvm))
      (fun _ _ hold => hold) (fun _ _ => h.made) fun _ _ _ => h.pointed
  | vm name kvm =>
    obtain rfl := some.inj hstep
    refine h.vm fun op hop hne hroot => ?_
    have hold := hapart op.replacementDisk hroot ⟨hne, op, hop, rfl⟩
    obtain ⟨old, hlookup, holdRoot⟩ := bind_eq_some_iff.mp hold
    have hsame : old.root = kvm.root := holdRoot.trans hroot.symm
    rw [hlookup, VirtualMachine.after]
    exact (if_pos hsame).trans (h.pointed hop hne hlookup holdRoot)
  | dropVM name =>
    obtain rfl := some.inj hstep
    exact h.of rfl h.machines (fun _ _ hold => hold) (fun _ _ => h.made)
      fun _ _ _ hop hne hkvm => h.pointed hop hne (lookup_of_erase hkvm)
  | disk name disk =>
    obtain rfl := some.inj hstep
    exact h.disk fun op hop hne hname => absurd ⟨hname ▸ hne, op, hop, hname⟩ hapart
  | dropDisk name =>
    obtain rfl := some.inj hstep
    exact h.removeDisk name
  | snapshot name snapshot =>
    obtain rfl := some.inj hstep
    exact h.of rfl h.machines (fun _ _ hold => hold) (fun _ _ => h.made) fun _ _ _ => h.pointed
  | vmSnapshots names =>
    obtain rfl := some.inj hstep
    exact h.of rfl h.machines (fun _ _ hold => hold) (fun _ _ => h.made) fun _ _ _ => h.pointed

/-- What becomes of an operation in a pass that works on a disk. -/
structure Operation.Follows (op start : Operation) (used : Option String) : Prop where
  request : op.Continues start
  child : op.childName = "" ∨ op.childName = start.child
  disk : op.replacementDisk = start.replacementDisk ∨ used = some op.replacementDisk

/-- A `VirtualMachine` that is on an operation's disk was put there by it. -/
def Cluster.Suits (s : Cluster) (start : Operation) (used : Option String)
    (kvm : VirtualMachine) : Prop :=
  (∀ op, s.Live op → op.replacementDisk ≠ "" → kvm.root = some op.replacementDisk →
    kvm.pointedFor = op.uid) ∧
    ∀ disk, used = some disk → kvm.root = some disk → kvm.pointedFor = start.uid

inductive Write.Allowed (s : Cluster) (start : Operation) (used : Option String) : Write → Prop
  | restore {restore : Restore} : start.action = .restore restore.snapshotName →
      restore.owner = start.owner → Allowed s start used (.restore start.child restore)
  | migration {migration : Migration} : start.action = .migrate migration.node →
      migration.owner = start.owner → Allowed s start used (.migration start.child migration)
  | clone {clone : Clone} {run : Bool} : start.action = .clone clone.target run →
      clone.owner = start.owner → Allowed s start used (.clone start.child clone)
  | disk {name : String} {disk : DataVolume} : used = some name → start.Made disk →
      Allowed s start used (.disk name disk)
  | removeDisk {name : String} : Allowed s start used (.removeDisk name)
  | vm {name : String} {kvm : VirtualMachine} : s.Suits start used kvm →
      Allowed s start used (.vm name kvm)
  | machine {vm : ManagedVM} : Allowed s start used (.machine vm)

section Pass

variable {start : Operation} {used : Option String}

/-- What holds until a pass saves its status. -/
structure Cluster.During (s : Cluster) (start : Operation) (used : Option String)
    (t : Cluster) : Prop where
  sound : t.Sound
  operations : t.operations = s.operations
  clear : ∀ disk, used = some disk → start.Clear t disk

theorem Cluster.During.apply (h : s.During start used t) (hlive : s.Live start) {write : Write}
    (hallowed : write.Allowed s start used) : s.During start used (t.apply write) := by
  have hold : ∀ {op}, t.Live op → s.Live op := fun hop => hop.of_eq h.operations.symm
  have hclear : ∀ {u : Cluster}, u.operations = t.operations → u.disks = t.disks →
      u.vms = t.vms → ∀ disk, used = some disk → start.Clear u disk := by
    intro u hops hdisks hvms disk hused
    obtain ⟨hdisk, hkvm, hothers⟩ := h.clear disk hused
    exact ⟨hdisks ▸ hdisk, hvms ▸ hkvm, fun other hother => hothers other (hother.of_eq hops.symm)⟩
  have hsame : ∀ {op}, t.Live op → op.action.suffix = start.action.suffix →
      op.child = start.child → op = start :=
    fun hop hsuffix hchild => hlive.eq (hold hop) (name_of_child hsuffix hchild)
  cases hallowed with
  | restore haction howner =>
    refine ⟨h.sound.restore fun op snapshotName hop hrestore hchild => ?_, h.operations,
      hclear rfl rfl rfl⟩
    obtain rfl := hsame hop (by rw [hrestore, haction]; rfl) hchild
    rw [haction] at hrestore
    exact ⟨howner, Action.restore.inj hrestore⟩
  | migration haction howner =>
    refine ⟨h.sound.migration fun op targetNode hop hmigrate hchild => ?_, h.operations,
      hclear rfl rfl rfl⟩
    obtain rfl := hsame hop (by rw [hmigrate, haction]; rfl) hchild
    rw [haction] at hmigrate
    exact ⟨howner, Action.migrate.inj hmigrate⟩
  | clone haction howner =>
    refine ⟨h.sound.clone fun op targetName run hop hclone hchild => ?_, h.operations,
      hclear rfl rfl rfl⟩
    obtain rfl := hsame hop (by rw [hclone, haction]; rfl) hchild
    rw [haction] at hclone
    exact ⟨howner, (Action.clone.inj hclone).1⟩
  | @disk name disk hused hmade =>
    refine ⟨h.sound.disk fun op hop hne hname => ?_, h.operations, fun other hother => ?_⟩
    · -- another operation on this disk is not there
      have hsame : op.name = start.name := not_not.mp fun hno =>
        (h.clear name hused).others op hop hno hname
      obtain rfl := hlive.eq (hold hop) hsame
      exact hmade
    · obtain rfl := mem_unique hused hother
      refine ⟨fun found hfound => ?_, (h.clear name hused).vms, fun op hop =>
        (h.clear name hused).others op (hop.of_eq rfl)⟩
      obtain rfl := mem_unique (lookup_insert _) hfound
      exact hmade
  | removeDisk =>
    refine ⟨h.sound.removeDisk _, h.operations, fun disk hused => ?_⟩
    obtain ⟨hdisk, hkvm, hothers⟩ := h.clear disk hused
    exact ⟨fun found hfound => hdisk found (lookup_of_erase hfound), hkvm,
      fun other hother => hothers other (hother.of_eq rfl)⟩
  | vm hsuits =>
    refine ⟨h.sound.vm fun op hop => hsuits.1 op (hold hop), h.operations, fun disk hused => ?_⟩
    obtain ⟨hdisk, hkvm, hothers⟩ := h.clear disk hused
    refine ⟨hdisk, fun vmName found hfound hroot => ?_,
      fun other hother => hothers other (hother.of_eq rfl)⟩
    obtain hthere | ⟨-, rfl⟩ := lookup_of_insert hfound
    · exact hkvm vmName found hthere hroot
    · exact hsuits.2 disk hused hroot
  | machine => exact ⟨h.sound.machine _, h.operations, hclear rfl rfl rfl⟩

theorem Cluster.During.status (h : s.During start used t) (hlive : s.Live start)
    (hop : op.Follows start used) : (t.apply (.status op)).Sound := by
  have hstart : t.Live start := hlive.of_eq h.operations
  have hkept : ∀ other, t.Live other → other.name ≠ start.name → other.replacementDisk ≠ "" →
      op.replacementDisk ≠ other.replacementDisk := by
    intro other hother hname hne hsame
    obtain hdisk | hused := hop.disk
    · exact ((h.sound.live other hother).clear hne).others start hstart hname.symm
        (hdisk.symm.trans hsame)
    · exact (h.clear _ hused).others other hother hname hsame.symm
  have hlookup : ∀ {other}, (t.apply (.status op)).Live other →
      other.name ≠ start.name ∧ t.Live other ∨ other = op := by
    intro other hother
    by_cases hname : other.name = op.name
    · refine .inr (some.inj (hother.lookup.symm.trans ?_))
      rw [hname]
      exact lookup_insert _
    · exact .inl ⟨hop.request.name ▸ hname,
        (lookup_insert_ne hname).symm.trans hother.lookup, hother.unfinished⟩
  refine ⟨fun name found hfound => ?_, h.sound.machines, fun other hother => ?_⟩
  · obtain hthere | ⟨rfl, rfl⟩ := lookup_of_insert hfound
    · exact h.sound.names name found hthere
    · rfl
  obtain ⟨hname, hthere⟩ | rfl := hlookup hother
  · have hsound := h.sound.live other hthere
    refine ⟨hsound.child, hsound.owns, fun hne => ⟨(hsound.clear hne).disk,
      (hsound.clear hne).vms, fun third hthird hdistinct => ?_⟩⟩
    obtain ⟨-, hlive⟩ | rfl := hlookup hthird
    · exact (hsound.clear hne).others third hlive hdistinct
    · exact hkept other hthere hname hne
  · have hsound := h.sound.live start hstart
    refine ⟨hop.request.child ▸ hop.child, hsound.owns.congr hop.request, fun hne => ?_⟩
    have hclear : other.Clear t other.replacementDisk := by
      obtain hdisk | hused := hop.disk
      · rw [hdisk] at hne ⊢
        exact (hsound.clear hne).congr hop.request
      · exact (h.clear _ hused).congr hop.request
    refine ⟨hclear.disk, hclear.vms, fun third hthird hdistinct => ?_⟩
    obtain ⟨-, hlive⟩ | rfl := hlookup hthird
    · exact hclear.others third hlive hdistinct
    · exact absurd rfl hdistinct

theorem Cluster.Sound.calls (h : s.Sound) (hlive : s.Live start)
    (hclear : ∀ disk, used = some disk → start.Clear s disk) {pass : Pass}
    (hwrites : ∀ write ∈ pass.writes, write.Allowed s start used)
    (hstatus : ∀ op, pass.status = some op → op.Follows start used) :
    Cuts.Throughout Cluster.apply Cluster.Sound s pass.calls := by
  have hduring : ∀ {writes : List Write} {t}, s.During start used t →
      (∀ write ∈ writes, write.Allowed s start used) →
      Cuts.Throughout Cluster.apply Cluster.Sound t (writes ++ pass.status.toList.map .status) := by
    intro writes
    induction writes with
    | nil =>
      intro t ht _
      cases hpass : pass.status with
      | none => exact .nil ht.sound
      | some op => exact .cons ht.sound (.nil (ht.status hlive (hstatus op hpass)))
    | cons write writes ih =>
      intro t ht hwrites
      exact .cons ht.sound (ih (ht.apply hlive (hwrites write List.mem_cons_self))
        fun other hother => hwrites other (List.mem_cons_of_mem _ hother))
  exact hduring ⟨h, rfl, hclear⟩ hwrites

end Pass

end Operations
