import KubevirtUi.Operations.History

/-!
# An operation that has succeeded has done its own work

What a pass finds under the names of an operation is the operation's own, as long as no name is
used twice; so what it reports is its own work. A migration to the node that the machine is on
already is reported without one.
-/

namespace Operations

open List Option

open Disks (DiskAttachment)

variable {isQuantity : String → Bool}

/-- This machine is on the disk that the operation has put it on. -/
structure Operation.On (op : Operation) (t : Cluster) (vm : ManagedVM) : Prop where
  machine : t.machines.lookup op.vmName = some vm
  disk : op.replacementDisk ∈ vm.disks.map DiskAttachment.claim ∨
    ∃ kvm, t.vms.lookup vm.target = some kvm ∧ kvm.root = some op.replacementDisk ∧
      kvm.pointedFor = op.uid

/-- What the pass that ends an operation has found, and what it leaves. -/
def Operation.Owes (op : Operation) (s t : Cluster) : Prop :=
  match op.action with
  | .restore snapshotName => ∃ restore, s.restores.lookup op.child = some restore ∧
      restore.owner = op.owner ∧ restore.snapshotName = snapshotName ∧ restore.complete = true
  | .migrate targetNode => ∃ migration, s.migrations.lookup op.child = some migration ∧
      migration.owner = op.owner ∧ migration.node = targetNode ∧ migration.phase = succeeded
  | .clone targetName _ => ∃ clone, s.clones.lookup op.child = some clone ∧
      clone.owner = op.owner ∧ clone.target = targetName ∧ clone.phase = succeeded
  | .rollbackDisk snapshotName => (∃ disk, s.disks.lookup op.replacementDisk = some disk ∧
      disk.madeFor = op.uid ∧ disk.snapshot = some snapshotName ∧ disk.phase = succeeded) ∧
        ∃ vm, op.On t vm
  | .recreate => (∀ disk, s.disks.lookup op.replacementDisk = some disk →
      disk.madeFor = op.uid) ∧ ∃ vm, op.On t vm
  | .unknown _ => False

/-- The machine runs where it is to be migrated to. -/
def Operation.AlreadyThere (op : Operation) (s : Cluster) : Prop :=
  ∃ targetNode vm, op.action = .migrate targetNode ∧ targetNode ≠ "" ∧
    s.machines.lookup op.vmName = some vm ∧ s.instances.lookup vm.target = some targetNode

variable {writes : List Write} {write : Write} {snapshotName targetNode targetName : String}
  {kvm : VirtualMachine} {vm' : ManagedVM} {p : Prop}

section Fair

variable {s t : Cluster} {start op : Operation} {used : Option String} {vm : ManagedVM}

/-- A pass does what it may, and when it ends an operation, that has done its work. -/
structure Pass.Fair (pass : Pass) (s : Cluster) (start : Operation) (used : Option String) :
    Prop where
  writes : ∀ write ∈ pass.writes, write.Allowed s start used
  status : ∀ op, pass.status = some op → op.Follows start used
  owes : ∀ op, pass.status = some op → op.phase = .succeeded →
    op.AlreadyThere s ∨ op.Owes s (pass.writes.foldl Cluster.apply s)

theorem Operation.Follows.inProgress (h : op.Follows start used) (message : String) :
    (op.inProgress message).Follows start used :=
  ⟨{ h.request with }, h.child, h.disk⟩

theorem Operation.Follows.finish (h : op.Follows start used) (phase : Phase) (message : String) :
    (op.finish phase message).Follows start used :=
  ⟨{ h.request with }, h.child, h.disk⟩

theorem Operation.Sound.begin (h : start.Sound s) (used : Option String) (vm : ManagedVM) :
    (start.begin vm).Follows start used :=
  ⟨⟨rfl, rfl, rfl, rfl⟩, h.child, .inl rfl⟩

theorem Operation.Follows.named (h : op.Follows start used) {suffix : String}
    (hsuffix : start.action.suffix = suffix) :
    (if op.childName = "" then op.name ++ suffix else op.childName) = start.child ∧
      Operation.Follows { op with childName := start.child } start used := by
  refine ⟨?_, { h.request with }, .inr rfl, h.disk⟩
  split
  · rw [h.request.name, ← hsuffix, Operation.child]
  · next hne => exact h.child.resolve_left hne

theorem Operation.Follows.fair_of (h : op.Follows start used)
    (hwrites : ∀ write ∈ writes, write.Allowed s start used)
    (hphase : op.phase ≠ .succeeded := by exact Phase.noConfusion) :
    Pass.Fair ⟨writes, some op⟩ s start used := by
  refine ⟨hwrites, fun other hother => ?_, fun other hother hdone => ?_⟩
  · exact some.inj hother ▸ h
  · exact absurd hdone (some.inj hother ▸ hphase)

theorem Operation.Follows.fair (h : op.Follows start used)
    (hphase : op.phase ≠ .succeeded := by exact Phase.noConfusion) :
    Pass.Fair ⟨[], some op⟩ s start used :=
  h.fair_of (fun write hno => by contradiction) hphase

theorem Operation.Follows.fair_one (h : op.Follows start used)
    (hwrite : write.Allowed s start used)
    (hphase : op.phase ≠ .succeeded := by exact Phase.noConfusion) :
    Pass.Fair ⟨[write], some op⟩ s start used :=
  h.fair_of (fun _ hmem => mem_singleton.mp hmem ▸ hwrite) hphase

theorem allowed_restoreRunState (h : write ∈ restoreRunState op vm) :
    write.Allowed s start used := by
  rw [restoreRunState] at h
  split at h
  · contradiction
  · split at h
    · contradiction
    · obtain rfl := mem_singleton.mp h
      exact .machine

theorem Operation.Follows.fair_finish (h : op.Follows start used) {message : String}
    (hwrites : ∀ write ∈ writes, write.Allowed s start used)
    (howes : (op.finish .succeeded message).AlreadyThere s ∨
      (op.finish .succeeded message).Owes s (writes.foldl Cluster.apply s)) :
    Pass.Fair ⟨writes, some (op.finish .succeeded message)⟩ s start used := by
  refine ⟨hwrites, fun other hother => ?_, fun other hother _ => ?_⟩
  · exact some.inj hother ▸ h.finish _ _
  · exact some.inj hother ▸ howes

theorem Operation.owes_restore (haction : op.action = .restore snapshotName) {restore : Restore}
    (hrestore : s.restores.lookup op.child = some restore) (howner : restore.owner = op.owner)
    (hsnapshot : restore.snapshotName = snapshotName) (hcomplete : restore.complete = true) :
    op.Owes s t := by
  unfold Operation.Owes
  rw [haction]
  exact ⟨restore, hrestore, howner, hsnapshot, hcomplete⟩

theorem Operation.owes_migration (haction : op.action = .migrate targetNode)
    {migration : Migration} (hmigration : s.migrations.lookup op.child = some migration)
    (howner : migration.owner = op.owner) (hnode : migration.node = targetNode)
    (hphase : migration.phase = succeeded) : op.Owes s t := by
  unfold Operation.Owes
  rw [haction]
  exact ⟨migration, hmigration, howner, hnode, hphase⟩

theorem Operation.owes_clone {run : Bool} (haction : op.action = .clone targetName run)
    {clone : Clone} (hclone : s.clones.lookup op.child = some clone)
    (howner : clone.owner = op.owner) (htarget : clone.target = targetName)
    (hphase : clone.phase = succeeded) : op.Owes s t := by
  unfold Operation.Owes
  rw [haction]
  exact ⟨clone, hclone, howner, htarget, hphase⟩

theorem Operation.owes_rollbackDisk (haction : op.action = .rollbackDisk snapshotName)
    {disk : DataVolume} (hdisk : s.disks.lookup op.replacementDisk = some disk)
    (hmade : op.Made disk) (hphase : disk.phase = succeeded) (hon : ∃ vm, op.On t vm) :
    op.Owes s t := by
  unfold Operation.Owes
  rw [haction]
  exact ⟨⟨disk, hdisk, hmade.madeFor, hmade.filled snapshotName haction, hphase⟩, hon⟩

theorem Operation.owes_recreate (haction : op.action = .recreate)
    (hmade : ∀ disk, s.disks.lookup op.replacementDisk = some disk → disk.madeFor = op.uid)
    (hon : ∃ vm, op.On t vm) : op.Owes s t := by
  unfold Operation.Owes
  rw [haction]
  exact ⟨hmade, hon⟩

theorem Operation.Sound.fair_restore (h : start.Sound s) (hop : op.Follows start used)
    (haction : start.action = .restore snapshotName) :
    (reconcileRestore s op vm snapshotName).Fair s start used := by
  obtain ⟨hname, hnamed⟩ := hop.named (show start.action.suffix = "-restore" by rw [haction]; rfl)
  rw [reconcileRestore]
  split
  · exact (hop.finish _ _).fair
  dsimp only
  rw [hname]
  split
  · exact (hnamed.inProgress _).fair_one (.restore haction hop.request.owner)
  · next restore hrestore =>
    obtain ⟨howner, hsnapshot⟩ := h.owns.restore haction hrestore
    split
    · next hcomplete =>
      have hlast := hnamed.finish .succeeded ("restored " ++ vm.target ++ " from " ++ snapshotName)
      refine hnamed.fair_finish (fun _ => allowed_restoreRunState) (.inr ?_)
      exact Operation.owes_restore (hlast.request.action.trans haction)
        (hlast.request.child ▸ hrestore) (howner.trans hlast.request.owner.symm) hsnapshot hcomplete
    · split
      · exact (hnamed.finish _ _).fair_of fun _ => allowed_restoreRunState
      · exact (hnamed.inProgress _).fair

theorem Operation.Sound.fair_migrate (h : start.Sound s) (hop : op.Follows start used)
    (haction : start.action = .migrate targetNode) (hvm : s.machines.lookup op.vmName = some vm) :
    (reconcileMigrate s op vm targetNode).Fair s start used := by
  obtain ⟨hname, hnamed⟩ := hop.named (show start.action.suffix = "-migration" by rw [haction]; rfl)
  rw [reconcileMigrate]
  split
  · exact (hop.finish _ _).fair
  next node hnode =>
  split
  · next hthere =>
    obtain ⟨hne, rfl⟩ := hthere
    exact hop.fair_finish (fun write hno => by contradiction)
      (.inl ⟨node, vm, hop.request.action.trans haction, hne, hvm, hnode⟩)
  dsimp only
  rw [hname]
  split
  · exact (hnamed.inProgress _).fair_one (.migration haction hop.request.owner)
  · next migration hmigration =>
    obtain ⟨howner, hnode⟩ := h.owns.migration haction hmigration
    split
    · next hphase =>
      have hlast := hnamed.finish .succeeded (vm.target ++ " now runs on " ++ node)
      refine hnamed.fair_finish (fun write hno => by contradiction) (.inr ?_)
      exact Operation.owes_migration (hlast.request.action.trans haction)
        (hlast.request.child ▸ hmigration) (howner.trans hlast.request.owner.symm) hnode hphase
    · split
      · exact (hnamed.finish _ _).fair
      · exact (hnamed.inProgress _).fair

theorem allowed_adoptClone {start' : Bool} (h : write ∈ adoptClone s op vm start') :
    write.Allowed s start used := by
  rw [adoptClone] at h
  split at h
  · contradiction
  · obtain rfl := mem_singleton.mp h
    exact .machine

theorem Operation.Sound.fair_clone (h : start.Sound s) (hop : op.Follows start used) {run : Bool}
    (haction : start.action = .clone targetName run) :
    (reconcileClone s op vm targetName run).Fair s start used := by
  obtain ⟨hname, hnamed⟩ := hop.named (show start.action.suffix = "-clone" by rw [haction]; rfl)
  rw [reconcileClone]
  dsimp only
  rw [hname]
  split
  · exact (hnamed.inProgress _).fair_one (.clone haction hop.request.owner)
  · next clone hclone =>
    obtain ⟨howner, htarget⟩ := h.owns.clone haction hclone
    have htargeted : Operation.Follows
        { op with childName := start.child, targetName := clone.targetName.getD op.targetName }
        start used :=
      ⟨⟨hnamed.request.1, hnamed.request.2, hnamed.request.3, hnamed.request.4⟩, hnamed.child,
        hnamed.disk⟩
    split
    · next hphase =>
      split
      · exact (htargeted.finish _ _).fair
      · have hlast := htargeted.finish .succeeded
          ("cloned " ++ vm.target ++ " to " ++ clone.targetName.getD op.targetName)
        refine htargeted.fair_finish (fun _ => allowed_adoptClone) (.inr ?_)
        exact Operation.owes_clone (hlast.request.action.trans haction)
          (hlast.request.child ▸ hclone) (howner.trans hlast.request.owner.symm) htarget hphase
    · split
      · exact (htargeted.finish _ _).fair
      · exact (htargeted.inProgress _).fair

theorem Cluster.Sound.suits (h : s.Sound) (hclear : ∀ disk, used = some disk → start.Clear s disk)
    {name : String} {kvm' : VirtualMachine} (hkvm : s.vms.lookup name = some kvm)
    (hroot : kvm'.root = kvm.root) (hpointed : kvm'.pointedFor = kvm.pointedFor) :
    s.Suits start used kvm' := by
  constructor
  · intro op hop hne hon
    exact hpointed.trans (h.pointed hop hne hkvm (hroot.symm.trans hon))
  · intro disk hused hon
    exact hpointed.trans ((hclear disk hused).vms name kvm hkvm (hroot.symm.trans hon))

theorem allowed_ensureStopped (vm : ManagedVM) (h : s.Sound)
    (hclear : ∀ disk, used = some disk → start.Clear s disk)
    (hwrite : write ∈ (ensureStopped s vm).1) : write.Allowed s start used := by
  obtain hnil | ⟨kvm, hkvm, hhalts⟩ := ensureStopped_cases s vm
  · rw [hnil] at hwrite
    contradiction
  · rw [hhalts] at hwrite
    obtain rfl := mem_singleton.mp hwrite
    exact .vm (h.suits hclear hkvm rfl rfl)

/-- The replacement is there and filled, or the pass makes it or waits for it. -/
theorem Operation.Follows.fair_restoring (isQuantity : String → Bool)
    (hop : op.Follows start used) (hused : used = some op.replacementDisk)
    (haction : start.action = .rollbackDisk snapshotName) (snapshot : VolumeSnapshot)
    (source : String) :
    (∀ pass, restoring isQuantity s op snapshotName snapshot source = some pass →
        pass.Fair s start used) ∧
      (restoring isQuantity s op snapshotName snapshot source = none →
        ∃ disk, s.disks.lookup op.replacementDisk = some disk ∧ disk.phase = succeeded) := by
  refine restoring_cases ⟨nofun, nofun, nofun⟩ (fun built message _ hbuilt => ?_)
    fun message => (hop.inProgress message).fair
  obtain ⟨hsnapshot, hmadeFor⟩ := snapshot_of_buildReplacementDisk hbuilt
  refine (hop.inProgress _).fair_one ?_
  refine .disk hused ⟨hmadeFor.trans hop.request.uid, fun name hname => ?_⟩
  rw [haction] at hname
  exact hsnapshot.trans (congrArg some (Action.rollbackDisk.inj hname))

theorem Operation.On.finish (h : op.On t vm) (phase : Phase) (message : String) :
    (op.finish phase message).On t vm :=
  ⟨h.machine, h.disk⟩

theorem Operation.On.removes (h : op.On t vm) (p : Prop) [Decidable p] (name : String) :
    op.On ((if p then [Write.removeDisk name] else []).foldl Cluster.apply t) vm := by
  split
  · exact ⟨h.machine, h.disk⟩
  · exact h

theorem Operation.On.describe (h : op.On t vm) (hname : vm'.name = op.vmName)
    (hdisks : vm'.disks = vm.disks) (htarget : vm'.target = vm.target) :
    op.On (t.apply (.machine vm')) vm' := by
  constructor
  · rw [← hname]
    exact AList.lookup_insert _
  · rw [hdisks, htarget]
    exact h.disk

theorem Operation.On.restoreRunState (h : op.On t vm) (hname : vm.name = op.vmName) :
    ∃ vm', op.On ((restoreRunState op vm).foldl Cluster.apply t) vm' := by
  rw [Operations.restoreRunState]
  split
  · exact ⟨vm, h⟩
  · split
    · exact ⟨vm, h⟩
    · exact ⟨_, h.describe hname rfl rfl⟩

theorem allowed_retire {q : Prop} [Decidable p] [Decidable q] {name : String}
    (h : write ∈ (if p then [Write.removeDisk name] else []) ++
      if q then [Write.machine vm] else []) : write.Allowed s start used := by
  obtain hremove | hrecord := mem_append.mp h
  · obtain ⟨-, hremove⟩ := mem_ite_nil_right.mp hremove
    obtain rfl := mem_singleton.mp hremove
    exact .removeDisk
  · obtain ⟨-, hrecord⟩ := mem_ite_nil_right.mp hrecord
    obtain rfl := mem_singleton.mp hrecord
    exact .machine

theorem recorded_same (op : Operation) (vm : ManagedVM) :
    (recorded op vm).name = vm.name ∧ (recorded op vm).disks = vm.disks ∧
      (recorded op vm).target = vm.target := by
  rw [recorded]
  split <;> exact ⟨rfl, rfl, rfl⟩

theorem Operation.On.retire (h : op.On t vm) (hname : vm.name = op.vmName) [Decidable p]
    {name : String} : op.On (((if p then [Write.removeDisk name] else []) ++
      if vm.rootDiskEpoch < epochOf op.replacementDisk then
        [Write.machine
          { vm with
            rootDiskEpoch := epochOf op.replacementDisk
            rootDiskName := op.replacementDisk }]
      else []).foldl Cluster.apply t) (recorded op vm) := by
  rw [foldl_append, recorded]
  have hremoved := h.removes p name
  by_cases hepoch : vm.rootDiskEpoch < epochOf op.replacementDisk
  · rw [if_pos hepoch, if_pos hepoch]
    exact hremoved.describe hname rfl rfl
  · rw [if_neg hepoch, if_neg hepoch]
    exact hremoved

theorem Operation.Follows.fair_move (h : s.Sound) (hlive : s.Live start)
    (hclear : ∀ disk, used = some disk → start.Clear s disk) (hop : op.Follows start used)
    (hused : used = some op.replacementDisk) (hvm : s.machines.lookup op.vmName = some vm)
    (hkvm : s.vms.lookup vm.target = some kvm) {current : String} (hroot : kvm.root = some current)
    (howes : ∀ t message, (∃ vm, op.On t vm) → (op.finish .succeeded message).Owes s t)
    (waiting verb done : String) :
    (moveRootDisk s op vm kvm current waiting verb done).Fair s start used := by
  rw [moveRootDisk]
  split
  · next writes hstopping =>
    refine (hop.inProgress waiting).fair_of fun write hwrite => ?_
    refine allowed_ensureStopped vm h hclear ?_
    rw [hstopping]
    exact hwrite
  rw [pointAtRootDisk]
  by_cases hon : current = op.replacementDisk
  · have hname : vm.name = op.vmName := h.machines _ _ hvm
    have hthere : op.On s vm := by
      refine ⟨hvm, .inr ⟨kvm, hkvm, hroot.trans (congrArg some hon), ?_⟩⟩
      exact ((hclear _ hused).vms _ kvm hkvm (hroot.trans (congrArg some hon))).trans
        hop.request.uid.symm
    rw [if_neg (not_not.mpr hon)]
    refine hop.fair_finish (fun write hwrite => ?_) (.inr (howes _ _ ?_))
    · obtain hwrite | hwrite := mem_append.mp hwrite
      · exact allowed_retire hwrite
      · exact allowed_restoreRunState hwrite
    · rw [foldl_append]
      exact (hthere.retire hname).restoreRunState ((recorded_same op vm).1.trans hname)
  · rw [if_pos hon]
    refine (hop.inProgress _).fair_one ?_
    refine .vm ⟨fun other hother hne hother' => ?_, fun _ _ _ => hop.request.uid⟩
    -- no other operation is on this disk
    have hdisk : op.replacementDisk = other.replacementDisk := some.inj hother'
    have hsame : other.name = start.name := not_not.mp fun hno =>
      (hclear _ hused).others other hother hno hdisk.symm
    obtain rfl := hlive.eq hother hsame
    exact hop.request.uid

theorem mem_of_swapDisk {source target : String} (h : swapDisk vm source target = some vm') :
    vm'.name = vm.name ∧ target ∈ vm'.disks.map DiskAttachment.claim := by
  rw [swapDisk] at h
  obtain ⟨hattached, h⟩ := ite_none_right_eq_some.mp h
  obtain rfl := some.inj h
  refine ⟨rfl, ?_⟩
  obtain ⟨d, hd, hclaim⟩ := mem_map.mp hattached
  refine mem_map.mpr ⟨_, mem_map_of_mem hd, ?_⟩
  rw [if_pos hclaim]

/-- The disk that a pass chooses is the one that it has chosen before, or the one that it can. -/
theorem Operation.Follows.choose (hop : op.Follows start none) (replaced : String)
    {replacement : String} (hsame : op.replacementDisk = start.replacementDisk)
    (hused : start.replacementDisk = "" → used = some replacement)
    (hkept : start.replacementDisk ≠ "" → used = some start.replacementDisk) :
    (op.choose replaced replacement).Follows start used ∧
      used = some (op.choose replaced replacement).replacementDisk := by
  have hchosen : used = some (op.choose replaced replacement).replacementDisk := by
    rw [Operation.choose, hsame]
    split
    · next hunset => exact hused hunset
    · next hset => exact hkept hset
  exact ⟨⟨{ hop.request with }, hop.child, .inr hchosen⟩, hchosen⟩

/-- The disk that is worked on is clear, and what it is. -/
structure Operation.Uses (op start : Operation) (s : Cluster) (vm : ManagedVM)
    (used : Option String) : Prop where
  follows : op.Follows start none
  same : op.replacementDisk = start.replacementDisk
  machine : s.machines.lookup op.vmName = some vm
  chosen : start.replacementDisk = "" → used = start.choice s vm
  kept : start.replacementDisk ≠ "" → used = some start.replacementDisk
  clear : ∀ disk, used = some disk → start.Clear s disk

theorem Operation.Uses.weak (h : op.Uses start s vm used) : op.Follows start used :=
  ⟨h.follows.request, h.follows.child, .inl h.same⟩

theorem VirtualMachine.root_of {current : String} {rest : List String}
    (h : kvm.dataVolumeTemplates = current :: rest) : kvm.root = some current := by
  rw [VirtualMachine.root, h]
  rfl

theorem Operation.Uses.fair_recreate (h : s.Sound) (hlive : s.Live start)
    (hop : op.Uses start s vm used) (haction : start.action = .recreate) :
    (reconcileRecreate s op vm).Fair s start used := by
  rw [reconcileRecreate]
  split
  · exact (hop.weak.finish _ _).fair
  next kvm hkvm =>
  split
  · exact (hop.weak.finish _ _).fair
  next current rest htemplates =>
  have hroot := VirtualMachine.root_of htemplates
  have hchoice : start.choice s vm = some (nextRootDiskName vm.name current) := by
    rw [Operation.choice, haction]
    dsimp only
    rw [Cluster.nextRoot, hkvm, bind_some, hroot, map_some]
  obtain ⟨hchosen, hused⟩ := hop.follows.choose current hop.same
    (fun hunset => (hop.chosen hunset).trans hchoice) hop.kept
  refine hchosen.fair_move h hlive hop.clear hused hop.machine hkvm hroot ?_ _ _ _
  intro t message hon
  obtain ⟨found, hon⟩ := hon
  refine Operation.owes_recreate (hop.follows.request.action.trans haction) ?_
    ⟨found, hon.finish _ _⟩
  intro disk hdisk
  exact ((hop.clear _ hused).disk disk hdisk).madeFor.trans hop.follows.request.uid.symm

theorem Operation.Uses.fair_rollbackRootDisk (isQuantity : String → Bool) (h : s.Sound)
    (hlive : s.Live start) (hop : op.Uses start s vm used)
    (haction : start.action = .rollbackDisk snapshotName) {snapshot : VolumeSnapshot}
    (hsnapshot : s.snapshots.lookup snapshotName = some snapshot)
    (hdetached : snapshot.source ∉ vm.disks.map DiskAttachment.claim) :
    (rollbackRootDisk isQuantity s op vm snapshotName snapshot snapshot.source).Fair
      s start used := by
  rw [rollbackRootDisk]
  split
  · exact (hop.weak.finish _ _).fair
  next kvm hkvm =>
  split
  · exact (hop.weak.finish _ _).fair
  next current rest htemplates =>
  have hroot := VirtualMachine.root_of htemplates
  have hchoice : start.choice s vm = some (nextRootDiskName vm.name current) := by
    rw [Operation.choice, haction]
    dsimp only
    rw [hsnapshot, bind_some, if_neg hdetached, Cluster.nextRoot, hkvm, bind_some, hroot, map_some]
  obtain ⟨hchosen, hused⟩ := hop.follows.choose current hop.same
    (fun hunset => (hop.chosen hunset).trans hchoice) hop.kept
  obtain ⟨hwaits, hthere⟩ :=
    hchosen.fair_restoring isQuantity hused haction snapshot snapshot.source
  dsimp only
  split
  · next pass hpass => exact hwaits pass hpass
  · next hnone =>
    obtain ⟨disk, hdisk, hfilled⟩ := hthere hnone
    refine hchosen.fair_move h hlive hop.clear hused hop.machine hkvm hroot ?_ _ _ _
    intro t message hon
    obtain ⟨found, hon⟩ := hon
    have hmade := (hop.clear _ hused).disk disk hdisk
    exact Operation.owes_rollbackDisk (hop.follows.request.action.trans haction) hdisk
      ⟨hmade.madeFor.trans hop.follows.request.uid.symm, fun name hname =>
        hmade.filled name (hop.follows.request.action.symm.trans hname)⟩ hfilled
      ⟨found, hon.finish _ _⟩

theorem Operation.Uses.fair_rollbackDisk (isQuantity : String → Bool) (h : s.Sound)
    (hlive : s.Live start) (hop : op.Uses start s vm used)
    (haction : start.action = .rollbackDisk snapshotName) :
    (reconcileRollbackDisk isQuantity s op vm snapshotName).Fair s start used := by
  rw [reconcileRollbackDisk]
  split
  · exact (hop.weak.finish _ _).fair
  next snapshot hsnapshot =>
  dsimp only
  split
  · exact (hop.weak.inProgress _).fair
  split
  · exact (hop.weak.finish _ _).fair
  split
  · next hdetached =>
    split
    · exact hop.fair_rollbackRootDisk isQuantity h hlive haction hsnapshot hdetached
    · exact (hop.weak.finish _ _).fair
  next hattached =>
  rw [not_not] at hattached
  have hchoice : start.choice s vm = some (rollbackName op snapshot.source) := by
    rw [Operation.choice, haction]
    dsimp only
    rw [hsnapshot, bind_some, if_pos hattached, rollbackName, rollbackName,
      hop.follows.request.name]
  obtain ⟨hchosen, hused⟩ := hop.follows.choose snapshot.source hop.same
    (fun hunset => (hop.chosen hunset).trans hchoice) hop.kept
  obtain ⟨hwaits, hthere⟩ :=
    hchosen.fair_restoring isQuantity hused haction snapshot snapshot.source
  split
  · next pass hpass => exact hwaits pass hpass
  next hnone =>
  obtain ⟨disk, hdisk, hfilled⟩ := hthere hnone
  split
  · next writes hstopping =>
    refine (hchosen.inProgress
      "waiting for the machine to stop before swapping the disk").fair_of
      fun write hwrite => ?_
    refine allowed_ensureStopped vm h hop.clear ?_
    rw [hstopping]
    exact hwrite
  split
  · exact ⟨fun write hno => by contradiction, fun op hno => by contradiction,
      fun op hno => by contradiction⟩
  next vm' hswap =>
  have hname : vm.name = op.vmName := h.machines _ _ hop.machine
  refine hchosen.fair_finish (fun write hwrite => ?_) (.inr ?_)
  · obtain hwrite | hwrite := mem_append.mp hwrite
    · obtain rfl | hwrite := mem_cons.mp hwrite
      · exact .machine
      · obtain ⟨-, hwrite⟩ := mem_ite_nil_right.mp hwrite
        obtain rfl := mem_singleton.mp hwrite
        exact .removeDisk
    · exact allowed_restoreRunState hwrite
  · have hmade := (hop.clear _ hused).disk disk hdisk
    refine Operation.owes_rollbackDisk (hop.follows.request.action.trans haction) hdisk
      ⟨hmade.madeFor.trans hop.follows.request.uid.symm, fun name hname =>
        hmade.filled name (hop.follows.request.action.symm.trans hname)⟩ hfilled ?_
    obtain ⟨hname', hlisted⟩ := mem_of_swapDisk hswap
    have hon : Operation.On (op.choose snapshot.source (rollbackName op snapshot.source))
        (s.apply (.machine vm')) vm' := by
      refine ⟨?_, .inl hlisted⟩
      rw [show (op.choose snapshot.source (rollbackName op snapshot.source)).vmName = vm'.name from
        (hname'.trans hname).symm]
      exact AList.lookup_insert _
    have hremoved := hon.removes
      ((op.choose snapshot.source (rollbackName op snapshot.source)).replacedDisk ∈ s.disks)
      (op.choose snapshot.source (rollbackName op snapshot.source)).replacedDisk
    obtain ⟨found, hfound⟩ := hremoved.restoreRunState (hname'.trans hname)
    rw [foldl_append, foldl_cons]
    exact ⟨found, hfound.finish _ _⟩

theorem Operation.Uses.fair (isQuantity : String → Bool) (h : s.Sound)
    (hlive : s.Live start) (hop : op.Uses start s vm used) :
    (op.act isQuantity s vm).Fair s start used := by
  have hsound := h.live start hlive
  have haction := hop.follows.request.action
  unfold Operation.act
  split
  · next hrestore => exact hsound.fair_restore hop.weak (haction.symm.trans hrestore)
  · next hmigrate => exact hsound.fair_migrate hop.weak (haction.symm.trans hmigrate) hop.machine
  · next hrollback =>
    exact hop.fair_rollbackDisk isQuantity h hlive (haction.symm.trans hrollback)
  · next hrecreate => exact hop.fair_recreate h hlive (haction.symm.trans hrecreate)
  · next hclone => exact hsound.fair_clone hop.weak (haction.symm.trans hclone)
  · exact (hop.weak.finish _ _).fair

theorem operations_of_not_status (h : ∀ op, Write.status op ∉ writes) :
    (writes.foldl Cluster.apply t).operations = t.operations := by
  induction writes generalizing t with
  | nil => rfl
  | cons write writes ih =>
    have hsame : (t.apply write).operations = t.operations := by
      cases write with
      | status op => exact absurd mem_cons_self (h op)
      | _ => rfl
    exact (ih fun op hop => h op (mem_cons_of_mem _ hop)).trans hsame

theorem operations_of_allowed (h : ∀ write ∈ writes, write.Allowed s start used) :
    (writes.foldl Cluster.apply t).operations = t.operations :=
  operations_of_not_status fun op hop => by cases h (.status op) hop

theorem Operation.Owes.status (h : op.Owes s t) (other : Operation) :
    op.Owes s (t.apply (.status other)) := by
  have hon : ∀ {vm}, op.On t vm → op.On (t.apply (.status other)) vm :=
    fun h => ⟨h.machine, h.disk⟩
  unfold Operation.Owes at h ⊢
  split at h
  · exact h
  · exact h
  · exact h
  · exact ⟨h.1, h.2.imp fun _ => hon⟩
  · exact ⟨h.1, h.2.imp fun _ => hon⟩
  · exact h

theorem Pass.Fair.outcome {pass : Pass} (h : pass.Fair s start used) (n : Nat) :
    ((pass.calls.take n).foldl Cluster.apply s).operations = s.operations ∨
      ∃ op, op.Follows start used ∧
        ((pass.calls.take n).foldl Cluster.apply s).operations = s.operations.insert op.name op ∧
        (op.phase = .succeeded →
          op.AlreadyThere s ∨ op.Owes s ((pass.calls.take n).foldl Cluster.apply s)) := by
  rw [Pass.calls, take_append]
  have hunsaved : ((pass.writes.take n).foldl Cluster.apply s).operations = s.operations :=
    operations_of_allowed fun write hwrite => h.writes write (mem_of_mem_take hwrite)
  cases hstatus : pass.status with
  | none =>
    rw [toList_none, map_nil, take_nil, append_nil]
    exact .inl hunsaved
  | some op =>
    by_cases hn : n ≤ pass.writes.length
    · rw [Nat.sub_eq_zero_of_le hn, take_zero, append_nil]
      exact .inl hunsaved
    · have hall : (pass.writes.take n) = pass.writes := take_of_length_le (by omega)
      have hone : 1 ≤ n - pass.writes.length := by omega
      rw [hall] at hunsaved ⊢
      rw [toList_some, map_singleton, take_of_length_le hone, foldl_append]
      refine .inr ⟨op, h.status op hstatus, ?_, fun hdone => ?_⟩
      · exact congrArg (fun operations => AList.insert op.name op operations) hunsaved
      · exact (h.owes op hstatus hdone).imp_right fun howes => howes.status op

theorem Cluster.Sound.fair (isQuantity : String → Bool) (h : s.Sound) (hlive : s.Live start)
    {cut : Option Nat} (hapart : s.Apart (.pass start.name cut)) :
    ∃ (pass : Pass) (used : Option String), reconcile isQuantity s start = pass.calls ∧
      pass.Fair s start used ∧ ∀ disk, used = some disk → start.Clear s disk := by
  have hsound := h.live start hlive
  rw [reconcile, if_neg hlive.unfinished]
  split
  · have hpending : Operation.Follows { start with
          phase := .pending
          message := "ManagedVM " ++ start.vmName ++ " does not exist yet" } start none :=
      ⟨⟨rfl, rfl, rfl, rfl⟩, hsound.child, .inl rfl⟩
    exact ⟨_, none, rfl, hpending.fair, fun disk hno => by contradiction⟩
  · next vm hvm =>
    have hclear : ∀ disk, start.used s vm = some disk → start.Clear s disk := by
      intro disk hdisk
      rw [Operation.used] at hdisk
      split at hdisk
      · next hunset => exact hapart start vm disk hlive.lookup hlive.unfinished hunset hvm hdisk
      · next hset => exact some.inj hdisk ▸ hsound.clear hset
    have huses : (start.begin vm).Uses start s vm (start.used s vm) :=
      ⟨hsound.begin none vm, rfl, hvm, fun hunset => if_pos hunset, fun hset => if_neg hset, hclear⟩
    exact ⟨_, _, rfl, huses.fair isQuantity h hlive, hclear⟩

end Fair

section Run

variable {s s₀ s₁ t : Cluster} {name : String} {cut : Option Nat}

/-- A run in which no name is used twice. -/
abbrev Story (isQuantity : String → Bool) : Cluster → Cluster → Prop :=
  Machine.Run (Cluster.happen isQuantity) Cluster.Apart

theorem Cluster.Sound.pass (h : s.Sound) (hapart : s.Apart (.pass name cut))
    (hstep : s.happen isQuantity (.pass name cut) = some t) :
    t.Sound ∧ ∀ op op', s.operations.lookup name = some op → op.phase ≠ .succeeded →
      t.operations.lookup name = some op' → op'.phase = .succeeded →
      op'.Continues op ∧ (op'.AlreadyThere s ∨ op'.Owes s t) := by
  have hkept : t.operations = s.operations → ∀ op op', s.operations.lookup name = some op →
      op.phase ≠ .succeeded → t.operations.lookup name = some op' → op'.phase = .succeeded →
      op'.Continues op ∧ (op'.AlreadyThere s ∨ op'.Owes s t) := by
    intro hops op op' hop hphase hop' hdone
    obtain rfl := mem_unique hop (hops ▸ hop')
    exact absurd hdone hphase
  obtain ⟨start, hstart, hpass⟩ := map_eq_some_iff.mp hstep
  obtain rfl := h.names name start hstart
  by_cases hfinished : start.Finished
  · rw [pass_finished hfinished] at hpass
    exact ⟨hpass ▸ h, hkept (hpass ▸ rfl)⟩
  have hlive : s.Live start := ⟨hstart, hfinished⟩
  obtain ⟨pass, used, hcalls, hfair, hclear⟩ := h.fair isQuantity hlive hapart
  rw [Cluster.pass, hcalls] at hpass
  generalize cut.getD pass.calls.length = n at hpass
  have hsound := h.calls hlive hclear hfair.writes hfair.status n
  have houtcome := hfair.outcome n
  rw [hpass] at hsound houtcome
  refine ⟨hsound, ?_⟩
  obtain hops | ⟨last, hfollows, hops, howes⟩ := houtcome
  · exact hkept hops
  · intro op op' hop _ hop' hdone
    rw [hops, hfollows.request.name, AList.lookup_insert] at hop'
    obtain rfl := some.inj hop'
    obtain rfl := mem_unique hstart hop
    exact ⟨hfollows.request, howes hdone⟩

theorem Cluster.Sound.run (h : s.Sound) (hrun : Story isQuantity s t) : t.Sound := by
  refine hrun.invariant h fun {s u e} hs hapart hstep => ?_
  cases e with
  | pass name cut => exact (hs.pass hapart hstep).1
  | _ => exact hs.happen hapart (fun _ _ => Happening.noConfusion) hstep

theorem Cluster.sound_empty : Cluster.Sound {} := by
  refine ⟨fun name op hno => by contradiction, fun name vm hno => by contradiction, ?_⟩
  intro op hop
  have hno := hop.lookup
  contradiction

/-- In a run in which no name is used twice, all that has an operation's name is its own. -/
theorem own_always (h : Story isQuantity {} s) : s.Sound := Cluster.sound_empty.run h

/-- In a run in which no name is used twice, an operation is submitted, and later a pass ends it.
Then what it has found was made for the operation, and so after it was submitted; or the machine
was on the node that it is to be migrated to. -/
theorem succeeded_owes {uid vmName : String} {action : Action} {op op' : Operation}
    (hbefore : Story isQuantity {} s₀) (hnew : s₀.Apart (.submit name uid vmName action))
    (hsubmit : s₀.happen isQuantity (.submit name uid vmName action) = some s₁)
    (hafter : Story isQuantity s₁ s) (hop : s.operations.lookup name = some op)
    (huid : op.uid = uid) (hphase : op.phase ≠ .succeeded) (hapart : s.Apart (.pass name cut))
    (hpass : s.happen isQuantity (.pass name cut) = some t)
    (hop' : t.operations.lookup name = some op') (hdone : op'.phase = .succeeded) :
    s₀.Unknown op'.uid ∧ op'.Continues op ∧ (op'.AlreadyThere s ∨ op'.Owes s t) := by
  have hsound : s.Sound := by
    have hsubmitted : s₁.Sound :=
      (Cluster.sound_empty.run hbefore).happen hnew (fun _ _ => Happening.noConfusion) hsubmit
    exact hsubmitted.run hafter
  obtain ⟨hsame, howes⟩ := (hsound.pass hapart hpass).2 op op' hop hphase hop' hdone
  obtain ⟨hguard, -⟩ := ite_none_left_eq_some.mp hsubmit
  refine ⟨?_, hsame, howes⟩
  rw [hsame.uid, huid]
  exact not_not.mp (not_or.mp hguard).2

end Run

/-- Nothing has the name, and no operation has chosen it. -/
def Cluster.Unused (s : Cluster) (disk : String) : Prop :=
  s.disks.lookup disk = none ∧ (∀ e ∈ s.vms.entries, e.2.root ≠ some disk) ∧
    ∀ e ∈ s.operations.entries, e.2.replacementDisk ≠ disk

instance (s : Cluster) (disk : String) : Decidable (s.Unused disk) :=
  inferInstanceAs (Decidable (_ ∧ _))

/-- Operations get new names for what they make, where no child is left of an earlier one; others
make disks and snapshots, and change no `VirtualMachine`. -/
def Cluster.Names (s : Cluster) : Happening → Prop
  | .submit name _ _ action => name ++ action.suffix ∉ s.children action
  | .pass name _ => ∀ op ∈ s.operations.lookup name, op.replacementDisk = "" →
      ∀ vm ∈ s.machines.lookup op.vmName, ∀ disk ∈ op.choice s vm, s.Unused disk
  | .disk name _ => s.Unused name
  | .machine _ | .vmSnapshots _ | .snapshot _ _ | .restoring _ _ _ => True
  | _ => False

instance (s : Cluster) : DecidablePred s.Names := fun e => by
  unfold Cluster.Names
  split <;> infer_instance

theorem Cluster.Unused.unheld {s : Cluster} {disk : String} (h : s.Unused disk) :
    ¬ s.Held disk := by
  rintro ⟨-, op, hlive, hdisk⟩
  exact h.2.2 _ (AList.mem_lookup_iff.mp hlive.lookup) hdisk

theorem Cluster.Unused.clear {s : Cluster} {disk : String} (h : s.Unused disk) (op : Operation) :
    op.Clear s disk where
  disk := fun found hfound => by
    rw [h.1] at hfound
    contradiction
  vms := fun vmName kvm hkvm hroot => absurd hroot (h.2.1 _ (AList.mem_lookup_iff.mp hkvm))
  others := fun other hother _ => h.2.2 _ (AList.mem_lookup_iff.mp hother.lookup)

theorem apart_of_names {s : Cluster} {e : Happening} (h : s.Names e) : s.Apart e := by
  cases e with
  | submit name uid vmName action => exact h
  | pass name cut =>
    exact fun op vm disk hop _ hunset hvm hchoice => (h op hop hunset vm hvm disk hchoice).clear op
  | disk name disk => exact h.unheld
  | machine | vmSnapshots | snapshot | restoring => trivial
  | _ => exact h.elim

/-- There is a snapshot of a machine that is down. -/
def Cluster.snapped : Cluster where
  machines := AList.insert "web" { name := "web", running := false } ∅
  vmSnapshots := ["snap"]

def putBack (uid : String) : Operation where
  name := "put-back"
  uid := uid
  vmName := "web"
  action := .restore "snap"

/-- The machine is to be put back. -/
def Cluster.asked : Cluster :=
  { Cluster.snapped with operations := AList.insert "put-back" (putBack "uid-1") ∅ }

theorem story_snapped : Story (fun _ => true) {} Cluster.snapped :=
  .step (i := .vmSnapshots ["snap"])
    (.step (i := .machine { name := "web", running := false }) .refl trivial rfl) trivial rfl

theorem submit_snapped : Cluster.snapped.happen (fun _ => true)
    (.submit "put-back" "uid-1" "web" (.restore "snap")) = some Cluster.asked := by
  have hnew : ¬ ("put-back" ∈ Cluster.snapped.operations ∨
      ¬ Cluster.snapped.Unknown "uid-1") := by decide +kernel
  rw [Cluster.happen, if_neg hnew]
  rfl

theorem story_asked : Story (fun _ => true) {} Cluster.asked :=
  .step story_snapped (by exact not_mem_nil) submit_snapped

/-- A machine that is down is put back, and at the same time its disk is rolled back. -/
def rollingBack : List Happening :=
  [.machine { name := "web", disks := [⟨"data", "", ""⟩], running := false },
    .disk "data" { storageClass := "fast", size := "10Gi" },
    .snapshot "nightly" ⟨true, "data", "10Gi"⟩, .vmSnapshots ["snap"],
    .submit "put-back" "uid-1" "web" (.restore "snap"),
    .submit "roll-back" "uid-2" "web" (.rollbackDisk "nightly"),
    .pass "put-back" none, .pass "roll-back" none]

/-- The restore and the replacement disk are there. -/
theorem own_always_rollingBack : ∃ s : Cluster,
    (s.restores.lookup "put-back-restore").any (fun restore => restore.owner.uid = "uid-1") = true ∧
    (s.operations.lookup "roll-back").any (fun op =>
      (s.disks.lookup op.replacementDisk).any fun disk => disk.madeFor = "uid-2") = true ∧
    s.Sound := by
  have hplay : (Machine.play (Cluster.happen fun _ => true) Cluster.Names {}
      rollingBack).any (fun s =>
        (s.restores.lookup "put-back-restore").any (fun restore => restore.owner.uid = "uid-1") ∧
        (s.operations.lookup "roll-back").any fun op =>
          (s.disks.lookup op.replacementDisk).any fun disk => disk.madeFor = "uid-2") = true := by
    decide +kernel
  obtain ⟨s, hrun, hs⟩ := Machine.exists_run_of_play _ hplay
  obtain ⟨hrestore, hdisk⟩ := of_decide_eq_true hs
  exact ⟨s, hrestore, hdisk, own_always (hrun.mono fun _ _ => apart_of_names)⟩

/-- In two passes. -/
theorem succeeded_owes_web : ∃ (s t : Cluster) (op' : Operation),
    t.operations.lookup "put-back" = some op' ∧ Cluster.snapped.Unknown op'.uid ∧ op'.Owes s t := by
  have hplay : (Machine.play (Cluster.happen fun _ => true) Cluster.Names
      Cluster.asked [.pass "put-back" none, .restoring "put-back-restore" true none]).any (fun s =>
        s.Names (.pass "put-back" none) ∧
        (s.operations.lookup "put-back").any (fun op => op.uid = "uid-1" ∧ op.phase ≠ .succeeded ∧
          op.action = .restore "snap") ∧
        (s.happen (fun _ => true) (.pass "put-back" none)).any fun t =>
          (t.operations.lookup "put-back").any fun op => op.phase = .succeeded) = true := by
    decide +kernel
  obtain ⟨s, hrun, hs⟩ := Machine.exists_run_of_play _ hplay
  obtain ⟨hputs, hop, hpass⟩ := of_decide_eq_true hs
  obtain ⟨op, hop, hgoes⟩ := (any_eq_true _ _).mp hop
  obtain ⟨huid, hphase, haction⟩ := of_decide_eq_true hgoes
  obtain ⟨t, hpass, ht⟩ := (any_eq_true _ _).mp hpass
  obtain ⟨op', hop', hdone⟩ := (any_eq_true _ _).mp ht
  obtain ⟨hnew, hsame, howes⟩ := succeeded_owes story_snapped
    (apart_of_names (by decide +kernel)) submit_snapped
    (hrun.mono fun u e => apart_of_names) hop huid hphase (apart_of_names hputs) hpass hop'
    (of_decide_eq_true hdone)
  refine ⟨s, t, op', hop', hnew, howes.resolve_left ?_⟩
  rintro ⟨targetNode, vm, hmigrate, -⟩
  rw [hsame.action, haction] at hmigrate
  contradiction

/-- A machine that runs where it is to be migrated to: it is migrated without a migration. -/
theorem not_succeeded_owes :
    ¬ ∀ (isQuantity : String → Bool) (s₀ s₁ s t : Cluster) (name uid vmName : String)
        (action : Action) (cut : Option Nat) (op op' : Operation),
      Machine.Run (Cluster.happen isQuantity) (fun _ _ => True) {} s₀ →
      s₀.happen isQuantity (.submit name uid vmName action) = some s₁ →
      Machine.Run (Cluster.happen isQuantity) (fun _ _ => True) s₁ s →
      s.operations.lookup name = some op → op.uid = uid → op.phase ≠ .succeeded →
      s.happen isQuantity (.pass name cut) = some t → t.operations.lookup name = some op' →
      op'.phase = .succeeded → op'.Owes s t := by
  intro hall
  have hplay : (Machine.play (Cluster.happen fun _ => true) (fun _ _ => True) {}
      [.machine { name := "web", running := true }, .vm "web" ⟨none, [], [], ""⟩,
        .change (.start "web" "node-1")]).any (fun s₀ =>
        (s₀.happen (fun _ => true) (.submit "move" "uid-1" "web" (.migrate "node-1"))).any fun s =>
          (s.operations.lookup "move").any (fun op => op.uid = "uid-1" ∧ op.phase ≠ .succeeded) ∧
          (s.happen (fun _ => true) (.pass "move" none)).any fun t =>
            (t.operations.lookup "move").any fun op => op.phase = .succeeded ∧
              op.action = .migrate "node-1" ∧ (s.migrations.lookup op.child).isNone) = true := by
    decide +kernel
  obtain ⟨s₀, hrun, hs₀⟩ := Machine.exists_run_of_play _ hplay
  obtain ⟨s, hsubmit, hs⟩ := (any_eq_true _ _).mp hs₀
  obtain ⟨hop, hpass⟩ := of_decide_eq_true hs
  obtain ⟨op, hop, hgoes⟩ := (any_eq_true _ _).mp hop
  obtain ⟨huid, hphase⟩ := of_decide_eq_true hgoes
  obtain ⟨t, hpass, ht⟩ := (any_eq_true _ _).mp hpass
  obtain ⟨op', hop', hends⟩ := (any_eq_true _ _).mp ht
  obtain ⟨hdone, haction, hnone⟩ := of_decide_eq_true hends
  have howes := hall (fun _ => true) s₀ s s t "move" "uid-1" "web" (.migrate "node-1") none op op'
    hrun hsubmit .refl hop huid hphase hpass hop' hdone
  unfold Operation.Owes at howes
  rw [haction] at howes
  obtain ⟨migration, hmigration, -⟩ := howes
  rw [hmigration] at hnone
  contradiction

end Operations
