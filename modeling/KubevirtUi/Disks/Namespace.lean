import KubevirtUi.Disks.Converge
import KubevirtUi.Library.Machine

/-!
# The machines of a namespace

Passes over machines come one after the other: each reads its machine once, and can be stopped
after any of its calls. Between them machines are declared, edited and deleted, and others plug
volumes in and out.

A machine whose `VirtualMachine` belongs to another is left alone, unless it adopts it.
-/

namespace Disks

structure ManagedVM where
  holder : Holder
  disks : List DiskAttachment
  attached : List String := []
  adopts : Bool := false
  rootDisk : String
  deleting : Bool := false

/-- A machine that runs, with the UID in its owner label. -/
structure Owned where
  owner : String
  vm : VirtualMachine

structure Namespace where
  disks : DataVolumes
  machines : AList fun _ : String => ManagedVM
  vms : AList fun _ : String => Owned
  uids : List String

/-- Where a pass ends: after so many claims, before the machine is changed, after so many
releases, before its status is saved, or when it is done. -/
inductive Outcome where
  | claiming (n : Nat)
  | updating
  | releasing (n : Nat)
  | recording
  | done
  deriving DecidableEq

/-- What is rendered where there is no machine yet: its own disk, and what cloud-init reads. -/
def createVM (rootDisk : String) : VirtualMachine where
  volumes := [⟨"rootdisk", .dataVolume rootDisk false⟩, ⟨"cloudinit", .other "cloudInitNoCloud"⟩]
  disks := [⟨"rootdisk", .disk "virtio"⟩, ⟨"cloudinit", .disk "virtio"⟩]

/-- A pass attaches the disks of a machine that is there. -/
def Namespace.sync (s : Namespace) (m : ManagedVM) (vm : VirtualMachine) (it : Iteration)
    (outcome : Outcome) : Namespace :=
  let claiming := toClaim it m.disks vm
  let synced := syncDisks it m.holder m.disks m.attached vm s.disks
  match outcome with
  | .claiming n =>
    { s with
      vms := s.vms.insert m.holder.name ⟨m.holder.uid, vm⟩
      disks := (claimEach m.holder s.disks (claiming.take n)).disks }
  | .updating =>
    { s with
      vms := s.vms.insert m.holder.name ⟨m.holder.uid, vm⟩
      disks := (claimEach m.holder s.disks claiming).disks }
  | .releasing n =>
    { s with
      vms := s.vms.insert m.holder.name ⟨m.holder.uid, synced.vm⟩
      disks := ((toRelease it m.disks m.attached).take n).foldl (release m.holder)
        (claimEach m.holder s.disks claiming).disks }
  | .recording =>
    { s with
      vms := s.vms.insert m.holder.name ⟨m.holder.uid, synced.vm⟩
      disks := synced.disks }
  | .done =>
    { s with
      vms := s.vms.insert m.holder.name ⟨m.holder.uid, synced.vm⟩
      disks := synced.disks
      machines := s.machines.insert m.holder.name { m with attached := synced.attached } }

/-- The disks that a machine which is deleted may hold. -/
def ManagedVM.seen (m : ManagedVM) : List String :=
  (m.disks.map DiskAttachment.claim ++ m.attached).dedup

/-- A pass over a machine that is being deleted. -/
def Namespace.delete (s : Namespace) (m : ManagedVM) (it : Iteration) (outcome : Outcome) :
    Namespace :=
  let vms := if (s.vms.lookup m.holder.name).any (·.owner = m.holder.uid) then
    s.vms.erase m.holder.name else s.vms
  match outcome with
  | .claiming _ | .updating => { s with vms }
  | .releasing n =>
    { s with
      vms
      disks := ((it.order m.seen).take n).foldl (release m.holder) s.disks }
  | .recording => { s with vms, disks := (it.order m.seen).foldl (release m.holder) s.disks }
  | .done =>
    { s with
      vms
      disks := (it.order m.seen).foldl (release m.holder) s.disks
      machines := s.machines.erase m.holder.name }

def Namespace.reconcile (s : Namespace) (m : ManagedVM) (it : Iteration) (outcome : Outcome) :
    Namespace :=
  if m.deleting then s.delete m it outcome
  else match s.vms.lookup m.holder.name with
    | none => { s with vms := s.vms.insert m.holder.name ⟨m.holder.uid, createVM m.rootDisk⟩ }
    | some found =>
      if found.owner ≠ m.holder.uid ∧ m.adopts = false then s else s.sync m found.vm it outcome

inductive Event where
  | declare (m : ManagedVM)
  | edit (name : String) (disks : List DiskAttachment) (adopts : Bool)
  | delete (name : String)
  | pass (name : String) (it : Iteration) (outcome : Outcome)
  | rewire (name : String) (vm : VirtualMachine)
  | appear (name : String) (found : Owned)
  | vanish (name : String)

def Namespace.step (s : Namespace) : Event → Option Namespace
  | .declare m =>
    if m.holder.name ∉ s.machines ∧ m.holder.uid ∉ s.uids ∧ m.attached = [] ∧
        m.deleting = false then
      some { s with
        machines := s.machines.insert m.holder.name m
        uids := m.holder.uid :: s.uids }
    else none
  | .edit name disks adopts =>
    (s.machines.lookup name).map fun m =>
      { s with machines := s.machines.insert name { m with disks, adopts } }
  | .delete name =>
    (s.machines.lookup name).map fun m =>
      { s with machines := s.machines.insert name { m with deleting := true } }
  | .pass name it outcome => (s.machines.lookup name).map (s.reconcile · it outcome)
  | .rewire name vm =>
    (s.vms.lookup name).map fun found => { s with vms := s.vms.insert name { found with vm } }
  | .appear name found =>
    -- a label can be copied from a machine that there was
    if name ∉ s.vms ∧ (found.owner = "" ∨ found.owner ∈ s.uids) then
      some { s with vms := s.vms.insert name found }
    else none
  | .vanish name => some { s with vms := s.vms.erase name }

/-- The disk carries the name and the UID of the machine. -/
def HeldIn (disks : DataVolumes) (claim : String) (holder : Holder) : Prop :=
  ∃ labels, disks.lookup claim = some labels ∧ HeldBy labels holder.name holder.uid

/-- The machine declares the claim, and it is mounted under the name it is declared with. -/
def VirtualMachine.MountsDeclared (vm : VirtualMachine) (spec : List DiskAttachment)
    (claim : String) : Prop :=
  ∃ d ∈ spec, d.claim = claim ∧ ∃ v ∈ vm.volumes, v.name = volumeNameOf d ∧ v.Mounts claim

/-- The machine's own `VirtualMachine` mounts the disk because it is declared. -/
def Namespace.Mounts (s : Namespace) (m : ManagedVM) (claim : String) : Prop :=
  claim ∈ s.disks ∧ ∃ found, s.vms.lookup m.holder.name = some found ∧
    found.owner = m.holder.uid ∧ found.vm.MountsDeclared m.disks claim

/-- Nobody declares the disk, and nobody mounts it. -/
structure Namespace.Unused (s : Namespace) (claim : String) : Prop where
  undeclared : ∀ name m, s.machines.lookup name = some m →
    claim ∉ m.disks.map DiskAttachment.claim
  unmounted : ∀ name found, s.vms.lookup name = some found → ∀ v ∈ found.vm.volumes,
    ¬ v.Mounts claim

/-- What a machine mounts because it is declared is its own, and a disk that is not used is not
held. -/
structure Agree (s : Namespace) : Prop where
  held : ∀ name m, s.machines.lookup name = some m → ∀ claim, s.Mounts m claim →
    HeldIn s.disks claim m.holder
  free : ∀ claim labels, s.disks.lookup claim = some labels → s.Unused claim →
    labels.get attachedToLabel = ""
  once : ∀ name₁ m₁ name₂ m₂ claim, s.machines.lookup name₁ = some m₁ →
    s.machines.lookup name₂ = some m₂ → s.Mounts m₁ claim → s.Mounts m₂ claim → name₁ = name₂

/-- A namespace without machines. -/
structure Fresh (s : Namespace) : Prop where
  machines : s.machines = ∅
  vms : s.vms = ∅
  uids : s.uids = []
  disks : ∀ claim labels, s.disks.lookup claim = some labels → labels.get attachedToLabel = ""

/-- Every volume is named like its claim. -/
def Plain (spec : List DiskAttachment) : Prop := ∀ d ∈ spec, volumeNameOf d = d.claim

/-- What the lists mount and a machine declares is held by it. -/
def Namespace.Sound (s : Namespace) (holder : Holder) (spec : List DiskAttachment)
    (vm : VirtualMachine) : Prop :=
  ∀ claim ∈ s.disks, vm.MountsDeclared spec claim → HeldIn s.disks claim holder

/-- What holds of a step and the state before it where labels and mounts agree. -/
def Clean (s : Namespace) : Event → Prop
  | .declare m => Plain m.disks
  | .edit name disks _ => Plain disks ∧ ∀ m, s.machines.lookup name = some m →
      -- what is dropped is on record, and what is added is not mounted already by itself
      (∀ claim, HeldIn s.disks claim m.holder →
        claim ∈ disks.map DiskAttachment.claim ∨ claim ∈ m.attached) ∧
      ∀ found, s.vms.lookup name = some found → found.owner = m.holder.uid →
        s.Sound m.holder disks found.vm
  | .pass name _ _ => ∀ m, s.machines.lookup name = some m → m.deleting = false →
      (s.vms.lookup name = none → s.Sound m.holder m.disks (createVM m.rootDisk)) ∧
      ∀ found, s.vms.lookup name = some found → found.owner ≠ m.holder.uid → m.adopts = true →
        s.Sound m.holder m.disks found.vm
  | .rewire name vm => ∀ m found, s.machines.lookup name = some m →
      s.vms.lookup name = some found → found.owner = m.holder.uid → s.Sound m.holder m.disks vm
  | .appear name found => ∀ m, s.machines.lookup name = some m → found.owner = m.holder.uid →
      s.Sound m.holder m.disks found.vm
  | _ => True

/-- The pass goes through the disks of the machine: it is deleted, or has a `VirtualMachine` that
it may change. -/
def Namespace.Reaches (s : Namespace) (m : ManagedVM) : Prop :=
  m.deleting = true ∨ ∃ found, s.vms.lookup m.holder.name = some found ∧
    (found.owner = m.holder.uid ∨ m.adopts = true)

/-- The machine declares every disk that it holds, or mounts it. -/
def Namespace.Settled (s : Namespace) (m : ManagedVM) : Prop :=
  ∀ claim, HeldIn s.disks claim m.holder → claim ∈ m.disks.map DiskAttachment.claim ∨
    ∃ found, s.vms.lookup m.holder.name = some found ∧ ∃ v ∈ found.vm.volumes, v.Mounts claim

/-- No machine but the one of the pass has a release to make. -/
def Namespace.Quiet (s : Namespace) (name : String) : Prop :=
  ∀ other m, s.machines.lookup other = some m → (other = name ∧ s.Reaches m) ∨ s.Settled m

end Disks
