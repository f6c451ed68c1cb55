import Mathlib.Data.List.AList

/-!
# What a pass over an image does

An image is a disk, a snapshot of the disk's claim, and a `DataSource` that names one of the two to
those who clone it. A pass reads and writes one object after the other, and others change them in
between; so a pass is a position, with what it has read so far, and each call takes it to the next.
-/

namespace Images

/-- What a condition of a `DataVolume` says. -/
structure Condition where
  kind : String
  status : String
  reason : String := ""
  message : String := ""
  deriving DecidableEq

structure DataVolume where
  /-- The label of the image that owns it. -/
  ownerUID : String := ""
  deleting : Bool := false
  conditions : List Condition := []
  phase : String := ""
  deriving DecidableEq

structure Claim where
  uid : String
  storageClass : Option String := none
  deriving DecidableEq

structure StorageProfile where
  snapshotClass : Option String := none
  provisioner : Option String := none

structure VolumeSnapshot where
  ownerUID : String := ""
  /-- The annotation that says which claim it was taken from. -/
  sourceClaimUID : String := ""
  claimName : String := ""
  snapshotClass : Option String := none
  readyToUse : Bool := false
  error : String := ""
  deriving DecidableEq

inductive DataSourceSource where
  | claim (name : String)
  | snapshot (name : String)
  deriving DecidableEq

structure DataSource where
  ownerUID : String := ""
  source : DataSourceSource
  deriving DecidableEq

/-- A disk that is cloned from an image, under a key that names the image. -/
structure Consumer where
  key : String
  name : String
  ownerUID : String := ""
  deleting : Bool := false

/-- What there is of the classes of snapshots: the drivers, if they can be listed. -/
inductive SnapshotClasses where
  | noSuchType
  | unreadable
  | drivers (drivers : List String)

inductive Phase where
  | pending
  | importing
  | ready
  | failed
  deriving DecidableEq

/-- A reason why an image is not ready, or what its snapshot is. -/
structure Status where
  phase : Phase := .pending
  message : String := ""
  blocked : Option String := none
  dataVolumeName : String := ""
  dataSourceName : String := ""
  snapshotReason : String := ""
  snapshotName : String := ""
  cloneSource : String := ""
  usedBy : List String := []
  deriving DecidableEq

/-- The image as it is stored, besides what never changes. -/
structure Stored where
  paused : Bool := false
  deleting : Bool := false
  finalizer : Bool := false
  status : Status := {}

structure Cluster where
  image : Option Stored := some {}
  disks : AList fun _ : String => DataVolume := ∅
  claims : AList fun _ : String => Claim := ∅
  profileType : Bool := true
  profiles : AList fun _ : String => StorageProfile := ∅
  classes : SnapshotClasses := .noSuchType
  snapshotType : Bool := true
  snapshots : AList fun _ : String => VolumeSnapshot := ∅
  dataSource : Option DataSource := none
  consumers : List Consumer := []
  /-- The variable `IMAGE_CLONE_SOURCE`. -/
  imageCloneSource : String := ""

/-- What never changes of an image. -/
structure ManagedImage where
  name : String
  uid : String
  /-- The annotation that names a disk to take over. -/
  adopt : String := ""
  source : Option String := none
  size : String := ""

def ManagedImage.disk (i : ManagedImage) : String := if i.adopt ≠ "" then i.adopt else i.name

/-- What a pass is about to do, with what it has read so far. -/
inductive Position where
  | idle
  | addFinalizer
  | disk
  | stamp
  | choose (dv : DataVolume)
  | claim
  | classFor (claim : Claim)
  | snapshot (claim : Claim) (snapshotClass : String)
  | retake
  | take (claim : Claim) (snapshotClass : String)
  | point (snapshotName : String)
  | save
  | findSource
  | dropSource
  | findSnapshot
  | dropSnapshot
  | findDisk (name : String)
  | dropDisk (name : String)
  | removeFinalizer
  deriving DecidableEq

structure State where
  cluster : Cluster
  pos : Position := .idle
  /-- The status that the pass is going to save. -/
  status : Status := {}

/-- CDI holds a phase while it tries again what fails. -/
def interpret (dv : DataVolume) : Phase × String :=
  match dv.conditions.find? fun c => c.kind = "Running" ∧ c.status = "False" ∧
    (c.reason = "Error" ∨ c.reason = "TransferFailed") with
  | some c => (.failed, if c.message = "" then c.reason else c.message)
  | none =>
    if dv.phase = "Succeeded" then (.ready, "")
    else if dv.phase = "Failed" then (.failed, "DataVolume reported phase Failed")
    else if dv.phase = "" then (.pending, "")
    else (.importing, "")

def snapshotSourceWanted (s : Cluster) : Bool := s.imageCloneSource ≠ "pvc"

/-- No class is named: it is left to the snapshot controller. -/
def snapshotClassByDefault : String := "\x00default"

/-- The class to take a snapshot with, or the reason why there is none. -/
def snapshotClassFor (s : Cluster) (claim : Claim) : Except String String :=
  match claim.storageClass.getD "" with
  | "" => .error "NoStorageClass"
  | name =>
    if s.profileType = false then .error "NoStorageProfileType"
    else match s.profiles.lookup name with
      | none => .error "NoStorageProfile"
      | some profile =>
        if profile.snapshotClass.getD "" ≠ "" then .ok (profile.snapshotClass.getD "")
        else if profile.provisioner.getD "" = "" then .error "UnknownProvisioner"
        else match s.classes with
          | .noSuchType => .error "NoSnapshotSupport"
          | .unreadable => .error "SnapshotClassesUnreadable"
          | .drivers drivers =>
            if profile.provisioner.getD "" ∈ drivers then .ok snapshotClassByDefault
            else .error "NoSnapshotClass"

/-- The disks that are cloned from the image, by either of the names that it has. -/
def usedBy (i : ManagedImage) (s : Cluster) (status : Status) : List String :=
  let claim := if status.dataVolumeName = "" then i.name else status.dataVolumeName
  (s.consumers.filter fun c => (c.key = claim ∨ c.key = i.name) ∧ c.deleting = false ∧
    c.ownerUID ≠ i.uid).map Consumer.name

/-- A snapshot with the marks of the image and of the claim. -/
def desiredVolumeSnapshot (i : ManagedImage) (claim : Claim) (snapshotClass : String) :
    VolumeSnapshot where
  ownerUID := i.uid
  sourceClaimUID := claim.uid
  claimName := i.disk
  snapshotClass := if snapshotClass ≠ "" ∧ snapshotClass ≠ snapshotClassByDefault then
    some snapshotClass else none

def desiredDataSource (i : ManagedImage) (snapshotName : String) : DataSource where
  ownerUID := i.uid
  source := if snapshotName ≠ "" then .snapshot snapshotName else .claim i.name

variable (isQuantity : String → Bool) (i : ManagedImage)

/-- The pass ends here, and tells why. -/
def State.block (s : State) (reason : String) : State :=
  { s with pos := .save, status := { s.status with phase := .pending, blocked := some reason } }

/-- The `DataSource` is going to name the claim. -/
def State.useClaim (s : State) (reason : String) : State :=
  { s with
    pos := .point ""
    status := { s.status with snapshotReason := reason, snapshotName := "", cloneSource := "pvc" } }

def State.useSnapshot (s : State) : State :=
  { s with
    pos := .point i.name
    status :=
      { s.status with
        snapshotReason := "Ready", snapshotName := i.name, cloneSource := "snapshot" } }

def State.begin (s : State) (stored : Stored) : State :=
  let s := { s with status := { stored.status with usedBy := usedBy i s.cluster stored.status } }
  if stored.paused then { s with pos := .idle }
  else if stored.deleting then
    if stored.finalizer = false then { s with pos := .idle }
    else if s.status.usedBy ≠ [] then { s with pos := .save }
    else { s with pos := .findSource }
  else if stored.finalizer = false then { s with pos := .addFinalizer }
  else { s with pos := .disk }

def State.findDataVolume (s : State) : State :=
  match s.cluster.disks.lookup i.disk with
  | some dv =>
    if dv.ownerUID ≠ "" ∧ dv.ownerUID ≠ i.uid then s.block "DataVolumeConflict"
    else if dv.deleting then s.block "DataVolumeTerminating"
    else { s with pos := .stamp }
  | none =>
    if i.adopt ≠ "" then s.block "AdoptTargetMissing"
    else if i.source = none ∨ isQuantity i.size = false then s.block "InvalidSpec"
    else { s with pos := .stamp }

def State.findSnapshot (s : State) (claim : Claim) (snapshotClass : String) : State :=
  if s.cluster.snapshotType = false then s.useClaim "NoSnapshotSupport"
  else match s.cluster.snapshots.lookup i.name with
    | none => { s with pos := .take claim snapshotClass }
    | some existing =>
      if existing.ownerUID ≠ i.uid then s.useClaim "SnapshotConflict"
      else if existing.sourceClaimUID ≠ claim.uid then { s with pos := .retake }
      else if existing.readyToUse = false then
        if existing.error ≠ "" then s.useClaim "SnapshotFailed" else s.useClaim "Taking"
      else s.useSnapshot i

/-- One call, and where the pass is after it. -/
def State.call (s : State) : State :=
  let c := s.cluster
  match s.pos with
  | .idle => match c.image with
    | none => s
    | some stored => s.begin i stored
  | .addFinalizer =>
    { s with
      pos := .idle
      cluster := { c with image := c.image.map fun stored => { stored with finalizer := true } } }
  | .disk => s.findDataVolume isQuantity i
  -- labels are written on what is there, or on a new disk
  | .stamp =>
    let dv : DataVolume := { (c.disks.lookup i.disk).getD {} with ownerUID := i.uid }
    { s with pos := .choose dv, cluster := { c with disks := c.disks.insert i.disk dv } }
  | .choose dv =>
    let (phase, message) := interpret dv
    let s :=
      { s with status :=
        { s.status with phase, message, blocked := none, dataVolumeName := i.disk } }
    if snapshotSourceWanted c = false then s.useClaim "Disabled"
    else if phase ≠ .ready then s.useClaim "Importing"
    else { s with pos := .claim }
  | .claim => match c.claims.lookup i.disk with
    | none => s.useClaim "ClaimMissing"
    | some claim => { s with pos := .classFor claim }
  | .classFor claim => match snapshotClassFor c claim with
    | .error reason => s.useClaim reason
    | .ok snapshotClass => { s with pos := .snapshot claim snapshotClass }
  | .snapshot claim snapshotClass => s.findSnapshot i claim snapshotClass
  | .retake =>
    { s.useClaim "Retaking" with cluster := { c with snapshots := c.snapshots.erase i.name } }
  | .take claim snapshotClass =>
    let desired := desiredVolumeSnapshot i claim snapshotClass
    -- the marks are written on what is there by now
    let snapshot := match c.snapshots.lookup i.name with
      | none => desired
      | some existing =>
        { desired with readyToUse := existing.readyToUse, error := existing.error }
    { s.useClaim "Taking" with
      cluster := { c with snapshots := c.snapshots.insert i.name snapshot } }
  | .point snapshotName =>
    { s with
      pos := .save
      status := { s.status with dataSourceName := i.name }
      cluster := { c with dataSource := some (desiredDataSource i snapshotName) } }
  | .save =>
    { s with
      pos := .idle
      cluster :=
        { c with image := c.image.map fun stored => { stored with status := s.status } } }
  | .findSource => match c.dataSource with
    | none => { s with pos := .findSnapshot }
    | some ds => if ds.ownerUID ≠ i.uid then { s with pos := .findSnapshot }
      else { s with pos := .dropSource }
  | .dropSource => { s with pos := .findSnapshot, cluster := { c with dataSource := none } }
  | .findSnapshot =>
    let name := if s.status.dataVolumeName = "" then i.name else s.status.dataVolumeName
    if c.snapshotType = false then { s with pos := .findDisk name }
    else match c.snapshots.lookup i.name with
      | none => { s with pos := .findDisk name }
      | some existing => if existing.ownerUID ≠ i.uid then { s with pos := .findDisk name }
        else { s with pos := .dropSnapshot }
  | .dropSnapshot =>
    let name := if s.status.dataVolumeName = "" then i.name else s.status.dataVolumeName
    { s with
      pos := .findDisk name
      cluster := { c with snapshots := c.snapshots.erase i.name } }
  | .findDisk name => match c.disks.lookup name with
    | none => { s with pos := .removeFinalizer }
    | some dv => if dv.ownerUID ≠ i.uid then { s with pos := .removeFinalizer }
      else { s with pos := .dropDisk name }
  | .dropDisk name =>
    { s with pos := .removeFinalizer, cluster := { c with disks := c.disks.erase name } }
  | .removeFinalizer => { s with pos := .idle, cluster := { c with image := none } }

/-- Others write or remove an object. -/
inductive Change where
  | image (image : Option Stored)
  | disk (name : String) (disk : Option DataVolume)
  | claim (name : String) (claim : Option Claim)
  | profiles (known : Bool) (profiles : AList fun _ : String => StorageProfile)
  | classes (classes : SnapshotClasses)
  | snapshotType (known : Bool)
  | snapshot (name : String) (snapshot : Option VolumeSnapshot)
  | dataSource (dataSource : Option DataSource)
  | consumers (consumers : List Consumer)
  | imageCloneSource (value : String)

/-- A name with what it stands for now, if anything. -/
def put {α : Type} (m : AList fun _ : String => α) (name : String) : Option α →
    AList fun _ : String => α
  | some a => m.insert name a
  | none => m.erase name

def Cluster.change (c : Cluster) : Change → Cluster
  | .image image => { c with image }
  | .disk name disk => { c with disks := put c.disks name disk }
  | .claim name claim => { c with claims := put c.claims name claim }
  | .profiles profileType profiles => { c with profileType, profiles }
  | .classes classes => { c with classes }
  | .snapshotType snapshotType => { c with snapshotType }
  | .snapshot name snapshot => { c with snapshots := put c.snapshots name snapshot }
  | .dataSource dataSource => { c with dataSource }
  | .consumers consumers => { c with consumers }
  | .imageCloneSource imageCloneSource => { c with imageCloneSource }

inductive Event where
  | call
  /-- A call fails, or the process stops: nothing is left of the pass. -/
  | fail
  | change (change : Change)

def State.step (s : State) : Event → Option State
  | .call => some (s.call isQuantity i)
  | .fail => some { s with pos := .idle }
  | .change change => some { s with cluster := s.cluster.change change }

end Images
