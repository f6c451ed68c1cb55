import KubevirtUi.Disks.Claim
import KubevirtUi.Library.Keyed
import Mathlib.Data.List.Dedup
import Mathlib.Data.List.Sort

/-!
# Attaching what is declared

The declared disks, the recorded ones and the volumes of the machine are compared by the names of
volumes. A declared name that the machine does not have is claimed and attached; a recorded one
that is not declared any more is detached, and released after that.

Maps are walked in any order.
-/

namespace Disks

open List

structure DiskAttachment where
  claim : String
  name : String := ""
  bus : String := ""
  deriving DecidableEq

inductive VolumeSource where
  | dataVolume (name : String) (hotpluggable : Bool)
  | persistentVolumeClaim (claimName : String)
  | other (text : String)
  deriving DecidableEq

structure Volume where
  name : String
  source : VolumeSource
  deriving DecidableEq

inductive DiskDevice where
  | disk (bus : String)
  | other (text : String)
  deriving DecidableEq

structure Disk where
  name : String
  device : DiskDevice
  deriving DecidableEq

/-- The two lists of a machine that its disks are in. -/
structure VirtualMachine where
  volumes : List Volume
  disks : List Disk
  deriving DecidableEq

abbrev DataVolumes := AList fun _ : String => Labels

/-- The order in which maps are walked. -/
structure Iteration where
  order : List String → List String
  perm : ∀ l, (order l).Perm l

/-- The name a disk carries inside the machine. -/
def volumeNameOf (d : DiskAttachment) : String := if d.name ≠ "" then d.name else d.claim

def reservedVolumes : List String := ["rootdisk", "cloudinit"]

/-- The declared disks by the names of their volumes: of two with one name, the last. -/
def desired (spec : List DiskAttachment) : AList fun _ : String => DiskAttachment :=
  spec.foldl (fun disks d => disks.insert (volumeNameOf d) d) ∅

/-- The machine has a volume of this name. -/
def VirtualMachine.Present (vm : VirtualMachine) (name : String) : Prop :=
  name ∈ vm.volumes.map Volume.name

instance (vm : VirtualMachine) (name : String) : Decidable (vm.Present name) :=
  inferInstanceAs (Decidable (_ ∈ _))

/-- What has been claimed so far. -/
structure Claims where
  disks : DataVolumes
  toAttach : List DiskAttachment := []
  refused : List String := []

/-- A disk that is no `DataVolume` has no labels, and is attached as it is. -/
def Claims.claim (claims : Claims) (holder : Holder) (d : DiskAttachment) : Claims :=
  match claims.disks.lookup d.claim with
  | none => { claims with toAttach := claims.toAttach ++ [d] }
  | some labels =>
    match claimDisk labels holder with
    | .finished => { claims with toAttach := claims.toAttach ++ [d] }
    | .refused current =>
      { claims with refused := claims.refused ++ [d.claim ++ " (held by " ++ current ++ ")"] }
    | .update labels =>
      { claims with
        disks := claims.disks.insert d.claim labels
        toAttach := claims.toAttach ++ [d] }

def release (holder : Holder) (disks : DataVolumes) (claim : String) : DataVolumes :=
  match disks.lookup claim with
  | none => disks
  | some labels =>
    match releaseDisk labels holder with
    | .update labels => disks.insert claim labels
    | _ => disks

/-- The declared disks whose names the machine does not have. -/
def toClaim (it : Iteration) (spec : List DiskAttachment) (vm : VirtualMachine) :
    List DiskAttachment :=
  ((it.order (desired spec).keys).filter (¬ vm.Present ·)).filterMap ((desired spec).lookup ·)

def toDetach (spec : List DiskAttachment) (attached : List String) (vm : VirtualMachine) :
    List String :=
  attached.filter fun name => name ∉ desired spec ∧ vm.Present name

def toRelease (it : Iteration) (spec : List DiskAttachment) (attached : List String) :
    List String :=
  (it.order attached.dedup).filter (· ∉ desired spec)

def volumeOf (d : DiskAttachment) : Volume := ⟨volumeNameOf d, .dataVolume d.claim true⟩

def diskOf (d : DiskAttachment) : Disk :=
  ⟨volumeNameOf d, .disk (if d.bus = "" then "virtio" else d.bus)⟩

def applyDiskChanges (vm : VirtualMachine) (toAttach : List DiskAttachment)
    (toDetach : List String) : VirtualMachine where
  volumes := Keyed.drop Volume.name toDetach vm.volumes ++ toAttach.map volumeOf
  disks := Keyed.drop Disk.name toDetach vm.disks ++ toAttach.map diskOf

structure DiskCondition where
  status : Bool
  reason : String
  message : String
  deriving DecidableEq

def diskCondition (refused : List String) : DiskCondition :=
  if refused = [] then ⟨true, "Attached", "every declared disk is attached"⟩
  else ⟨false, "DiskHeldByAnotherMachine",
    "not attached: " ++ String.intercalate ", " (refused.insertionSort (· ≤ ·))⟩

/-- What is recorded: the declared volumes that the machine has, but for its own. -/
def attachedDisks (spec : List DiskAttachment) (vm : VirtualMachine) : List String :=
  ((vm.volumes.map Volume.name).filter fun name =>
    name ∉ reservedVolumes ∧ name ∈ desired spec).insertionSort (· ≤ ·)

/-- A pass that none of its calls has stopped. -/
structure Synced where
  disks : DataVolumes
  vm : VirtualMachine
  attached : List String
  condition : DiskCondition

/-- Disks are claimed one after the other. -/
def claimEach (holder : Holder) (disks : DataVolumes) (l : List DiskAttachment) : Claims :=
  l.foldl (·.claim holder) { disks }

def changed (vm : VirtualMachine) (toAttach : List DiskAttachment) (toDetach : List String) :
    VirtualMachine :=
  if toAttach = [] ∧ toDetach = [] then vm else applyDiskChanges vm toAttach toDetach

def syncDisks (it : Iteration) (holder : Holder) (spec : List DiskAttachment)
    (attached : List String) (vm : VirtualMachine) (disks : DataVolumes) : Synced :=
  let claims := claimEach holder disks (toClaim it spec vm)
  let vm := changed vm claims.toAttach (toDetach spec attached vm)
  { disks := (toRelease it spec attached).foldl (release holder) claims.disks
    vm
    attached := attachedDisks spec vm
    condition := diskCondition claims.refused }

section Lemmas

variable {it : Iteration} {holder : Holder} {spec : List DiskAttachment} {attached : List String}
  {vm : VirtualMachine} {disks : DataVolumes} {d : DiskAttachment} {n : String}

theorem lookup_desired :
    (desired spec).lookup n = (spec.filter fun d => volumeNameOf d = n).getLast? := by
  have hlast : (desired spec).lookup n = ((spec.filter fun d => volumeNameOf d = n).getLast?.map
      id).or ((∅ : AList fun _ : String => DiskAttachment).lookup n) :=
    Keyed.lookup_foldl_insert _
  rw [AList.lookup_empty, Option.or_none, Option.map_id] at hlast
  exact hlast

theorem mem_of_lookup_desired (h : (desired spec).lookup n = some d) :
    d ∈ spec ∧ volumeNameOf d = n := by
  rw [lookup_desired] at h
  have hmem := mem_filter.mp (mem_of_getLast? h)
  exact ⟨hmem.1, of_decide_eq_true hmem.2⟩

theorem mem_desired_iff : n ∈ desired spec ↔ ∃ d ∈ spec, volumeNameOf d = n := by
  constructor
  · intro h
    obtain ⟨d, hd⟩ := Option.isSome_iff_exists.mp (AList.lookup_isSome.mpr h)
    exact ⟨d, mem_of_lookup_desired hd⟩
  · rintro ⟨d, hd, rfl⟩
    have hne : spec.filter (fun e => volumeNameOf e = volumeNameOf d) ≠ [] :=
      ne_nil_of_mem (mem_filter.mpr ⟨hd, by simp⟩)
    rw [← AList.lookup_isSome, lookup_desired, List.getLast?_isSome]
    exact hne

theorem mem_desired (h : d ∈ spec) : volumeNameOf d ∈ desired spec :=
  mem_desired_iff.mpr ⟨d, h, rfl⟩

theorem mem_toClaim : d ∈ toClaim it spec vm ↔
    (desired spec).lookup (volumeNameOf d) = some d ∧ ¬ vm.Present (volumeNameOf d) := by
  rw [toClaim, mem_filterMap]
  constructor
  · rintro ⟨n, hn, hd⟩
    obtain ⟨-, rfl⟩ := mem_of_lookup_desired hd
    exact ⟨hd, of_decide_eq_true (mem_filter.mp hn).2⟩
  · rintro ⟨hd, hpresent⟩
    have hkey : volumeNameOf d ∈ (desired spec).keys :=
      AList.mem_keys.mp (mem_desired (mem_of_lookup_desired hd).1)
    refine ⟨volumeNameOf d, mem_filter.mpr ⟨?_, decide_eq_true hpresent⟩, hd⟩
    exact (it.perm _).mem_iff.mpr hkey

theorem nodup_toClaim : ((toClaim it spec vm).map volumeNameOf).Nodup := by
  have hkeys : ∀ n ∈ (it.order (desired spec).keys).filter (¬ vm.Present ·),
      ((desired spec).lookup n).map volumeNameOf = some n := by
    intro n hn
    have hmem := (it.perm _).mem_iff.mp (mem_filter.mp hn).1
    obtain ⟨d, hd⟩ :=
      Option.isSome_iff_exists.mp (AList.lookup_isSome.mpr (AList.mem_keys.mpr hmem))
    rw [hd, Option.map_some, (mem_of_lookup_desired hd).2]
  rw [toClaim, map_filterMap, filterMap_congr hkeys, filterMap_some]
  exact ((it.perm _).nodup_iff.mpr (desired spec).keys_nodup).filter _

theorem mem_toDetach :
    n ∈ toDetach spec attached vm ↔ n ∈ attached ∧ n ∉ desired spec ∧ vm.Present n := by
  rw [toDetach, mem_filter, decide_eq_true_eq]

theorem mem_toRelease : n ∈ toRelease it spec attached ↔ n ∈ attached ∧ n ∉ desired spec := by
  rw [toRelease, mem_filter, (it.perm _).mem_iff, mem_dedup, decide_eq_true_eq]

theorem mem_attachedDisks :
    n ∈ attachedDisks spec vm ↔ vm.Present n ∧ n ∉ reservedVolumes ∧ n ∈ desired spec := by
  rw [attachedDisks, (perm_insertionSort _ _).mem_iff, mem_filter, decide_eq_true_eq,
    VirtualMachine.Present]

theorem Claims.claim_cases (claims : Claims) (holder : Holder) (d : DiskAttachment) :
    (claims.claim holder d).refused = claims.refused ∧
        (claims.claim holder d).toAttach = claims.toAttach ++ [d] ∨
      ∃ text, claims.claim holder d = { claims with refused := claims.refused ++ [text] } := by
  rw [Claims.claim]
  split
  · exact .inl ⟨rfl, rfl⟩
  · split
    · exact .inl ⟨rfl, rfl⟩
    · exact .inr ⟨_, rfl⟩
    · exact .inl ⟨rfl, rfl⟩

theorem volumes_changed (toAttach : List DiskAttachment) (toDetach : List String) :
    (changed vm toAttach toDetach).volumes =
      Keyed.drop Volume.name toDetach vm.volumes ++ toAttach.map volumeOf := by
  rw [changed]
  split
  · next h =>
    rw [h.1, h.2, map_nil, append_nil, Keyed.drop_eq_self_iff.mpr (by simp)]
  · rfl

theorem disks_changed (toAttach : List DiskAttachment) (toDetach : List String) :
    (changed vm toAttach toDetach).disks =
      Keyed.drop Disk.name toDetach vm.disks ++ toAttach.map diskOf := by
  rw [changed]
  split
  · next h =>
    rw [h.1, h.2, map_nil, append_nil, Keyed.drop_eq_self_iff.mpr (by simp)]
  · rfl

end Lemmas

end Disks
