import Mathlib.Data.List.AList
import Mathlib.Data.String.Basic

/-!
# Claiming a disk

A disk carries the name and the UID of the machine that holds it, as two labels. A machine claims
a disk that nobody holds, or that is its own already; it releases one only for itself. Either
call reads the disk once and writes it at most once, as it has read it.
-/

namespace Disks

abbrev Labels := AList fun _ : String => String

/-- The value of a label, empty where there is none. -/
def Labels.get (labels : Labels) (key : String) : String := (labels.lookup key).getD ""

def attachedToLabel : String := "kubevirt-ui.io/attached-to"

def attachedToUIDLabel : String := "platform.kubevirt-ui.io/attached-to-uid"

structure DataVolume where
  resourceVersion : Nat
  labels : Labels
  deriving DecidableEq

/-- Who makes a call: the API server gives every object a name and a UID. -/
structure Holder where
  name : String
  uid : String
  name_ne : name ≠ ""
  uid_ne : uid ≠ ""
  deriving DecidableEq

/-- What a call does with what it has read. -/
inductive Decision where
  | finished
  | refused (holder : String)
  | update (labels : Labels)
  deriving DecidableEq

def claimDisk (labels : Labels) (holder : Holder) : Decision :=
  let current := labels.get attachedToLabel
  let currentUID := labels.get attachedToUIDLabel
  let claimed :=
    (labels.insert attachedToLabel holder.name).insert attachedToUIDLabel holder.uid
  if current = "" then .update claimed
  else if current = holder.name ∧ (currentUID = "" ∨ currentUID = holder.uid) then
    -- an older release has left no UID
    if currentUID = holder.uid then .finished else .update claimed
  else .refused current

def releaseDisk (labels : Labels) (holder : Holder) : Decision :=
  let current := labels.get attachedToLabel
  let currentUID := labels.get attachedToUIDLabel
  if current = "" then .finished
  else if current ≠ holder.name then .finished
  else if currentUID ≠ "" ∧ holder.uid ≠ "" ∧ currentUID ≠ holder.uid then .finished
  else .update ((labels.erase attachedToLabel).erase attachedToUIDLabel)

/-- The labels say that this machine holds the disk. -/
structure HeldBy (labels : Labels) (name uid : String) : Prop where
  name : labels.get attachedToLabel = name
  uid : labels.get attachedToUIDLabel = uid

section Labels

variable {labels : Labels} {key other value : String}

@[simp] theorem Labels.get_insert : Labels.get (labels.insert key value) key = value := by
  rw [Labels.get, AList.lookup_insert, Option.getD_some]

theorem Labels.get_insert_ne (h : other ≠ key) :
    Labels.get (labels.insert key value) other = labels.get other := by
  rw [Labels.get, AList.lookup_insert_ne h, Labels.get]

@[simp] theorem Labels.get_erase : Labels.get (labels.erase key) key = "" := by
  rw [Labels.get, AList.lookup_erase, Option.getD_none]

theorem Labels.get_erase_ne (h : other ≠ key) :
    Labels.get (labels.erase key) other = labels.get other := by
  rw [Labels.get, AList.lookup_erase_ne h, Labels.get]

theorem attachedToLabel_ne : attachedToLabel ≠ attachedToUIDLabel := by decide

end Labels

variable {labels labels' : Labels} {holder : Holder} {name uid : String}

theorem heldBy_of_claimDisk_update (h : claimDisk labels holder = .update labels') :
    HeldBy labels' holder.name holder.uid := by
  have hclaimed : labels' =
      (labels.insert attachedToLabel holder.name).insert attachedToUIDLabel holder.uid := by
    rw [claimDisk] at h
    split at h
    · exact (Decision.update.inj h).symm
    · split at h
      · split at h
        · contradiction
        · exact (Decision.update.inj h).symm
      · contradiction
  subst hclaimed
  exact ⟨by rw [Labels.get_insert_ne attachedToLabel_ne, Labels.get_insert], Labels.get_insert⟩

theorem heldBy_of_claimDisk_finished (h : claimDisk labels holder = .finished) :
    HeldBy labels holder.name holder.uid := by
  rw [claimDisk] at h
  split at h
  · contradiction
  · split at h
    · next hours =>
      split at h
      · next huid => exact ⟨hours.1, huid⟩
      · contradiction
    · contradiction

theorem claimDisk_eq_refused (h : HeldBy labels name uid) (hname : name ≠ "") (huid : uid ≠ "")
    (hother : uid ≠ holder.uid) : claimDisk labels holder = .refused name := by
  rw [claimDisk]
  rw [h.name, h.uid, if_neg hname, if_neg]
  rintro ⟨-, hempty | hsame⟩
  · exact huid hempty
  · exact hother hsame

theorem releaseDisk_eq_finished (h : HeldBy labels name uid) (huid : uid ≠ "")
    (hother : uid ≠ holder.uid) : releaseDisk labels holder = .finished := by
  rw [releaseDisk]
  rw [h.name, h.uid]
  split
  · rfl
  · split
    · rfl
    · rw [if_pos ⟨huid, holder.uid_ne, hother⟩]

end Disks
