import KubevirtUi.Folders.Requests
import KubevirtUi.Library.Raising

/-!
# Namespaces, and who is bound in them

A namespace says with its labels which folder it belongs to, and whether it is a tenant's. In it
there are role bindings, which give the role of a ClusterRole to subjects, and quotas. The folders
are the entries of one ConfigMap.

The log says what has been written, and what the labels of the namespace were then.
-/

namespace Access

open Folders (Meta Data Failure FolderQuota)
open Interference

variable {ι : Type}

/-- The labels of a namespace that are read. -/
structure Labels where
  enabled : Option String := none
  managed : Option String := none
  folder : Option String := none
  environment : Option String := none
  tenant : Option String := none
  deriving DecidableEq

/-- A text that is there and not empty. -/
def Labels.isTenant (labels : Labels) : Bool := labels.tenant.any (· ≠ "")

structure Subject where
  kind : String
  name : String
  deriving DecidableEq

structure BindingLabels where
  managed : Option String := none
  accessType : Option String := none
  accessScope : Option String := none
  accessSource : Option String := none
  folder : Option String := none
  environment : Option String := none
  deriving DecidableEq

/-- A role binding: the name of the ClusterRole, and who gets it. -/
structure RoleBinding where
  labels : BindingLabels
  role : String
  subjects : List Subject
  deriving DecidableEq

/-- What a client has written: it created or deleted a namespace, wrote or deleted a quota or a
role binding in one, or wrote the entry of a folder. -/
inductive Event (ι : Type) where
  | ns (client : ι) (name : String) (labels : Labels)
  | quota (client : ι) (ns : String) (labels : Labels)
  | bound (client : ι) (ns : String) (labels : Labels) (binding : RoleBinding)
  | unbound (client : ι) (ns : String) (labels : Labels)
  | entry (client : ι) (folder : String)

/-- Objects in namespaces, by namespace and name. -/
abbrev Placed (α : Type) := AList fun _ : String × String => α

/-- The objects, and what happened. The names of the namespaces that are gone and were no tenant's
are kept beside them, where nobody reads them. -/
structure World (ι : Type) where
  clock : Nat
  configMap : Option Data
  namespaces : AList fun _ : String => Labels
  bindings : Placed (Versioned RoleBinding)
  quotas : Placed FolderQuota
  log : List (Event ι)
  gone : List String := []

/-- What can be asked. A reading of labels names beside it the groups that are to be bound, which
is seen by nobody. What is computed of quotas is asked for as a whole, and fits or does not; and so
is what is made in a tenant's namespace besides bindings. -/
inductive Request where
  | readConfigMap
  | readSystemNamespace
  | createConfigMap
  | patchConfigMap (folder : String) (info : Meta)
  | readNamespace (name : String)
  | readLabels (name : String) (groups : List String)
  | listNamespaces (folder : String)
  | createNamespace (name : String) (labels : Labels)
  | deleteNamespace (name : String)
  | readBinding (ns name : String)
  | listBindings (ns folder : String)
  | createBinding (ns name : String) (binding : RoleBinding)
  | replaceBinding (ns name : String) (version : Nat) (binding : RoleBinding)
  | deleteBinding (ns name : String)
  | listQuotas (ns : String)
  | createQuota (ns name : String) (quota : FolderQuota)
  | replaceQuota (ns name : String) (quota : FolderQuota)
  | deleteQuota (ns name : String)
  | createLimitRange (ns : String)
  | fits
  | fillTenant (ns : String)

@[reducible] def Request.Result : Request → Type
  | .readConfigMap => Data
  | .readNamespace _ => Labels
  | .readLabels .. => Labels
  | .listNamespaces _ => List (String × Labels)
  | .readBinding .. => Versioned RoleBinding
  | .listBindings .. => List (String × RoleBinding)
  | .listQuotas _ => List FolderQuota
  | .fits => Bool
  | _ => Unit

abbrev Request.Response (r : Request) : Type := Except Failure r.Result

/-- Whether a request fails for a reason of its own, and else whether the quotas allow what is
asked. -/
structure Fault where
  failure : Option Failure := none
  fits : Bool := true

section Placed

variable {α : Type}

/-- The objects in one namespace, by name. -/
def Placed.within (ns : String) (objects : Placed α) : List (String × α) :=
  (objects.entries.filter fun e => e.1.1 = ns).map fun e => (e.1.2, e.2)

/-- A namespace that goes takes with it all that is in it. -/
def Placed.drop (ns : String) (objects : Placed α) : Placed α :=
  ⟨objects.entries.filter fun e => e.1.1 ≠ ns,
    List.NodupKeys.sublist List.filter_sublist objects.nodupKeys⟩

end Placed

/-- The environments of a folder. -/
def World.environments (w : World ι) (folder : String) : List (String × Labels) :=
  (w.namespaces.entries.filter fun e => e.2.folder = some folder ∧ e.2.managed = some "true").map
    fun e => (e.1, e.2)

/-- Whether a role binding was made for all of a folder. -/
def RoleBinding.forFolder (folder : String) (binding : RoleBinding) : Prop :=
  binding.labels.managed = some "true" ∧ binding.labels.accessScope = some "folder" ∧
    binding.labels.folder = some folder

instance (folder : String) (binding : RoleBinding) : Decidable (binding.forFolder folder) :=
  inferInstanceAs (Decidable (_ ∧ _ ∧ _))

/-- Something is written in a namespace that is there. -/
def World.write (w : World ι) (ns : String) (f : Labels → World ι) :
    Except Failure Unit × World ι :=
  match w.namespaces.lookup ns with
  | none => (.error (.api 404), w)
  | some labels => (.ok (), f labels)

def World.setBinding (w : World ι) (i : ι) (ns name : String) (binding : RoleBinding)
    (labels : Labels) : World ι :=
  { w with
    clock := w.clock + 1
    bindings := w.bindings.insert (ns, name) ⟨w.clock + 1, binding⟩
    log := w.log ++ [.bound i ns labels binding] }

def World.setQuota (w : World ι) (i : ι) (ns name : String) (quota : FolderQuota)
    (labels : Labels) : World ι :=
  { w with
    quotas := w.quotas.insert (ns, name) quota
    log := w.log ++ [.quota i ns labels] }

/-- A namespace is deleted. -/
def World.remove (w : World ι) (name : String) (labels : Labels) : World ι :=
  { w with
    namespaces := w.namespaces.erase name
    bindings := w.bindings.drop name
    quotas := w.quotas.drop name
    gone := if labels.isTenant then w.gone else name :: w.gone }

/-- What a request does that does not fail. -/
def commit (i : ι) (fits : Bool) (w : World ι) : (r : Request) → r.Response × World ι
  | .readConfigMap =>
    match w.configMap with
    | none => (.error (.api 404), w)
    | some data => (.ok data, w)
  | .readSystemNamespace => (.ok (), w)
  | .createConfigMap =>
    match w.configMap with
    | none => (.ok (), { w with configMap := some ∅ })
    | some _ => (.error (.api 409), w)
  | .patchConfigMap folder info =>
    match w.configMap with
    | none => (.error (.api 404), w)
    | some data =>
      (.ok (), { w with
        configMap := some (data.insert folder (some info))
        log := w.log ++ [.entry i folder] })
  | .readNamespace name =>
    match w.namespaces.lookup name with
    | none => (.error (.api 404), w)
    | some labels => (.ok labels, w)
  | .readLabels name _ =>
    match w.namespaces.lookup name with
    | none => (.error (.api 404), w)
    | some labels => (.ok labels, w)
  | .listNamespaces folder => (.ok (w.environments folder), w)
  | .createNamespace name labels =>
    match w.namespaces.lookup name with
    | some _ => (.error (.api 409), w)
    | none =>
      (.ok (), { w with
        namespaces := w.namespaces.insert name labels
        log := w.log ++ [.ns i name labels] })
  | .deleteNamespace name =>
    w.write name fun labels =>
      { w.remove name labels with log := w.log ++ [.ns i name labels] }
  | .readBinding ns name =>
    match w.bindings.lookup (ns, name) with
    | none => (.error (.api 404), w)
    | some item => (.ok item, w)
  | .listBindings ns folder =>
    (.ok (((w.bindings.within ns).map fun b => (b.1, b.2.value)).filter fun b =>
      b.2.forFolder folder), w)
  | .createBinding ns name binding =>
    if (w.bindings.lookup (ns, name)).isSome then (.error (.api 409), w)
    else w.write ns (w.setBinding i ns name binding)
  | .replaceBinding ns name version binding =>
    match w.bindings.lookup (ns, name) with
    | none => (.error (.api 404), w)
    | some item =>
      if item.version ≠ version then (.error (.api 409), w)
      else if item.value.role ≠ binding.role then (.error (.api 422), w)
      else w.write ns (w.setBinding i ns name binding)
  | .deleteBinding ns name =>
    match w.bindings.lookup (ns, name) with
    | none => (.error (.api 404), w)
    | some _ =>
      w.write ns fun labels =>
        { w with
          bindings := w.bindings.erase (ns, name)
          log := w.log ++ [.unbound i ns labels] }
  | .listQuotas ns => (.ok ((w.quotas.within ns).map Prod.snd), w)
  | .createQuota ns name quota =>
    if (w.quotas.lookup (ns, name)).isSome then (.error (.api 409), w)
    else w.write ns (w.setQuota i ns name quota)
  | .replaceQuota ns name quota =>
    match w.quotas.lookup (ns, name) with
    | none => (.error (.api 404), w)
    | some _ => w.write ns (w.setQuota i ns name quota)
  | .deleteQuota ns name =>
    match w.quotas.lookup (ns, name) with
    | none => (.error (.api 404), w)
    | some _ =>
      w.write ns fun labels =>
        { w with
          quotas := w.quotas.erase (ns, name)
          log := w.log ++ [.quota i ns labels] }
  | .createLimitRange ns | .fillTenant ns => w.write ns fun _ => w
  | .fits => (.ok fits, w)

/-- A request that fails has no effect. -/
def serve (i : ι) (fault : Fault) (w : World ι) (r : Request) : r.Response × World ι :=
  match fault.failure with
  | none => commit i fault.fits w r
  | some e => (.error e, w)

end Access
