import KubevirtUi.Access.Calls
import KubevirtUi.Library.Solo
import KubevirtUi.Quotas.Arithmetic

/-!
# Quotas in a cluster, and what is checked against ceilings

The quota of an environment is an object in its namespace, and says what it caps and what is in
use of it; there may be more of them than the one that is made with the environment. The quota of a
folder is in its entry of the ConfigMap.

Any call may fail, with a status of the API or otherwise, and then it has no effect.

A request has to fit under the nearest ceiling at or above its folder, dimension by dimension, on
top of what that ceiling covers already. A sub-folder's quota has to fit likewise under the nearest
ceiling at or above its parent.
-/

namespace Quotas

open Access (Labels Placed nsName quotaName quotaHard)
open Folders (Data Failure FolderQuota Meta parseAllFolders)
open Interference
open Tenant (Dimension dimensions)

variable {α : Type}

/-- A quota that is listed. -/
structure ResourceQuota where
  hard : FolderQuota
  used : FolderQuota
  deriving DecidableEq

/-- The cluster, and what is in use of its quotas. -/
structure World where
  cluster : Access.World Unit
  used : Placed FolderQuota

/-- The part of the work that a call is made for. -/
inductive Phase where
  | checking
  | shrinking
  | making
  | restoring
  deriving DecidableEq

/-- What can be asked. What a call is made for is seen by nobody. -/
inductive Request where
  | access (phase : Phase) (r : Access.Request)
  | listFolder (folder : String)
  | listResourceQuotas (phase : Phase) (ns : String)

@[reducible] def Request.Result : Request → Type
  | .access _ r => r.Result
  | .listFolder _ => List String
  | .listResourceQuotas .. => List ResourceQuota

abbrev Request.Response (r : Request) : Type := Except Failure r.Result

/-- How a call fails: with an `ApiException`, or with another one, which nobody takes for more
than the 500 that it is answered with. -/
inductive Fault where
  | api (status : Nat)
  | other (text : String)
  deriving DecidableEq

def Fault.failure : Fault → Failure
  | .api status => .api status
  | .other text => .http 500 text

def noQuota : FolderQuota := ⟨none, none, none⟩

/-- The namespaces that say that they are under a folder, tenants' ones among them. -/
def World.folderNamespaces (w : World) (folder : String) : List String :=
  (w.cluster.namespaces.entries.filter fun e => e.2.folder = some folder).map Sigma.fst

/-- The quotas in a namespace, by name. -/
def World.quotasIn (w : World) (ns : String) : List (String × FolderQuota) :=
  (w.cluster.quotas.within ns).insertionSort fun a b => a.1 ≤ b.1

def World.resourceQuotas (w : World) (ns : String) : List ResourceQuota :=
  (w.quotasIn ns).map fun q => ⟨q.2, (w.used.lookup (ns, q.1)).getD noQuota⟩

/-- What a call does that does not fail. -/
def commit (w : World) : (r : Request) → r.Response × World
  | .access _ r =>
    ((Access.commit () true w.cluster r).1,
      { w with cluster := (Access.commit () true w.cluster r).2 })
  | .listFolder folder => (.ok (w.folderNamespaces folder), w)
  | .listResourceQuotas _ ns => (.ok (w.resourceQuotas ns), w)

def serve (fault : Option Fault) (w : World) (r : Request) : r.Response × World :=
  match fault with
  | none => commit w r
  | some fault => (.error fault.failure, w)

abbrev Call (α : Type) := ExceptT Failure (Program Request Request.Response) α

def ask (r : Request) : Call r.Result := ExceptT.mk (Program.ask r)

/-- `except ApiException` -/
def exceptApi (body : Call α) (handler : Nat → Call α) : Call α :=
  tryCatch body fun e => match e with
    | .api status => handler status
    | e => throw e

/-- A program of the folders' API. -/
def embed (phase : Phase) : Program Access.Request Access.Request.Response α →
    Program Request Request.Response α
  | .pure a => .pure a
  | .call r k => .call (.access phase r) fun x => embed phase (k x)

def lift (phase : Phase) (p : Access.Call α) : Call α := ExceptT.mk (embed phase p.run)

/-- What calls itself too often is stopped with an exception. -/
def recursionError : Failure := .http 500 "maximum recursion depth exceeded"

section Amounts

variable (A : Arithmetic α)

/-- The quotas of one namespace. One that cannot be asked for them has none. -/
def addNamespace (totals : Amounts α) (ns : String) : Call (Amounts α) := do
  let quotas ← exceptApi (ask (.listResourceQuotas .checking ns)) fun _ => pure []
  return quotas.foldl (fun totals quota => addQuota A totals quota.hard) totals

/-- The sum of the quotas of a folder's own environments. -/
def ownEnvQuota (folderName : String) : Call (Amounts α) := do
  let namespaces ← tryCatch (do return some (← ask (.listFolder folderName))) fun _ => pure none
  match namespaces with
  | none => return zeros A
  | some namespaces => namespaces.foldlM (addNamespace A) (zeros A)

/-- What a folder's entry caps. -/
def ceilingOf (folders : Data) (folderName : String) : FolderQuota :=
  (((parseAllFolders folders).node folderName).bind Meta.quota).getD noQuota

/-- A child stands for what it declares, and in any other dimension for what is below it. -/
def addChild (declared nested : Dimension → Option α) (totals : Amounts α) : Amounts α :=
  .of fun d => A.add (totals.get d) ((declared d).getD ((nested d).getD (A.ofNat 0)))

/-- All that a folder's ceiling covers, sub-folders included. -/
def allocatedEnvQuota (folders : Data) : Nat → String → Call (Amounts α)
  | 0, _ => throw recursionError
  | depth + 1, folderName => do
    let totals ← ownEnvQuota A folderName
    (Folders.childrenIndex (parseAllFolders folders) folderName).foldlM (fun totals child => do
      let declared := limitOf A (ceilingOf folders child)
      if dimensions.any fun d => (declared d).isNone then do
        let nested ← allocatedEnvQuota folders depth child
        return addChild A declared (fun d => some (nested.get d)) totals
      else return addChild A declared (fun _ => none) totals) totals

/-- A recursion that goes deeper than there are folders never ends. -/
def depthOf (folders : Data) : Nat := folders.entries.length + 1

/-- Whether a folder caps the dimension, or where to look next. -/
def ceilingStep (folders : Data) (d : Dimension) (name : String) : Option ((String × α) ⊕ String) :=
  if name = "" then none
  else match limitOf A (ceilingOf folders name) d with
    | some limit => some (.inl (name, limit))
    | none => (((parseAllFolders folders).node name).bind Meta.parentId).map .inr

/-- The nearest folder at or above this one that caps the dimension. -/
def ceilingHolder (folders : Data) (folderName : String) (d : Dimension) : Option (String × α) :=
  walk (ceilingStep A folders d) (depthOf folders + 1) [] folderName

end Amounts

open Folders (Data Failure FolderQuota Meta given parseAllFolders)

variable {α : Type}

/-- How Python prints a text that may be missing. -/
def printed (text : Option String) : String := text.getD "None"

/-- A ceiling that has no room for a request. -/
structure Shortage (α : Type) where
  dimension : Dimension
  ceiling : Option String
  holder : String
  allocated : α
  free : α
  want : α

section Texts

variable (A : Arithmetic α) (s : Shortage α)

def Shortage.withinText (asking : String) : String :=
  s.dimension.name ++ " quota " ++ printed s.ceiling ++ " for folder '" ++ s.holder ++
    "' is already " ++ formatQuantity A s.dimension s.allocated ++ " allocated; " ++
    formatQuantity A s.dimension (floorZero A s.free) ++ " is free and " ++ asking ++
    " asks for " ++ formatQuantity A s.dimension s.want ++
    ". Lower it, or take the difference from another environment first."

def Shortage.childText (childName : String) : String :=
  s.dimension.name ++ " quota " ++ printed s.ceiling ++ " of parent folder '" ++ s.holder ++
    "' is already " ++ formatQuantity A s.dimension s.allocated ++
    " allocated to its environments and other sub-folders; " ++
    formatQuantity A s.dimension (floorZero A s.free) ++ " is free and '" ++ childName ++
    "' asks for " ++ formatQuantity A s.dimension s.want ++ "."

end Texts

section Checks

variable (A : Arithmetic α) (folders : Data)

/-- The ceilings that a request has to fit under. -/
def holdersOf (folderName : String) (quota : FolderQuota) : List (Dimension × String × α) :=
  dimensions.filterMap fun d =>
    if (limitOf A quota d).isSome then
      (ceilingHolder A folders folderName d).map fun found => (d, found)
    else none

/-- What a ceiling covers is computed once. -/
def withAllocation (allocations : List (String × Amounts α)) (holder : String) :
    Call (List (String × Amounts α)) :=
  if (allocations.lookup holder).isSome then pure allocations
  else do
    let allocated ← allocatedEnvQuota A folders (depthOf folders) holder
    return allocations ++ [(holder, allocated)]

def allocationOf (allocations : List (String × Amounts α)) (holder : String) : Amounts α :=
  (allocations.lookup holder).getD (zeros A)

/-- What a namespace holds already, if it is one that asks for a new quota. -/
def excludedQuota (excludeNamespace : Option String) : Call (Amounts α) :=
  match given excludeNamespace with
  | none => pure (zeros A)
  | some ns => addNamespace A (zeros A) ns

/-- Asking for no more than what is held already is never refused. -/
def shortageWithin (quota : FolderQuota) (allocations : List (String × Amounts α))
    (excluded : Amounts α) (found : Dimension × String × α) : Option (Shortage α) :=
  let (d, holder, limit) := found
  let want := amountOf A quota d
  let allocated := A.sub ((allocationOf A allocations holder).get d) (excluded.get d)
  let free := A.sub limit allocated
  if A.le want (A.add (excluded.get d) A.tolerance) then none
  else if A.lt (A.add free A.tolerance) want then
    some ⟨d, limitText d (ceilingOf folders holder), holder, allocated, free, want⟩
  else none

def assertWithinFolderQuota (folderName : String) (quota : FolderQuota)
    (excludeNamespace : Option String) (asking : String) : Call Unit :=
  if dimensions.all fun d => (limitOf A quota d).isNone then pure ()
  else if (holdersOf A folders folderName quota).isEmpty then pure ()
  else do
    let holders := holdersOf A folders folderName quota
    let allocations ← (holders.map fun found => found.2.1).foldlM (withAllocation A folders) []
    let excluded ← excludedQuota A excludeNamespace
    match holders.findSome? (shortageWithin A folders quota allocations excluded) with
    | none => pure ()
    | some s => throw (.http 409 (s.withinText A asking))

/-- What a ceiling covers, without what the child has declared itself. -/
def shortageChild (childName : String) (allocated : Amounts α) (d : Dimension) (holder : String)
    (limit want : α) : Option (Shortage α) :=
  let allocated := subGiven A (allocated.get d) (limitOf A (ceilingOf folders childName) d)
  let free := A.sub limit allocated
  if A.lt (A.add free A.tolerance) want then
    some ⟨d, limitText d (ceilingOf folders holder), holder, allocated, free, want⟩
  else none

/-- One dimension. The folder whose ceiling it has to fit under is where the climb begins in the
next one. -/
def checkChild (childName : String) (quota : FolderQuota)
    (state : String × List (String × Amounts α)) (d : Dimension) :
    Call (String × List (String × Amounts α)) :=
  match limitOf A quota d with
  | none => pure state
  | some want =>
    match ceilingHolder A folders state.1 d with
    | none => pure state
    | some (holder, limit) => do
      let allocations ← withAllocation A folders state.2 holder
      match shortageChild A folders childName (allocationOf A allocations holder) d holder limit
        want with
      | none => return (holder, allocations)
      | some s => throw (.http 409 (s.childText A childName))

def assertChildFolderWithinParent (childName : String) (quota : FolderQuota) : Call Unit :=
  match given (((parseAllFolders folders).node childName).bind Meta.parentId) with
  | none => pure ()
  | some parent =>
    if ((parseAllFolders folders).node parent).isNone then pure ()
    else match quota.given with
      | none => pure ()
      | some quota => do
        let _ ← dimensions.foldlM (checkChild A folders childName quota) (parent, [])

end Checks

section Validate

variable (A : Arithmetic α) {β : Type}

def valueError : Failure := .http 500 "ValueError"

def parseCpu (value : String) : Except Failure α :=
  match value.toList.reverse with
  | 'm' :: digits =>
    match A.read digits.reverse with
    | some x => .ok (A.div x (A.ofNat 1000))
    | none => .error valueError
  | _ =>
    match A.read value.toList with
    | some x => .ok x
    | none => .error valueError

def storageUnits : List (List Char × Nat) :=
  [("Ki".toList, 1024), ("Mi".toList, 1024 ^ 2), ("Gi".toList, 1024 ^ 3),
    ("Ti".toList, 1024 ^ 4), ("K".toList, 1000), ("M".toList, 1000 ^ 2), ("G".toList, 1000 ^ 3),
    ("T".toList, 1000 ^ 4)]

/-- A number of bytes. One that cannot be read is none, and an infinite one is too large. -/
def parseStorage (value : String) : Except Failure Int :=
  let bytes := match storageUnits.find? fun unit => unit.1.isSuffixOf value.toList with
    | some (unit, factor) =>
      (A.read (value.toList.take (value.toList.length - unit.length))).map fun x =>
        A.mul x (A.ofNat factor)
    | none => A.read value.toList
  match bytes.map A.int with
  | none => .ok 0
  | some .valueError => .ok 0
  | some .overflowError => .error (.http 500 "OverflowError")
  | some (.to n) => .ok n

/-- One field of a child's quota, which must not exceed its parent's. -/
def validateField (label : String) (parse : String → Except Failure β) (less : β → β → Bool)
    (child parent : Option String) : Except Failure Unit :=
  match given parent, given child with
  | some parent, some child => do
    let c ← parse child
    let p ← parse parent
    if less p c then
      throw (.http 400 ("Child " ++ label ++ " quota (" ++ child ++ ") exceeds parent (" ++
        parent ++ ")"))
    else pure ()
  | _, _ => pure ()

def validateChildQuota (child parent : FolderQuota) : Except Failure Unit := do
  validateField "CPU" (parseCpu A) A.lt child.cpu parent.cpu
  validateField "memory" (parseStorage A) (fun p c => decide (p < c)) child.memory parent.memory
  validateField "storage" (parseStorage A) (fun p c => decide (p < c)) child.storage parent.storage

end Validate

end Quotas
