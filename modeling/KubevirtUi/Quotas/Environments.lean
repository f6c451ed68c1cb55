import KubevirtUi.Quotas.Ceilings

/-!
# Environments and folders with quotas

An environment is added to a folder, and its siblings may be cut back for it first; they are given
back what they had if it cannot be made. A folder is made together with its first environments,
which are checked against its own ceiling as a whole before anything is made.
-/

namespace Quotas

open Access (Kind QuotaReallocation Reallocated fillEnvironment mergeQuota nsName quotaHard
  saveFolderMeta undoReallocation withQuota writeEnvQuota)
open Folders (Data Failure FolderQuota Meta getAncestorChain given parseAllFolders)
open Interference
open Tenant (Dimension dimensions)

variable {α : Type} (A : Arithmetic α)

/-- What the quotas of a namespace say; the last that says something counts. -/
def readEnvQuota (phase : Phase) (ns : String) : Call FolderQuota := do
  let quotas ← exceptApi (ask (.listResourceQuotas phase ns)) fun _ => pure []
  return quotas.foldl (fun out quota => mergeQuota out (quotaHard quota.hard)) noQuota

/-- `used[field] = max(used[field], value)`, if there is a value and it is not zero. -/
def maxGiven (used : α) (value : Option α) : α :=
  match value with
  | some x => if A.isZero x then used else if A.lt used x then x else used
  | none => used

def envQuotaUsed (ns : String) : Call (Amounts α) := do
  let quotas ← exceptApi (ask (.listResourceQuotas .checking ns)) fun _ => pure []
  return quotas.foldl (fun used quota =>
    .of fun d => maxGiven A (used.get d) (limitOf A quota.used d)) (zeros A)

/-- What a sibling cannot be cut below. -/
def floorOf (folders : Data) (folderName : String) (item : QuotaReallocation) : Call (Amounts α) :=
  match item.kind with
  | .folder => allocatedEnvQuota A folders (depthOf folders) item.source
  | .environment => envQuotaUsed A (nsName folderName item.source)

def whereText (item : QuotaReallocation) : String :=
  match item.kind with
  | .folder => "sub-folder '" ++ item.source ++ "'"
  | .environment => "environment '" ++ item.source ++ "'"

/-- The dimension in which a sibling holds more than it is to be left with. -/
def belowUse (item : QuotaReallocation) (floor : Amounts α) (d : Dimension) : Option String :=
  match limitOf A item.quota d with
  | none => none
  | some want =>
    if A.lt (A.add want A.tolerance) (floor.get d) then
      some (whereText item ++ " is using " ++ formatQuantity A d (floor.get d) ++ " of " ++
        d.name ++ " already; it cannot be cut to " ++ formatQuantity A d want ++ ".")
    else none

def assertNotBelowUse (folders : Data) (folderName : String) (item : QuotaReallocation) :
    Call Unit := do
  let floor ← floorOf A folders folderName item
  match dimensions.findSome? (belowUse A item floor) with
  | none => pure ()
  | some text => throw (.http 409 text)

/-- Cut one sibling back. A field that was left out keeps its value. -/
def applyReallocation (folderName : String) (done : Reallocated) (item : QuotaReallocation) :
    Call Reallocated := do
  let (folders, undo) := done
  assertNotBelowUse A folders folderName item
  match item.kind with
  | .folder =>
    match (parseAllFolders folders).node item.source with
    | none => throw (.http 404 ("Sub-folder '" ++ item.source ++ "' not found"))
    | some info => do
      let current := info.quota.getD noQuota
      let changed := withQuota info (mergeQuota current item.quota)
      lift .shrinking (saveFolderMeta item.source changed)
      return (folders.insert item.source (some changed), undo ++ [(item, current)])
  | .environment => do
    let ns := nsName folderName item.source
    let current ← readEnvQuota .shrinking ns
    lift .shrinking (writeEnvQuota ns (mergeQuota current item.quota))
    return (folders, undo ++ [(item, current)])

def applyReallocations (folders : Data) (folderName : String)
    (reallocate : List QuotaReallocation) : Call Reallocated :=
  reallocate.foldlM (applyReallocation A folderName) (folders, [])

def undoReallocations (folders : Data) (folderName : String)
    (undo : List (QuotaReallocation × FolderQuota)) : Call Unit :=
  lift .restoring (undo.reverse.forM (undoReallocation folders folderName))

/-- What was read of each source, be it an environment or a folder. -/
abbrev Before := AList fun _ : String => FolderQuota

def readBefore (folders : Data) (name : String) (before : Before) (item : QuotaReallocation) :
    Call Before :=
  match item.kind with
  | .folder => pure (before.insert item.source (ceilingOf folders item.source))
  | .environment => do
    let current ← readEnvQuota .checking (nsName name item.source)
    return before.insert item.source current

/-- What will be covered once the siblings have been cut back. -/
def planFrees (allocated : Amounts α) (reallocate : List QuotaReallocation) (before : Before) :
    Amounts α :=
  reallocate.foldl (fun out item =>
    .of fun d => A.add (out.get d)
      (A.sub (amountOf A item.quota d)
        (amountOf A ((before.lookup item.source).getD noQuota) d))) allocated

/-- The dimension in which there is no room even then. -/
def planShortage (name : String) (ceiling quota : FolderQuota) (planned : Amounts α)
    (d : Dimension) : Option String :=
  match limitOf A quota d, limitOf A ceiling d with
  | some want, some limit =>
    let free := A.sub limit (planned.get d)
    if A.lt (A.add free A.tolerance) want then
      some ("Even after the reallocation the " ++ d.name ++ " ceiling " ++
        printed (limitText d ceiling) ++ " of '" ++ name ++ "' leaves " ++ A.general free ++
        " free and this environment asks for " ++ A.general want ++ ".")
    else none
  | _, _ => none

def checkPlan (folders : Data) (name : String) (quota : FolderQuota)
    (reallocate : List QuotaReallocation) (before : Before) : Call Unit :=
  if reallocate = [] then pure ()
  else do
    let allocated ← allocatedEnvQuota A folders (depthOf folders) name
    let planned := planFrees A allocated reallocate before
    match dimensions.findSome? (planShortage A name (ceilingOf folders name) quota planned) with
    | none => pure ()
    | some text => throw (.http 409 text)

structure FolderEnvironmentResponse where
  name : String
  environment : String
  folder : String
  quota : FolderQuota

def createNamespace (folderName environment : String) : Call Unit :=
  exceptApi
    (ask (.access .checking (.createNamespace (nsName folderName environment)
      { enabled := some "true"
        managed := some "true"
        folder := some folderName
        environment := some environment })))
    fun status =>
      if status = 409 then
        throw (.http 409 ("Environment '" ++ nsName folderName environment ++ "' already exists"))
      else throw (.http status "")

def createEnvironmentNs (folders : Data) (folderName environment : String)
    (quota : FolderQuota) : Call FolderEnvironmentResponse := do
  assertWithinFolderQuota A folders folderName quota none "this environment"
  createNamespace folderName environment
  lift .making (fillEnvironment folders folderName environment quota)
  return ⟨nsName folderName environment, environment, folderName, quota⟩

structure AddFolderEnvironmentRequest where
  environment : String
  quota : FolderQuota
  reallocate : List QuotaReallocation

def ensureFoldersConfigmap : Call Data := lift .checking Access.ensureFoldersConfigmap

def addEnvironment (name : String) (env : AddFolderEnvironmentRequest) :
    Call FolderEnvironmentResponse := do
  let data ← ensureFoldersConfigmap
  if ((parseAllFolders data).node name).isNone then throw (.http 404 "Folder not found")
  else do
    let before ← env.reallocate.foldlM (readBefore data name) ∅
    checkPlan A data name env.quota env.reallocate before
    let (folders, undo) ← applyReallocations A data name env.reallocate
    tryCatch (createEnvironmentNs A folders name env.environment env.quota) fun e => do
      undoReallocations folders name undo
      throw e

/-- What a folder's ceiling still has free, in each dimension that it caps. -/
structure Headroom (α : Type) where
  quota : Option FolderQuota
  allocated : Amounts α
  free : Amounts (Option α)

def getFolderQuotaHeadroom (name : String) : Call (Headroom α) := do
  let data ← ensureFoldersConfigmap
  if ((parseAllFolders data).node name).isNone then throw (.http 404 "Folder not found")
  else do
    let ceiling := ceilingOf data name
    let allocated ← allocatedEnvQuota A data (depthOf data) name
    return {
      quota := ceiling.given
      allocated := allocated
      free := .of fun d => (limitOf A ceiling d).map fun limit =>
        clamp A (A.sub limit (allocated.get d)) }

structure FolderCreateRequest extends Folders.FolderCreateRequest where
  environments : List String
  environmentQuotas : AList fun _ : String => FolderQuota

/-- The dimension in which the first environments together overrun the folder's own ceiling. -/
def initialShortage (ceiling : FolderQuota) (totals : Amounts α) (d : Dimension) : Option String :=
  match limitOf A ceiling d with
  | none => none
  | some limit =>
    if A.lt (A.add limit A.tolerance) (totals.get d) then
      some ("the initial environments ask for " ++ formatQuantity A d (totals.get d) ++ " of " ++
        d.name ++ ", more than the folder ceiling " ++ formatQuantity A d limit ++ ".")
    else none

def assertInitialEnvsFit (folder : FolderCreateRequest) : Call Unit :=
  match folder.quota with
  | none => pure ()
  | some ceiling =>
    if folder.environmentQuotas.entries = [] then pure ()
    else
      let totals := folder.environmentQuotas.entries.foldl
        (fun totals env => addQuota A totals env.2) (zeros A)
      match dimensions.findSome? (initialShortage A ceiling totals) with
      | none => pure ()
      | some text => throw (.http 409 text)

/-- Whether the parent of a new folder is there, and has room for it. -/
def checkParent (folders : Data) (folder : FolderCreateRequest) : Call Unit :=
  match given folder.parentId with
  | none => pure ()
  | some parent =>
    if ((parseAllFolders folders).node parent).isNone then
      throw (.http 404 ("Parent folder '" ++ parent ++ "' not found"))
    else
      match folder.quota, (ceilingOf folders parent).given with
      | some quota, some parentQuota =>
        match validateChildQuota A quota parentQuota with
        | .error e => throw e
        | .ok () => assertChildFolderWithinParent A
            (folders.insert folder.name (some { parentId := folder.parentId })) folder.name quota
      | _, _ => pure ()

def createEnvironments (folders : Data) (folder : FolderCreateRequest) :
    List String → Call (List FolderEnvironmentResponse)
  | [] => pure []
  | environment :: rest => do
    let env ← createEnvironmentNs A folders folder.name environment
      ((folder.environmentQuotas.lookup environment).getD noQuota)
    return env :: (← createEnvironments folders folder rest)

structure FolderResponse where
  name : String
  info : Meta
  path : List String
  environments : List FolderEnvironmentResponse

def FolderCreateRequest.info (folder : FolderCreateRequest) (email now : String) : Meta where
  displayName := some folder.displayName
  description := some folder.description
  parentId := folder.parentId
  createdBy := some email
  createdAt := some now
  quota := folder.quota

def createFolder (folder : FolderCreateRequest) (email now : String) : Call FolderResponse := do
  let data ← ensureFoldersConfigmap
  if ((parseAllFolders data).node folder.name).isSome then
    throw (.http 409 ("Folder '" ++ folder.name ++ "' already exists"))
  else do
    checkParent A data folder
    assertInitialEnvsFit A folder
    lift .checking (saveFolderMeta folder.name (folder.info email now))
    let folders ← ensureFoldersConfigmap
    let environments ← createEnvironments A folders folder folder.environments
    match getAncestorChain (parseAllFolders folders) folder.name with
    | none => throw .hangs
    | some path => return ⟨folder.name, folder.info email now, path, environments⟩

end Quotas
