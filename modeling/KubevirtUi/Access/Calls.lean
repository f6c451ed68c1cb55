import KubevirtUi.Access.Bindings

/-!
# What can be asked of a folder

Environments are namespaces under the name of the folder and their own, with a hyphen between.
The calls of a folder's admin make and take them away, cap them, move room between them and the
folders below, and grant roles. A tenant gets a namespace of its own, with the labels of the folder
that it belongs to; a creation that fails deletes it.
-/

namespace Access

open Folders (Meta Data Failure FolderQuota parseAllFolders getDescendantNames systemNamespace
  given wouldCreateCycle AddFolderAccessRequest FolderAccessPatchRequest Scope withoutBinding)
open Interference

/-- The data of the ConfigMap, which is created where there is none. -/
def ensureFoldersConfigmap : Call Data :=
  exceptApi (ask .readConfigMap) fun status =>
    if status = 404 then do
      exceptApi (ask .readSystemNamespace) fun status =>
        if status = 404 then
          throw (.http 503 ("System namespace '" ++ systemNamespace ++ "' does not exist. " ++
            "It should be created during cluster bootstrap."))
        else throw (.api status)
      ask .createConfigMap
      return ∅
    else throw (.api status)

def saveFolderMeta (name : String) (info : Meta) : Call Unit := ask (.patchConfigMap name info)

def loadFolder (folderName : String) : Call Meta := do
  let data ← exceptApi (ask .readConfigMap) fun status =>
    if status = 404 then throw (.http 404 "No folders configured") else throw (.api status)
  match (parseAllFolders data).node folderName with
  | none => throw (.http 404 ("Folder '" ++ folderName ++ "' not found"))
  | some info => return info

def requireFolderAdmin (settings : Settings) (user : User) (name : String) : Call Unit := do
  let info ← loadFolder name
  if isFolderAdmin settings user info then pure ()
  else throw (.http 403 "Folder admin role required")

inductive Kind where
  | environment
  | folder
  deriving DecidableEq

/-- Room taken from a sibling, with what the sibling is to keep. -/
structure QuotaReallocation where
  source : String
  kind : Kind
  quota : FolderQuota

/-- Whether anything is asked for. -/
def asks (quota : FolderQuota) : Prop :=
  (given quota.cpu).isSome ∨ (given quota.memory).isSome ∨ (given quota.storage).isSome

instance (quota : FolderQuota) : Decidable (asks quota) := inferInstanceAs (Decidable (_ ∨ _ ∨ _))

/-- What is given of a quota. -/
def quotaHard (quota : FolderQuota) : FolderQuota :=
  ⟨given quota.cpu, given quota.memory, given quota.storage⟩

/-- A field that was left out keeps its value. -/
def mergeQuota (current asked : FolderQuota) : FolderQuota :=
  ⟨asked.cpu.or current.cpu, asked.memory.or current.memory, asked.storage.or current.storage⟩

/-- A refusal, where quotas do not allow what is asked. -/
def assertFits : Call Unit := do
  if ← ask .fits then pure () else throw (.http 409 "quota")

/-- What the quotas of a namespace say; the last that says something counts. -/
def readEnvQuota (ns : String) : Call FolderQuota := do
  let quotas ← exceptApi (ask (.listQuotas ns)) fun _ => pure []
  return quotas.foldl (fun out quota => mergeQuota out (quotaHard quota)) ⟨none, none, none⟩

def quotaName (ns : String) : String := ns ++ "-quota"

/-- A quota that caps nothing is deleted. -/
def writeEnvQuota (ns : String) (quota : FolderQuota) : Call Unit :=
  if asks quota then
    exceptApi (ask (.replaceQuota ns (quotaName ns) (quotaHard quota))) fun status =>
      if status = 404 then ask (.createQuota ns (quotaName ns) (quotaHard quota))
      else throw (.api status)
  else
    exceptApi (ask (.deleteQuota ns (quotaName ns))) fun status =>
      if status = 404 then pure () else throw (.api status)

/-- The metadata of a folder with another quota, if it caps something. -/
def withQuota (info : Meta) (quota : FolderQuota) : Meta :=
  { info with quota := (quotaHard quota).given }

/-- What has been read of the folders and changed since, and what the sources held before. -/
abbrev Reallocated := Data × List (QuotaReallocation × FolderQuota)

def applyReallocation (folderName : String) (done : Reallocated) (item : QuotaReallocation) :
    Call Reallocated := do
  let (folders, undo) := done
  assertFits
  match item.kind with
  | .folder =>
    match (parseAllFolders folders).node item.source with
    | none => throw (.http 404 ("Sub-folder '" ++ item.source ++ "' not found"))
    | some info => do
      let current := info.quota.getD ⟨none, none, none⟩
      let changed := withQuota info (mergeQuota current item.quota)
      saveFolderMeta item.source changed
      return (folders.insert item.source (some changed), undo ++ [(item, current)])
  | .environment => do
    let current ← readEnvQuota (nsName folderName item.source)
    writeEnvQuota (nsName folderName item.source) (mergeQuota current item.quota)
    return (folders, undo ++ [(item, current)])

def undoReallocation (folders : Data) (folderName : String)
    (undo : QuotaReallocation × FolderQuota) : Call Unit :=
  let (item, previous) := undo
  tryCatch
    (match item.kind with
      | .folder =>
        saveFolderMeta item.source
          { ((parseAllFolders folders).node item.source).getD {} with
            quota := previous.given }
      | .environment => writeEnvQuota (nsName folderName item.source) previous)
    fun e => if e = .hangs then throw e else pure ()

/-- What is logged and passed over. -/
def passing (body : Call Unit) : Call Unit := exceptApi body fun _ => pure ()

/-- What a new namespace is given: its quota, the grants above it, and the access block. -/
def fillEnvironment (folders : Data) (folderName environment : String) (quota : FolderQuota) :
    Call Unit := do
  let ns := nsName folderName environment
  if asks quota then do
    passing (ask (.createQuota ns (quotaName ns) (quotaHard quota)))
    passing (ask (.createLimitRange ns))
  propagateFolderAccess folders folderName ns
  reconcileEnvRbac folderName environment (((parseAllFolders folders).node folderName).getD {})

def createEnvironmentNs (folders : Data) (folderName environment : String)
    (quota : FolderQuota) : Call Unit := do
  let ns := nsName folderName environment
  if quota = ⟨none, none, none⟩ then pure () else assertFits
  exceptApi
    (ask (.createNamespace ns
      { enabled := some "true"
        managed := some "true"
        folder := some folderName
        environment := some environment }))
    fun status =>
      if status = 409 then throw (.http 409 ("Environment '" ++ ns ++ "' already exists"))
      else throw (.http status "")
  fillEnvironment folders folderName environment quota

structure AddFolderEnvironmentRequest where
  environment : String
  quota : FolderQuota
  reallocate : List QuotaReallocation

def addEnvironment (name : String) (env : AddFolderEnvironmentRequest) : Call Unit := do
  let data ← ensureFoldersConfigmap
  if ((parseAllFolders data).node name).isNone then throw (.http 404 "Folder not found")
  else do
    if env.reallocate = [] then pure () else assertFits
    let (folders, undo) ← env.reallocate.foldlM (applyReallocation name) (data, [])
    tryCatch (createEnvironmentNs folders name env.environment env.quota) fun e => do
      if e = .hangs then throw e
      else do
        undo.reverse.forM (undoReallocation folders name)
        throw e

def setEnvironmentQuota (name environment : String) (quota : FolderQuota) : Call Unit := do
  let data ← ensureFoldersConfigmap
  if ((parseAllFolders data).node name).isNone then throw (.http 404 "Folder not found")
  else do
    let _ ← exceptApi (ask (.readNamespace (nsName name environment))) fun status =>
      if status = 404 then
        throw (.http 404 ("Environment '" ++ environment ++ "' not found"))
      else throw (.api status)
    if quota = ⟨none, none, none⟩ then pure () else assertFits
    writeEnvQuota (nsName name environment) quota

def removeEnvironment (name environment : String) : Call Unit := do
  let data ← ensureFoldersConfigmap
  if ((parseAllFolders data).node name).isNone then throw (.http 404 "Folder not found")
  else
    exceptApi
      (do
        let labels ← ask (.readNamespace (nsName name environment))
        if labels.managed ≠ some "true" ∨ labels.folder ≠ some name then
          throw (.http 403 "Namespace not managed by this folder")
        else ask (.deleteNamespace (nsName name environment)))
      fun status =>
        if status = 404 then throw (.http 404 "Environment not found")
        else throw (.http status "")

/-- The namespaces of a folder and of all folders below. -/
def getDescendantNamespaces (folders : Data) (folderName : String) :
    Call (List (String × Labels)) :=
  match getDescendantNames (parseAllFolders folders) folderName with
  | none => throw .hangs
  | some names =>
    (folderName :: names).foldlM (fun all f => do return all ++ (← getFolderNamespaces f)) []

def Scope.text : Scope → String
  | .folder => "folder"
  | .environment _ => "environment"

/-- Keep the grant with the folder, unless one of its name is there. -/
def saveEntry (name : String) (access : AddFolderAccessRequest) (info : Meta) : Call Unit :=
  if info.accessEntries.any fun e => e.bindingName = access.bindingName then pure ()
  else saveFolderMeta name (access.apply info)

def addFolderAccess (name : String) (access : AddFolderAccessRequest) : Call Unit := do
  let data ← ensureFoldersConfigmap
  match (parseAllFolders data).node name with
  | none => throw (.http 404 "Folder not found")
  | some info =>
    match roleToClusterRole access.role with
    | none => throw (.http 400 ("Invalid role: " ++ access.role))
    | some clusterRole => do
      let body := grantBody name (Scope.text access.scope) access.type access.name clusterRole
      match access.scope with
      | .environment env =>
        match given env with
        | none => throw (.http 400 "environment is required for environment-scope access")
        | some env =>
          exceptApi (ask (.createBinding (nsName name env) access.bindingName body)) fun status =>
            if status = 409 then throw (.http 409 "Access already exists")
            else throw (.http status "")
      | .folder => do
        saveEntry name access info
        let all ← getDescendantNamespaces data name
        all.forM fun item => passing (ask (.createBinding item.1 access.bindingName body))

def patchFolderAccess (name : String) (patch : FolderAccessPatchRequest) : Call Unit := do
  let data ← ensureFoldersConfigmap
  match (parseAllFolders data).node name with
  | none => throw (.http 404 "Folder not found")
  | some info => do
    saveFolderMeta name (patch.apply info)
    reconcileFolderRbac name (patch.apply info)

/-- A managed binding of this name is deleted. -/
def removeBinding (bindingId : String) (deleted : Bool) (item : String × Labels) : Call Bool :=
  exceptApi
    (do
      let binding ← ask (.readBinding item.1 bindingId)
      if binding.value.labels.managed = some "true" then do
        ask (.deleteBinding item.1 bindingId)
        return true
      else return deleted)
    fun _ => pure deleted

/-- The grants of this name are taken out of what a folder keeps. -/
def removeEntries (name bindingId : String) (info : Option Meta) (deleted : Bool) : Call Bool :=
  match info with
  | none => pure deleted
  | some info =>
    if (withoutBinding bindingId info).accessEntries.length ≠ info.accessEntries.length then do
      saveFolderMeta name (withoutBinding bindingId info)
      return true
    else pure deleted

def removeFolderAccess (name bindingId : String) : Call Unit := do
  let data ← ensureFoldersConfigmap
  let all ← getDescendantNamespaces data name
  let deleted ← all.foldlM (removeBinding bindingId) false
  let deleted ← removeEntries name bindingId ((parseAllFolders data).node name) deleted
  if deleted then pure () else throw (.http 404 "Access entry not found")

def namespaceExists (ns : String) : Call Bool :=
  exceptApi (do
      let _ ← ask (.readNamespace ns)
      return true)
    fun status => if status = 404 then pure false else throw (.api status)

/-- The namespace of a tenant, what is made in it, and bindings for those whom the folder's block
admits. -/
def buildTenant (tenant folder environment : String) (info : Meta) : Call Unit := do
  let ns := "tenant-" ++ tenant
  let _ ← ensureFoldersConfigmap
  assertFits
  ask (.createNamespace ns
    { enabled := some "true"
      managed := some "true"
      folder := given (some folder)
      environment := given (some environment)
      tenant := some tenant })
  ask (.fillTenant ns)
  tryCatch (reconcileNamespaceRbac ns folder environment info) fun e =>
    if e = .hangs then throw e else pure ()
  ask (.fillTenant ns)

/-- A tenant that is not built to its end has its namespace deleted, whoever made it. Who may build
one is left out, and so is what is refused for its addresses and its network. -/
def createTenant (tenant folder environment : String) : Call Unit := do
  let info ← loadFolder folder
  let items ← ask (.listNamespaces folder)
  if environment ∉ items.filterMap fun item => given item.2.environment then
    throw (.http 400 ("Environment '" ++ environment ++ "' does not exist in folder '" ++
      folder ++ "'"))
  else do
    let standing ← namespaceExists ("tenant-" ++ tenant)
    if standing then throw (.http 409 ("Tenant '" ++ tenant ++ "' already exists"))
    else
      tryCatch (buildTenant tenant folder environment info) fun e =>
        if e = .hangs then throw e
        else do
          passing (ask (.deleteNamespace ("tenant-" ++ tenant)))
          throw e

end Access
