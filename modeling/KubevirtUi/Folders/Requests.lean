import KubevirtUi.Folders.Tree
import KubevirtUi.Library.Crowd
import KubevirtUi.Library.Store

/-!
# Requests that change folders

All folders share one ConfigMap. A request reads it, works on what it has read, and saves
the whole metadata of one folder with a merge patch that names no version; only a
deletion writes under the version of its read.

What else a request asks of the cluster is an errand, which may fail, or be answered, in
any way.
-/

namespace Folders

open Interference

variable {ι α : Type}

/-- An `ApiException`, an `HTTPException`, or no end. -/
inductive Failure where
  | api (status : Nat)
  | http (status : Nat) (detail : String)
  | hangs
  deriving DecidableEq

/-- What has been done: a client read the ConfigMap, saved a folder, or was refused. -/
inductive Event (ι : Type) where
  | read (client : ι) (data : Data)
  | saved (client : ι) (name : String) (info : Meta)
  | refused (client : ι)

/-- The ConfigMap, and what has been done so far. -/
structure World (ι : Type) where
  clock : Nat
  configMap : Option (Versioned Data)
  log : List (Event ι)

/-- What is asked about quotas, namespaces and role bindings, or is read for an answer. -/
inductive Errand where
  | quota
  | initialQuotas
  | environments
  | namespaces
  | bindings
  | response

inductive Request where
  | readConfigMap
  | readNamespace
  | createConfigMap
  | patchConfigMap (name : String) (info : Meta)
  | replaceConfigMap (version : Nat) (data : Data)
  | errand (e : Errand)

@[reducible] def Request.Result : Request → Type
  | .readConfigMap => Versioned Data
  | .readNamespace => Unit
  | .createConfigMap => Unit
  | .patchConfigMap .. => Unit
  | .replaceConfigMap .. => Unit
  | .errand _ => Nat

abbrev Request.Response (r : Request) : Type := Except Failure r.Result

/-- Whether a request fails for a reason that has nothing to do with the ConfigMap, and
else what an errand finds. -/
structure Fault where
  failure : Option Failure := none
  answer : Nat := 0

/-- A merge patch of one folder. One that changes nothing is no write. -/
def Versioned.patch (cm : Versioned Data) (clock : Nat) (name : String) (info : Meta) :
    Versioned Data :=
  if cm.value.lookup name = some (some info) then cm
  else ⟨clock, cm.value.insert name (some info)⟩

/-- What a request that does not fail does. -/
def commit (i : ι) (answer : Nat) (w : World ι) : (r : Request) → r.Response × World ι
  | .readConfigMap =>
    match w.configMap with
    | none => (.error (.api 404), w)
    | some cm => (.ok cm, { w with log := w.log ++ [.read i cm.value] })
  | .readNamespace => (.ok (), w)
  | .createConfigMap =>
    match w.configMap with
    | none =>
      (.ok (), ⟨w.clock + 1, some ⟨w.clock + 1, ∅⟩, w.log ++ [.read i ∅]⟩)
    | some _ => (.error (.api 409), w)
  | .patchConfigMap name info =>
    match w.configMap with
    | none => (.error (.api 404), w)
    | some cm =>
      (.ok (), ⟨w.clock + 1, some (Versioned.patch cm (w.clock + 1) name info),
        w.log ++ [.saved i name info]⟩)
  | .replaceConfigMap version data =>
    match w.configMap with
    | none => (.error (.api 404), w)
    | some cm =>
      if cm.version = version then
        (.ok (), { w with clock := w.clock + 1, configMap := some ⟨w.clock + 1, data⟩ })
      else (.error (.api 409), w)
  | .errand _ => (.ok answer, w)

def serve (i : ι) (fault : Fault) (w : World ι) (r : Request) : r.Response × World ι :=
  match fault.failure with
  | none => commit i fault.answer w r
  | some e => (.error e, { w with log := w.log ++ [.refused i] })

/-- What others do: they write the ConfigMap, and leave its data as it is. -/
def act (_ : Unit) (w : World ι) : World ι :=
  { w with
    clock := w.clock + 1
    configMap := w.configMap.map fun cm => ⟨w.clock + 1, cm.value⟩ }

/-- What a request does to the world. -/
inductive Effect (i : ι) (fault : Fault) (w : World ι) : Request → World ι → Prop
  | refused {r : Request} : fault.failure ≠ none →
      Effect i fault w r { w with log := w.log ++ [.refused i] }
  | nothing {r : Request} : Effect i fault w r w
  | read {cm : Versioned Data} : w.configMap = some cm →
      Effect i fault w .readConfigMap { w with log := w.log ++ [.read i cm.value] }
  | created : w.configMap = none →
      Effect i fault w .createConfigMap
        ⟨w.clock + 1, some ⟨w.clock + 1, ∅⟩, w.log ++ [.read i ∅]⟩
  | patched {cm : Versioned Data} {name : String} {info : Meta} : fault.failure = none →
      w.configMap = some cm →
      Effect i fault w (.patchConfigMap name info)
        ⟨w.clock + 1, some (Versioned.patch cm (w.clock + 1) name info),
          w.log ++ [.saved i name info]⟩
  | replaced {cm : Versioned Data} {data : Data} : w.configMap = some cm →
      Effect i fault w (.replaceConfigMap cm.version data)
        { w with clock := w.clock + 1, configMap := some ⟨w.clock + 1, data⟩ }

theorem effect_serve (i : ι) (fault : Fault) (w : World ι) (r : Request) :
    Effect i fault w r (serve i fault w r).2 := by
  cases hfailure : fault.failure with
  | some e =>
    simp only [serve, hfailure]
    exact .refused (by simp [hfailure])
  | none =>
    simp only [serve, hfailure]
    cases r with
    | readNamespace => exact .nothing
    | errand e => exact .nothing
    | readConfigMap =>
      cases hcm : w.configMap with
      | none => simpa only [commit, hcm] using .nothing
      | some cm =>
        simpa only [commit, hcm] using (.read hcm : Effect i fault w .readConfigMap _)
    | createConfigMap =>
      cases hcm : w.configMap with
      | none => simpa only [commit, hcm] using .created hcm
      | some cm => simpa only [commit, hcm] using .nothing
    | patchConfigMap name info =>
      cases hcm : w.configMap with
      | none => simpa only [commit, hcm] using .nothing
      | some cm => simpa only [commit, hcm] using .patched hfailure hcm
    | replaceConfigMap version data =>
      cases hcm : w.configMap with
      | none => simpa only [commit, hcm] using .nothing
      | some cm =>
        by_cases hversion : cm.version = version
        · subst hversion
          simpa only [commit, hcm, if_true] using .replaced hcm
        · simpa only [commit, hcm, hversion, if_false] using .nothing

abbrev Call (α : Type) := ExceptT Failure (Program Request Request.Response) α

def ask (r : Request) : Call r.Result := ExceptT.mk (Program.ask r)

def systemNamespace : String := "kubevirt-ui-system"

/-- The data of the ConfigMap, which is created where there is none. -/
def ensureFoldersConfigmap : Call Data :=
  tryCatch (do return (← ask .readConfigMap).value) fun e =>
    if e = .api 404 then do
      tryCatch (ask .readNamespace) fun e =>
        if e = .api 404 then
          throw (.http 503 ("System namespace '" ++ systemNamespace ++ "' does not exist. " ++
            "It should be created during cluster bootstrap."))
        else throw e
      ask .createConfigMap
      return ∅
    else throw e

def saveFolderMeta (name : String) (info : Meta) : Call Unit :=
  ask (.patchConfigMap name info)

def deleteFolderMeta (name : String) : Call Unit := do
  let cm ← ask .readConfigMap
  ask (.replaceConfigMap cm.version (cm.value.erase name))

/-- A name that is given and not empty. -/
def given : Option String → Option String
  | some s => if s = "" then none else some s
  | none => none

/-- A quota that caps something. -/
def FolderQuota.given (q : FolderQuota) : Option FolderQuota :=
  if q = ⟨none, none, none⟩ then none else some q

structure FolderCreateRequest where
  name : String
  displayName : String
  description : String
  parentId : Option String
  quota : Option FolderQuota
  name_ne : name ≠ "" := by decide

structure FolderUpdateRequest where
  displayName : Option String
  description : Option String
  quota : Option FolderQuota

/-- The quota of a folder, if it caps something. -/
def quotaOf (folders : Tree) (name : String) : Option FolderQuota :=
  (folders.node name).bind fun info => info.quota.bind FolderQuota.given

/-- Whether the parent of a new folder is there, and has room for it. -/
def checkParent (folders : Tree) (folder : FolderCreateRequest) : Call Unit :=
  match given folder.parentId with
  | none => pure ()
  | some parent =>
    if (folders.node parent).isNone then
      throw (.http 404 ("Parent folder '" ++ parent ++ "' not found"))
    else if folder.quota.isSome ∧ (quotaOf folders parent).isSome then do
      let _ ← ask (.errand .quota)
    else pure ()

def createFolder (folder : FolderCreateRequest) (email now : String) : Call Unit := do
  let folders := parseAllFolders (← ensureFoldersConfigmap)
  if (folders.node folder.name).isSome then
    throw (.http 409 ("Folder '" ++ folder.name ++ "' already exists"))
  else do
    checkParent folders folder
    let _ ← ask (.errand .initialQuotas)
    saveFolderMeta folder.name
      { displayName := some folder.displayName
        description := some folder.description
        parentId := folder.parentId
        createdBy := some email
        createdAt := some now
        quota := folder.quota }
    let _ ← ensureFoldersConfigmap
    let _ ← ask (.errand .environments)

def getFolder (name : String) : Call Unit := do
  let folders := parseAllFolders (← ensureFoldersConfigmap)
  if (folders.node name).isNone then throw (.http 404 "Folder not found")
  else do
    let _ ← ask (.errand .response)

def FolderUpdateRequest.apply (update : FolderUpdateRequest) (info : Meta) : Meta :=
  { info with
    displayName := update.displayName <|> info.displayName
    description := update.description <|> info.description
    quota := match update.quota with
      | none => info.quota
      | some q => q.given }

/-- A new quota has to fit into what is above. -/
def checkQuota (quota : Option FolderQuota) : Call Unit :=
  if quota.isSome then do
    let _ ← ask (.errand .quota)
  else pure ()

def updateFolder (name : String) (update : FolderUpdateRequest) : Call Unit := do
  let folders := parseAllFolders (← ensureFoldersConfigmap)
  match folders.node name with
  | none => throw (.http 404 "Folder not found")
  | some info => do
    checkQuota update.quota
    saveFolderMeta name (update.apply info)
    getFolder name

def moveFolder (name : String) (newParentId : Option String) : Call Unit := do
  let folders := parseAllFolders (← ensureFoldersConfigmap)
  match folders.node name with
  | none => throw (.http 404 "Folder not found")
  | some info =>
    if ∃ p ∈ given newParentId, (folders.node p).isNone then
      throw (.http 404 ("Target parent '" ++ newParentId.getD "" ++ "' not found"))
    else match wouldCreateCycle folders name newParentId with
      | none => throw .hangs
      | some true => throw (.http 400 "Cannot move folder under its own descendant")
      | some false => do
        saveFolderMeta name { info with parentId := newParentId }
        getFolder name

/-- Remove folders one after the other. -/
def deleteAll : List String → Call Unit
  | [] => pure ()
  | fname :: rest => do
    deleteFolderMeta fname
    deleteAll rest

/-- What keeps a folder from being deleted on its own. -/
def checkEmpty (descendants : List String) : Call Unit :=
  if descendants ≠ [] then
    throw (.http 409 ("Folder has " ++ toString descendants.length ++
      " child folder(s). Use cascade=true to delete all."))
  else do
    let environments ← ask (.errand .namespaces)
    if environments ≠ 0 then
      throw (.http 409 ("Folder has " ++ toString environments ++
        " environment(s). Remove them first or use cascade=true."))
    else pure ()

def deleteFolder (name : String) (cascade : Bool) : Call Unit := do
  let folders := parseAllFolders (← ensureFoldersConfigmap)
  if (folders.node name).isNone then throw (.http 404 "Folder not found")
  else match getDescendantNames folders name with
    | none => throw .hangs
    | some descendants => do
      (if cascade then pure () else checkEmpty descendants)
      deleteAll (descendants ++ [name])

inductive Scope where
  | folder
  | environment (name : Option String)

structure AddFolderAccessRequest where
  type : String
  name : String
  role : String
  scope : Scope

structure FolderAccessPatchRequest where
  admins : Option (List String)
  members : Option (List String)
  viewers : Option (List String)
  envAccess : Option (List (String × FolderEnvAccessSpec))

/-- Replace one character by a text, everywhere. -/
def replaceChar (c : Char) (text s : String) : String :=
  String.ofList (s.toList.flatMap fun d => if d = c then text.toList else [d])

namespace AddFolderAccessRequest

variable (access : AddFolderAccessRequest)

def bindingName : String :=
  access.type ++ "-" ++ replaceChar '.' "-" (replaceChar '@' "-at-" access.name) ++ "-" ++
    access.role

def entry : AccessEntry := ⟨access.type, access.name, access.role, access.bindingName⟩

/-- Nothing changes where there is a grant of that name. -/
def apply (info : Meta) : Meta :=
  if info.accessEntries.any fun e => e.bindingName = access.bindingName then info
  else { info with accessEntries := info.accessEntries ++ [access.entry] }

end AddFolderAccessRequest

def FolderAccessPatchRequest.apply (patch : FolderAccessPatchRequest) (info : Meta) : Meta :=
  let current := info.access.getD ⟨[], [], [], []⟩
  { info with
    access := some
      { admins := patch.admins.getD current.admins
        members := patch.members.getD current.members
        viewers := patch.viewers.getD current.viewers
        envAccess := patch.envAccess.getD current.envAccess } }

def withoutBinding (bindingId : String) (info : Meta) : Meta :=
  { info with
    accessEntries := info.accessEntries.filter fun e => e.bindingName ≠ bindingId }

/-- Keep the grant with the folder, unless it is there. -/
def saveEntry (name : String) (access : AddFolderAccessRequest) (info : Meta) : Call Unit :=
  if info.accessEntries.any fun e => e.bindingName = access.bindingName then pure ()
  else saveFolderMeta name (access.apply info)

def addFolderAccess (name : String) (access : AddFolderAccessRequest) : Call Unit := do
  let folders := parseAllFolders (← ensureFoldersConfigmap)
  match folders.node name with
  | none => throw (.http 404 "Folder not found")
  | some info =>
    match access.scope with
    | .environment env =>
      match given env with
      | none => throw (.http 400 "environment is required for environment-scope access")
      | some _ => do
        let _ ← ask (.errand .bindings)
    | .folder => do
      saveEntry name access info
      match getDescendantNames folders name with
      | none => throw .hangs
      | some _ => pure ()

def patchFolderAccess (name : String) (patch : FolderAccessPatchRequest) : Call Unit := do
  let folders := parseAllFolders (← ensureFoldersConfigmap)
  match folders.node name with
  | none => throw (.http 404 "Folder not found")
  | some info => do
    saveFolderMeta name (patch.apply info)
    let _ ← ask (.errand .bindings)

def removeFolderAccess (name bindingId : String) : Call Unit := do
  let folders := parseAllFolders (← ensureFoldersConfigmap)
  match getDescendantNames folders name with
  | none => throw .hangs
  | some _ => do
    let deleted ← ask (.errand .bindings)
    match folders.node name with
    | some info =>
      if (withoutBinding bindingId info).accessEntries.length ≠ info.accessEntries.length then
        saveFolderMeta name (withoutBinding bindingId info)
      else if deleted = 0 then throw (.http 404 "Access entry not found")
      else pure ()
    | none =>
      if deleted = 0 then throw (.http 404 "Access entry not found")
      else pure ()

/-- A request that edits the metadata of one folder. -/
inductive Edit where
  | update (name : String) (request : FolderUpdateRequest)
  | grant (name : String) (access : AddFolderAccessRequest)
  | patchAccess (name : String) (patch : FolderAccessPatchRequest)
  | revoke (name bindingId : String)

namespace Edit

def program : Edit → Call Unit
  | .update name request => updateFolder name request
  | .grant name access => addFolderAccess name access
  | .patchAccess name patch => patchFolderAccess name patch
  | .revoke name bindingId => removeFolderAccess name bindingId

end Edit

inductive Op where
  | create (folder : FolderCreateRequest) (email now : String)
  | move (name : String) (newParentId : Option String)
  | delete (name : String) (cascade : Bool)
  | edit (e : Edit)

/-- What is there before the first request. -/
structure Snapshot where
  clock : Nat
  configMap : Option (Versioned Data)
  timely : ∀ cm, configMap = some cm → cm.version ≤ clock

def Snapshot.world (s : Snapshot) : World ι := ⟨s.clock, s.configMap, []⟩

def Op.program : Op → Call Unit
  | .create folder email now => createFolder folder email now
  | .move name newParentId => moveFolder name newParentId
  | .delete name cascade => deleteFolder name cascade
  | .edit e => e.program

/-- Any number of requests, none of which has asked for anything yet. -/
def start (s : Snapshot) (ops : ι → Op) :
    Crowd (World ι) Request Request.Response ι (Except Failure Unit) :=
  ⟨s.world, fun i => (ops i).program.run⟩

end Folders
