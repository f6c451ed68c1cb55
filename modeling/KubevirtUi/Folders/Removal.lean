import KubevirtUi.Access.Cluster
import KubevirtUi.Folders.Requests

/-!
# Folders and their environments

The environments of a folder are namespaces that carry its name as a label, and nothing but
the label ties them to it. To delete a folder is to delete the namespaces found under it, one
by one, and then its entry in the ConfigMap; a cascade does so folder by folder, a folder before
the folders below it.

A request that fails may have taken effect all the same.
-/

namespace Folders.Removal

open Access (Labels)
open Interference

variable {ι α : Type}

/-- What has been done with the folders: a client has read them, or changed something. -/
inductive Deed (ι : Type) where
  | read (client : ι) (data : Data)
  | wrote (client : ι)

def Deed.client : Deed ι → ι
  | .read i _ => i
  | .wrote i => i

def Deed.isWrite : Deed ι → Bool
  | .read .. => false
  | .wrote _ => true

/-- The ConfigMap and the namespaces; the folders whose entries have been removed, and who has
removed the last one, with those that it has yet to remove; and what has been done. -/
structure World (ι : Type) where
  folders : Folders.World ι
  namespaces : AList fun _ : String => Labels
  removed : List String
  half : Option (ι × List String)
  log : List (Deed ι)

/-- What can be asked. The removal of an entry says which one it is, and which are to follow, and
the listing whether it is for a deletion: that is seen by nobody. -/
inductive Request where
  | folders (r : Folders.Request)
  | removeEntry (folder : String) (version : Nat) (data : Data) (rest : List String)
  | listNamespaces (folder : String) (deleting : Bool)
  | createNamespace (name : String) (labels : Labels)
  | deleteNamespace (name : String)

@[reducible] def Request.Result : Request → Type
  | .folders r => r.Result
  | .removeEntry .. => Unit
  | .listNamespaces .. => List (String × Labels)
  | .createNamespace .. => Unit
  | .deleteNamespace _ => Unit

abbrev Request.Response (r : Request) : Type := Except Failure r.Result

/-- Whether a request changes anything when it is carried out. -/
def Request.changes : Request → Bool
  | .folders r =>
    match r with
    | .createConfigMap | .patchConfigMap .. | .replaceConfigMap .. => true
    | .readConfigMap | .readNamespace | .errand _ => false
  | .listNamespaces .. => false
  | .removeEntry .. | .createNamespace .. | .deleteNamespace _ => true

/-- Whether a request fails, and whether it has taken effect then, and else what an errand
finds. -/
structure Fault where
  failure : Option Failure := none
  done : Bool := false
  answer : Nat := 0

/-- The environments of a folder. -/
def World.environments (w : World ι) (folder : String) : List (String × Labels) :=
  (w.namespaces.entries.filter fun e => e.2.folder = some folder ∧ e.2.managed = some "true").map
    fun e => (e.1, e.2)

/-- What is done with the folders by a request that is carried out. -/
def deeds (i : ι) (configMap : Option (Versioned Data)) : Folders.Request → List (Deed ι)
  | .readConfigMap => configMap.toList.map fun cm => .read i cm.value
  | .createConfigMap => if configMap.isNone then [.read i ∅] else []
  | .patchConfigMap .. => configMap.toList.map fun _ => .wrote i
  | .replaceConfigMap version _ =>
    (configMap.toList.filter fun cm => cm.version = version).map fun _ => .wrote i
  | .readNamespace | .errand _ => []

/-- What a request that is carried out does. -/
def commit (i : ι) (answer : Nat) (w : World ι) : (r : Request) → r.Response × World ι
  | .folders r =>
    ((Folders.commit i answer w.folders r).1,
      { w with
        folders := (Folders.commit i answer w.folders r).2
        log := w.log ++ deeds i w.folders.configMap r })
  | .removeEntry folder version data rest =>
    match w.folders.configMap with
    | none => (.error (.api 404), w)
    | some cm =>
      if cm.version = version then
        (.ok (), { w with
          folders := { w.folders with
            clock := w.folders.clock + 1
            configMap := some ⟨w.folders.clock + 1, data⟩ }
          removed := folder :: w.removed
          half := some (i, rest)
          log := w.log ++ [.wrote i] })
      else (.error (.api 409), w)
  | .listNamespaces folder _ => (.ok (w.environments folder), w)
  | .createNamespace name labels =>
    match w.namespaces.lookup name with
    | some _ => (.error (.api 409), w)
    | none =>
      (.ok (), { w with
        namespaces := w.namespaces.insert name labels
        log := w.log ++ [.wrote i] })
  | .deleteNamespace name =>
    match w.namespaces.lookup name with
    | none => (.error (.api 404), w)
    | some _ => (.ok (), { w with namespaces := w.namespaces.erase name })

def serve (i : ι) (fault : Fault) (w : World ι) (r : Request) : r.Response × World ι :=
  match fault.failure with
  | none => commit i fault.answer w r
  | some e => (.error e, if fault.done && r.changes then (commit i fault.answer w r).2 else w)

/-- What others do. -/
def act (a : Unit) (w : World ι) : World ι := { w with folders := Folders.act a w.folders }

abbrev Call (α : Type) := ExceptT Failure (Program Request Request.Response) α

def ask (r : Request) : Call r.Result := ExceptT.mk (Program.ask r)

/-- A program that asks about folders only. -/
def embed : Program Folders.Request Folders.Request.Response α →
    Program Request Request.Response α
  | .pure a => .pure a
  | .call r k => .call (.folders r) fun x => embed (k x)

def lift (p : Folders.Call α) : Call α := ExceptT.mk (embed p.run)

/-- `except ApiException` -/
def exceptApi (body : Call α) (handler : Nat → Call α) : Call α :=
  tryCatch body fun e => match e with
    | .api status => handler status
    | e => throw e

def nsName (folder environment : String) : String := folder ++ "-" ++ environment

def getFolderNamespaces (folder : String) : Call (List (String × Labels)) :=
  exceptApi (ask (.listNamespaces folder false)) fun _ => pure []

/-- A namespace under a folder, if the quotas above allow it, and then what belongs into it. -/
def createEnvironmentNs (folder environment : String) : Call Unit := do
  let _ ← lift (Folders.ask (.errand .quota))
  let ns := nsName folder environment
  exceptApi
    (ask (.createNamespace ns
      { enabled := some "true"
        managed := some "true"
        folder := some folder
        environment := some environment }))
    fun status =>
      if status = 409 then throw (.http 409 ("Environment '" ++ ns ++ "' already exists"))
      else throw (.http status "")
  let _ ← lift (Folders.ask (.errand .environments))

def createFolder (folder : FolderCreateRequest) (environments : List String)
    (email now : String) : Call Unit := do
  let folders := parseAllFolders (← lift ensureFoldersConfigmap)
  if (folders.node folder.name).isSome then
    throw (.http 409 ("Folder '" ++ folder.name ++ "' already exists"))
  else do
    lift (checkParent folders folder)
    let _ ← lift (Folders.ask (.errand .initialQuotas))
    lift (saveFolderMeta folder.name
      { displayName := some folder.displayName
        description := some folder.description
        parentId := folder.parentId
        createdBy := some email
        createdAt := some now
        quota := folder.quota })
    let _ ← lift ensureFoldersConfigmap
    environments.forM (createEnvironmentNs folder.name)

def moveFolder (name : String) (newParentId : Option String) : Call Unit :=
  lift (Folders.moveFolder name newParentId)

def deleteFolderMeta (name : String) (rest : List String) : Call Unit := do
  let cm ← lift (Folders.ask .readConfigMap)
  ask (.removeEntry name cm.version (cm.value.erase name) rest)

/-- What cannot be deleted is left. -/
def deleteEnvironments (folder : String) : Call Unit := do
  let nsList ← exceptApi (ask (.listNamespaces folder true)) fun _ => pure []
  nsList.forM fun ns => exceptApi (ask (.deleteNamespace ns.1)) fun _ => pure ()

/-- Delete folders one after the other, each after its environments. -/
def deleteAll : List String → Call Unit
  | [] => pure ()
  | fname :: rest => do
    deleteEnvironments fname
    deleteFolderMeta fname rest
    deleteAll rest

/-- What keeps a folder from being deleted on its own. -/
def checkEmpty (name : String) (descendants : List String) : Call Unit :=
  if descendants ≠ [] then
    throw (.http 409 ("Folder has " ++ toString descendants.length ++
      " child folder(s). Use cascade=true to delete all."))
  else do
    let environments ← getFolderNamespaces name
    if environments ≠ [] then
      throw (.http 409 ("Folder has " ++ toString environments.length ++
        " environment(s). Remove them first or use cascade=true."))
    else pure ()

def deleteFolder (name : String) (cascade : Bool) : Call Unit := do
  let folders := parseAllFolders (← lift ensureFoldersConfigmap)
  if (folders.node name).isNone then throw (.http 404 "Folder not found")
  else match getDescendantNames folders name with
    | none => throw .hangs
    | some descendants => do
      (if cascade then pure () else checkEmpty name descendants)
      deleteAll (descendants ++ [name])

inductive Op where
  | create (folder : FolderCreateRequest) (environments : List String) (email now : String)
  | move (name : String) (newParentId : Option String)
  | delete (name : String) (cascade : Bool)

def Op.program : Op → Call Unit
  | .create folder environments email now => createFolder folder environments email now
  | .move name newParentId => moveFolder name newParentId
  | .delete name cascade => deleteFolder name cascade

/-- The parent that is asked for. -/
def Op.parentId : Op → Option String
  | .create folder _ _ _ => folder.parentId
  | .move _ newParentId => newParentId
  | .delete .. => none

/-- What is there before the first request. -/
structure Snapshot extends Folders.Snapshot where
  namespaces : AList fun _ : String => Labels

def Snapshot.world (s : Snapshot) : World ι :=
  ⟨s.toSnapshot.world, s.namespaces, [], none, []⟩

/-- Any number of requests, none of which has asked for anything yet. -/
def start (s : Snapshot) (ops : ι → Op) :
    Crowd (World ι) Request Request.Response ι (Except Failure Unit) :=
  ⟨s.world, fun i => (ops i).program.run⟩

variable {w v : World ι} {i : ι} {fault : Fault} {r : Request}

/-- What a request does to the world. -/
inductive Effect (i : ι) (w : World ι) : Request → World ι → Prop
  | nothing {r : Request} : Effect i w r w
  | read {cm : Versioned Data} : w.folders.configMap = some cm →
      Effect i w (.folders .readConfigMap) { w with
        folders := { w.folders with log := w.folders.log ++ [.read i cm.value] }
        log := w.log ++ [.read i cm.value] }
  | created : w.folders.configMap = none →
      Effect i w (.folders .createConfigMap) { w with
        folders := ⟨w.folders.clock + 1, some ⟨w.folders.clock + 1, ∅⟩,
          w.folders.log ++ [.read i ∅]⟩
        log := w.log ++ [.read i ∅] }
  | patched {cm : Versioned Data} {name : String} {info : Meta} :
      w.folders.configMap = some cm →
      Effect i w (.folders (.patchConfigMap name info)) { w with
        folders := ⟨w.folders.clock + 1,
          some (Versioned.patch cm (w.folders.clock + 1) name info),
          w.folders.log ++ [.saved i name info]⟩
        log := w.log ++ [.wrote i] }
  | replaced {version : Nat} {data : Data} {v : World ι} :
      Effect i w (.folders (.replaceConfigMap version data)) v
  | removed {cm : Versioned Data} {folder : String} {data : Data} {rest : List String} :
      w.folders.configMap = some cm →
      Effect i w (.removeEntry folder cm.version data rest) { w with
        folders := { w.folders with
          clock := w.folders.clock + 1
          configMap := some ⟨w.folders.clock + 1, data⟩ }
        removed := folder :: w.removed
        half := some (i, rest)
        log := w.log ++ [.wrote i] }
  | built {name : String} {labels : Labels} : w.namespaces.lookup name = none →
      Effect i w (.createNamespace name labels) { w with
        namespaces := w.namespaces.insert name labels
        log := w.log ++ [.wrote i] }
  | torn {name : String} :
      Effect i w (.deleteNamespace name) { w with namespaces := w.namespaces.erase name }

theorem effect_commit (i : ι) (answer : Nat) (w : World ι) (r : Request) :
    Effect i w r (commit i answer w r).2 := by
  cases r with
  | folders r =>
    cases r with
    | replaceConfigMap version data => exact .replaced
    | readNamespace => simpa [commit, Folders.commit, deeds] using .nothing
    | errand e => simpa [commit, Folders.commit, deeds] using .nothing
    | readConfigMap =>
      cases hcm : w.folders.configMap with
      | none => simpa [commit, Folders.commit, deeds, hcm] using .nothing
      | some cm =>
        have h : Effect i w (.folders .readConfigMap) _ := .read hcm
        simpa [commit, Folders.commit, deeds, hcm] using h
    | createConfigMap =>
      cases hcm : w.folders.configMap with
      | some cm => simpa [commit, Folders.commit, deeds, hcm] using .nothing
      | none => simpa [commit, Folders.commit, deeds, hcm] using .created hcm
    | patchConfigMap name info =>
      cases hcm : w.folders.configMap with
      | none => simpa [commit, Folders.commit, deeds, hcm] using .nothing
      | some cm => simpa [commit, Folders.commit, deeds, hcm] using .patched hcm
  | listNamespaces folder deleting => exact .nothing
  | removeEntry folder version data rest =>
    cases hcm : w.folders.configMap with
    | none => simpa only [commit, hcm] using .nothing
    | some cm =>
      by_cases hversion : cm.version = version
      · subst hversion
        simpa only [commit, hcm, if_true] using .removed hcm
      · simpa only [commit, hcm, hversion, if_false] using .nothing
  | createNamespace name labels =>
    cases hname : w.namespaces.lookup name with
    | some old => simpa only [commit, hname] using .nothing
    | none => simpa only [commit, hname] using .built hname
  | deleteNamespace name =>
    cases hname : w.namespaces.lookup name with
    | none => simpa only [commit, hname] using .nothing
    | some old => simpa only [commit, hname] using .torn

theorem effect_serve (i : ι) (fault : Fault) (w : World ι) (r : Request) :
    Effect i w r (serve i fault w r).2 := by
  cases hfailure : fault.failure with
  | none =>
    simp only [serve, hfailure]
    exact effect_commit i fault.answer w r
  | some e =>
    cases hdone : fault.done && r.changes with
    | false => simpa [serve, hfailure, hdone] using .nothing
    | true =>
      simp only [serve, hfailure, hdone, if_true]
      exact effect_commit i fault.answer w r

end Folders.Removal
