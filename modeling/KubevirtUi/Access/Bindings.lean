import KubevirtUi.Access.Cluster
import Mathlib.Data.String.Basic

/-!
# Access blocks, and what is bound in a namespace

A folder's metadata may hold an access block: groups by role, and more groups for single
environments. What a user may do is asked of the block by six predicates, each of which asks a
higher one first; which groups are bound to a role in an environment is read from its lists.

Two kinds of role bindings are written. The lists of an access block become three bindings with
fixed names, one for each role, which are written anew whenever the lists change. A grant becomes
a binding of its own, under a name made of its subject and role, in every namespace below its
folder; a new namespace is given those of its folder and of all folders above.
-/

namespace Access

open Folders (Meta FolderAccessSpec FolderEnvAccessSpec)

/-- Who is a platform admin. -/
structure Settings where
  authNone : Bool
  adminUsers : List String
  adminGroups : List String

/-- A user. The names are the email and the username in lower case, where there are any. -/
structure User where
  groups : List String
  email : String
  names : List String

inductive Role where
  | admin
  | member
  | viewer
  deriving DecidableEq

/-- The list of a role in a folder's block. -/
def specGroups (spec : FolderAccessSpec) : Role → List String
  | .admin => spec.admins
  | .member => spec.members
  | .viewer => spec.viewers

/-- The list of a role in the block of an environment. -/
def envSpecGroups (spec : FolderEnvAccessSpec) : Role → List String
  | .admin => spec.admins
  | .member => spec.members
  | .viewer => spec.viewers

/-- The groups with a role in the whole folder; a missing block or list names nobody. -/
def accessBlock (info : Meta) (role : Role) : List String :=
  match info.access with
  | none => []
  | some spec => specGroups spec role

/-- The groups with a role in one environment besides. -/
def envAccessBlock (info : Meta) (env : String) (role : Role) : List String :=
  match info.access.bind fun spec => spec.envAccess.lookup env with
  | none => []
  | some spec => envSpecGroups spec role

def hasGroup (userGroups names : List String) : Bool := userGroups.any (· ∈ names)

section Predicates

variable (settings : Settings) (user : User) (info : Meta) (env : String)

def isAdmin : Bool :=
  if settings.authNone then true
  else if user.names.any (· ∈ settings.adminUsers) then true
  else if "system:masters" ∈ user.groups then true
  else user.groups.any (· ∈ settings.adminGroups)

def isFolderAdmin : Bool :=
  if isAdmin settings user then true
  else hasGroup user.groups (accessBlock info .admin)

def isFolderMember : Bool :=
  if isFolderAdmin settings user info then true
  else hasGroup user.groups (accessBlock info .member)

def isFolderViewer : Bool :=
  if isFolderMember settings user info then true
  else hasGroup user.groups (accessBlock info .viewer)

def isEnvAdmin : Bool :=
  if isFolderAdmin settings user info then true
  else hasGroup user.groups (envAccessBlock info env .admin)

def isEnvMember : Bool :=
  if isEnvAdmin settings user info env then true
  else if isFolderMember settings user info then true
  else hasGroup user.groups (envAccessBlock info env .member)

def isEnvViewer : Bool :=
  if isEnvMember settings user info env then true
  else if isFolderViewer settings user info then true
  else hasGroup user.groups (envAccessBlock info env .viewer)

end Predicates

/-- The groups that are bound to a role in an environment, in order. -/
def collectSubjects (info : Meta) (env : String) (role : Role) : List String :=
  ((accessBlock info role ++ envAccessBlock info env role).dedup.filter (· ≠ "")).insertionSort
    (· ≤ ·)

/-- The list of the role, in the folder or in the environment, names the group. -/
def Listed (info : Meta) (env : String) (role : Role) (group : String) : Prop :=
  group ∈ accessBlock info role ∨ group ∈ envAccessBlock info env role

/-- A group that is on a list is on it still. -/
def Wider (info info' : Meta) : Prop :=
  ∀ role, accessBlock info role ⊆ accessBlock info' role ∧
    ∀ env, envAccessBlock info env role ⊆ envAccessBlock info' env role

section Lists

variable {settings : Settings} {user : User} {info info' : Meta} {env group : String} {role : Role}
  {names : List String}

theorem mem_collectSubjects :
    group ∈ collectSubjects info env role ↔ Listed info env role group ∧ group ≠ "" := by
  simp [collectSubjects, Listed]

theorem hasGroup_iff : hasGroup user.groups names = true ↔ ∃ g ∈ user.groups, g ∈ names := by
  simp [hasGroup]

theorem isFolderAdmin_iff : isFolderAdmin settings user info = true ↔
    isAdmin settings user = true ∨ ∃ g ∈ user.groups, g ∈ accessBlock info .admin := by
  simp only [isFolderAdmin, Bool.if_true_left, Bool.or_eq_true, decide_eq_true_eq, hasGroup_iff]

theorem isFolderMember_iff : isFolderMember settings user info = true ↔
    isFolderAdmin settings user info = true ∨ ∃ g ∈ user.groups, g ∈ accessBlock info .member := by
  simp only [isFolderMember, Bool.if_true_left, Bool.or_eq_true, decide_eq_true_eq, hasGroup_iff]

theorem isFolderViewer_iff : isFolderViewer settings user info = true ↔
    isFolderMember settings user info = true ∨
      ∃ g ∈ user.groups, g ∈ accessBlock info .viewer := by
  simp only [isFolderViewer, Bool.if_true_left, Bool.or_eq_true, decide_eq_true_eq, hasGroup_iff]

theorem isEnvAdmin_iff : isEnvAdmin settings user info env = true ↔
    isFolderAdmin settings user info = true ∨
      ∃ g ∈ user.groups, g ∈ envAccessBlock info env .admin := by
  simp only [isEnvAdmin, Bool.if_true_left, Bool.or_eq_true, decide_eq_true_eq, hasGroup_iff]

theorem isEnvMember_iff : isEnvMember settings user info env = true ↔
    isEnvAdmin settings user info env = true ∨ isFolderMember settings user info = true ∨
      ∃ g ∈ user.groups, g ∈ envAccessBlock info env .member := by
  simp only [isEnvMember, Bool.if_true_left, Bool.or_eq_true, decide_eq_true_eq, hasGroup_iff]

theorem isEnvViewer_iff : isEnvViewer settings user info env = true ↔
    isEnvMember settings user info env = true ∨ isFolderViewer settings user info = true ∨
      ∃ g ∈ user.groups, g ∈ envAccessBlock info env .viewer := by
  simp only [isEnvViewer, Bool.if_true_left, Bool.or_eq_true, decide_eq_true_eq, hasGroup_iff]

/-- Of a user who is no platform admin, an environment's admins are those that a list says. -/
theorem isEnvAdmin_iff_listed (h : isAdmin settings user = false) :
    isEnvAdmin settings user info env = true ↔
      ∃ g ∈ user.groups, Listed info env .admin g := by
  rw [isEnvAdmin_iff, isFolderAdmin_iff]
  simp only [h, Bool.false_eq_true, false_or, Listed, and_or_left, exists_or]

theorem isEnvMember_iff_listed (h : isAdmin settings user = false) :
    isEnvMember settings user info env = true ↔
      ∃ g ∈ user.groups, Listed info env .admin g ∨ Listed info env .member g := by
  rw [isEnvMember_iff, isEnvAdmin_iff, isFolderMember_iff, isFolderAdmin_iff]
  simp only [h, Bool.false_eq_true, false_or, Listed, and_or_left, exists_or]
  grind

theorem isEnvViewer_iff_listed (h : isAdmin settings user = false) :
    isEnvViewer settings user info env = true ↔ ∃ g ∈ user.groups,
      Listed info env .admin g ∨ Listed info env .member g ∨ Listed info env .viewer g := by
  rw [isEnvViewer_iff, isEnvMember_iff_listed h, isFolderViewer_iff, isFolderMember_iff,
    isFolderAdmin_iff]
  simp only [h, Bool.false_eq_true, false_or, Listed, and_or_left, exists_or]
  grind

theorem isEnvMember_of_admin (h : isEnvAdmin settings user info env = true) :
    isEnvMember settings user info env = true :=
  isEnvMember_iff.mpr (.inl h)

theorem isEnvViewer_of_member (h : isEnvMember settings user info env = true) :
    isEnvViewer settings user info env = true :=
  isEnvViewer_iff.mpr (.inl h)

theorem isEnvAdmin_of_folder (h : isFolderAdmin settings user info = true) :
    isEnvAdmin settings user info env = true :=
  isEnvAdmin_iff.mpr (.inl h)

theorem isEnvMember_of_folder (h : isFolderMember settings user info = true) :
    isEnvMember settings user info env = true :=
  isEnvMember_iff.mpr (.inr (.inl h))

theorem isEnvViewer_of_folder (h : isFolderViewer settings user info = true) :
    isEnvViewer settings user info env = true :=
  isEnvViewer_iff.mpr (.inr (.inl h))

section

variable (h : Wider info info')

include h

theorem isFolderAdmin_mono (hrole : isFolderAdmin settings user info = true) :
    isFolderAdmin settings user info' = true := by
  rw [isFolderAdmin_iff] at hrole ⊢
  exact hrole.imp_right fun ⟨g, hg, hlist⟩ => ⟨g, hg, (h .admin).1 hlist⟩

theorem isFolderMember_mono (hrole : isFolderMember settings user info = true) :
    isFolderMember settings user info' = true := by
  rw [isFolderMember_iff] at hrole ⊢
  exact hrole.imp (isFolderAdmin_mono h) fun ⟨g, hg, hlist⟩ => ⟨g, hg, (h .member).1 hlist⟩

theorem isFolderViewer_mono (hrole : isFolderViewer settings user info = true) :
    isFolderViewer settings user info' = true := by
  rw [isFolderViewer_iff] at hrole ⊢
  exact hrole.imp (isFolderMember_mono h) fun ⟨g, hg, hlist⟩ => ⟨g, hg, (h .viewer).1 hlist⟩

theorem isEnvAdmin_mono (hrole : isEnvAdmin settings user info env = true) :
    isEnvAdmin settings user info' env = true := by
  rw [isEnvAdmin_iff] at hrole ⊢
  exact hrole.imp (isFolderAdmin_mono h) fun ⟨g, hg, hlist⟩ => ⟨g, hg, (h .admin).2 env hlist⟩

theorem isEnvMember_mono (hrole : isEnvMember settings user info env = true) :
    isEnvMember settings user info' env = true := by
  rw [isEnvMember_iff] at hrole ⊢
  exact hrole.imp (isEnvAdmin_mono h) (Or.imp (isFolderMember_mono h)
    fun ⟨g, hg, hlist⟩ => ⟨g, hg, (h .member).2 env hlist⟩)

theorem isEnvViewer_mono (hrole : isEnvViewer settings user info env = true) :
    isEnvViewer settings user info' env = true := by
  rw [isEnvViewer_iff] at hrole ⊢
  exact hrole.imp (isEnvMember_mono h) (Or.imp (isFolderViewer_mono h)
    fun ⟨g, hg, hlist⟩ => ⟨g, hg, (h .viewer).2 env hlist⟩)

end

end Lists

open Folders (Meta Data Failure AccessEntry parseAllFolders getAncestorChain)
open Interference

abbrev Call (α : Type) := ExceptT Failure (Program Request Request.Response) α

def ask (r : Request) : Call r.Result := ExceptT.mk (Program.ask r)

/-- `except ApiException` -/
def exceptApi {α : Type} (body : Call α) (handler : Nat → Call α) : Call α :=
  tryCatch body fun e => match e with
    | .api status => handler status
    | e => throw e

/-- The ClusterRole that is granted under the name of a role. -/
def roleToClusterRole (role : String) : Option String :=
  [("admin", "kubevirt-ui-admin"), ("editor", "kubevirt-ui-editor"),
    ("viewer", "kubevirt-ui-viewer")].lookup role

/-- The same three roles in a tenant's namespace. -/
def tenantClusterRoles : List (String × String) :=
  [("kubevirt-ui-admin", "kubevirt-ui-tenant-admin"),
    ("kubevirt-ui-editor", "kubevirt-ui-tenant-editor"),
    ("kubevirt-ui-viewer", "kubevirt-ui-tenant-viewer")]

namespace Role

def rbName : Role → String
  | .admin => "kubevirt-ui-folder-admins"
  | .member => "kubevirt-ui-folder-members"
  | .viewer => "kubevirt-ui-folder-viewers"

def clusterRole : Role → String
  | .admin => "kubevirt-ui-admin"
  | .member => "kubevirt-ui-editor"
  | .viewer => "kubevirt-ui-viewer"

end Role

def rbacRoleNames : List Role := [.admin, .member, .viewer]

def roleForNamespace (clusterRole : String) (labels : Labels) : String :=
  if labels.isTenant then (tenantClusterRoles.lookup clusterRole).getD clusterRole
  else clusterRole

def getFolderNamespaces (folder : String) : Call (List (String × Labels)) :=
  exceptApi (ask (.listNamespaces folder)) fun _ => pure []

def buildPhase2RbBody (folder env clusterRole : String) (groups : List String) : RoleBinding where
  labels :=
    { managed := some "true"
      accessSource := some "folder-access-block"
      folder := some folder
      environment := some env }
  role := clusterRole
  subjects := groups.map (⟨"Group", ·⟩)

/-- A binding that is there keeps its role, so another role takes another binding. -/
def replacePhase2Rb (ns rbName : String) (body : RoleBinding) : Call Unit := do
  let existing ← ask (.readBinding ns rbName)
  if existing.value.role ≠ body.role then do
    exceptApi (ask (.deleteBinding ns rbName)) fun _ => pure ()
    ask (.createBinding ns rbName body)
  else ask (.replaceBinding ns rbName existing.version body)

/-- A binding of nobody is deleted. -/
def applyPhase2Rb (rbName ns : String) (body : RoleBinding) : Call Unit :=
  if body.subjects = [] then exceptApi (ask (.deleteBinding ns rbName)) fun _ => pure ()
  else
    exceptApi (ask (.createBinding ns rbName body)) fun status =>
      if status = 409 then exceptApi (replacePhase2Rb ns rbName body) fun _ => pure ()
      else pure ()

/-- The binding of a role in a namespace with these labels. -/
def roleBody (folder env : String) (labels : Labels) (info : Meta) (role : Role) : RoleBinding :=
  buildPhase2RbBody folder env (roleForNamespace role.clusterRole labels)
    (collectSubjects info env role)

def applyRoles (ns folder env : String) (labels : Labels) (info : Meta) : Call Unit :=
  rbacRoleNames.forM fun role => applyPhase2Rb role.rbName ns (roleBody folder env labels info role)

/-- What an environment is called, which is the namespace where no label says it. -/
def envName (ns : String) (labels : Labels) : String := labels.environment.getD ns

def reconcileFolderRbac (folder : String) (info : Meta) : Call Unit := do
  let items ← getFolderNamespaces folder
  items.forM fun item => applyRoles item.1 folder (envName item.1 item.2) item.2 info

/-- All groups that are to be bound in an environment. -/
def boundGroups (info : Meta) (env : String) : List String :=
  rbacRoleNames.flatMap (collectSubjects info env)

/-- Where the labels cannot be read, there are none. -/
def reconcileNamespaceRbac (ns folder env : String) (info : Meta) : Call Unit := do
  let labels ← exceptApi (ask (.readLabels ns (boundGroups info env))) fun _ => pure {}
  applyRoles ns folder env labels info

def nsName (folder env : String) : String := folder ++ "-" ++ env

def reconcileEnvRbac (folder env : String) (info : Meta) : Call Unit :=
  reconcileNamespaceRbac (nsName folder env) folder env info

def subjectKind (type : String) : String := if type = "team" then "Group" else "User"

/-- The binding of a grant on a folder. -/
def grantBody (folder scope type name clusterRole : String) : RoleBinding where
  labels :=
    { managed := some "true"
      accessType := some type
      accessScope := some scope
      folder := some folder }
  role := clusterRole
  subjects := [⟨subjectKind type, name⟩]

/-- A grant that a folder keeps is bound, unless its name has been dealt with. -/
def propagateEntry (targetNs : String) (created : List String) (grant : String × AccessEntry) :
    Call (List String) :=
  let (ancestor, entry) := grant
  if entry.bindingName = "" ∨ entry.bindingName ∈ created then pure created
  else match roleToClusterRole entry.role with
    | none => pure created
    | some clusterRole =>
      exceptApi
        (do
          ask (.createBinding targetNs entry.bindingName
            (grantBody ancestor "folder" entry.type entry.name clusterRole))
          return entry.bindingName :: created)
        fun status => pure (if status = 409 then entry.bindingName :: created else created)

def copyBinding (targetNs : String) (created : List String) (b : String × RoleBinding) :
    Call (List String) :=
  if b.1 ∈ created then pure created
  else
    exceptApi
      (do
        ask (.createBinding targetNs b.1 b.2)
        return b.1 :: created)
      fun _ => pure created

/-- The bindings of the first namespace that can be asked for them. -/
def copyFromSibling (ancestor targetNs : String) (created : List String) :
    List (String × Labels) → Call (List String)
  | [] => pure created
  | item :: rest =>
    if item.1 = targetNs then copyFromSibling ancestor targetNs created rest
    else do
      let bindings ← exceptApi (do return some (← ask (.listBindings item.1 ancestor)))
        fun _ => pure none
      match bindings with
      | none => copyFromSibling ancestor targetNs created rest
      | some bindings => bindings.foldlM (copyBinding targetNs) created

def copyFromAncestor (targetNs : String) (created : List String) (ancestor : String) :
    Call (List String) := do
  copyFromSibling ancestor targetNs created (← getFolderNamespaces ancestor)

/-- The grants that these folders keep. -/
def grantsOf (folders : Data) (chain : List String) : List (String × AccessEntry) :=
  chain.flatMap fun ancestor =>
    (((parseAllFolders folders).node ancestor).getD {}).accessEntries.map fun e => (ancestor, e)

def propagateFolderAccess (folders : Data) (folderName targetNs : String) : Call Unit :=
  match getAncestorChain (parseAllFolders folders) folderName with
  | none => throw .hangs
  | some above => do
    let chain := above ++ [folderName]
    let created ← (grantsOf folders chain).foldlM (propagateEntry targetNs) []
    let _ ← chain.foldlM (copyFromAncestor targetNs) created

end Access
