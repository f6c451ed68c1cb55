import KubevirtUi.Access.Bindings
import KubevirtUi.Vpcs.Calls

/-!
# Who is admitted to a tenant

A tenant's namespace says with its labels to which folder and environment the tenant belongs, and
the folder's access block says who is admitted. It is asked in two places: before every call that
is about one tenant, at a level, and for each tenant by the list of all of them.
-/

namespace Tenancy

open List

open Access (Settings User Role Labels isAdmin isFolderAdmin isFolderMember isFolderViewer
  isEnvAdmin isEnvMember isEnvViewer isFolderAdmin_iff isFolderMember_iff isFolderViewer_iff
  isEnvAdmin_of_folder isEnvViewer_of_folder)
open Folders (Meta Data Tree Failure parseAllFolders)

def tenantNs (name : String) : String := "tenant-" ++ name

/-- A CAPI Cluster. -/
structure Cluster where
  name : String
  namespaceName : String
  deriving DecidableEq

/-- What the API server answers to the three reads; one that fails says with which status. -/
structure Answers where
  clusters : Except Nat (List Cluster)
  configMap : Except Nat Data
  readNamespace : String → Except Nat Labels

def k8sErrorToHttp (status : Nat) (action : String) : Failure :=
  match Vpcs.statusMap.lookup status with
  | some detail => .http status detail
  | none => .http 500 ("Internal error during " ++ action)

section Code

variable (settings : Settings) (user : User) (api : Answers)

def loadFolders : Except Failure Tree :=
  match api.configMap with
  | .ok data => return parseAllFolders data
  | .error status =>
    if status = 404 then throw (.http 404 "No folders configured") else throw (.api status)

def loadFolder (folderName : String) : Except Failure Meta := do
  let folders ← loadFolders api
  match folders.node folderName with
  | none => throw (.http 404 ("Folder '" ++ folderName ++ "' not found"))
  | some info => return info

/-- The value of a label, where a missing one is as good as an empty one. -/
def labelOf (label : Option String) : String := label.getD ""

def resolveEnv (ns : String) : Except Failure (String × String) :=
  match api.readNamespace ns with
  | .error status =>
    if status = 404 then throw (.http 404 ("Namespace '" ++ ns ++ "' not found"))
    else throw (.api status)
  | .ok labels =>
    if labelOf labels.folder = "" ∨ labelOf labels.environment = "" then
      throw (.http 404 ("Namespace '" ++ ns ++ "' is not a managed folder environment"))
    else return (labelOf labels.folder, labelOf labels.environment)

/-- A level is asked for by the name of a role. -/
def levelText : Role → String
  | .viewer => "viewer"
  | .member => "member"
  | .admin => "admin"

/-- What a level takes. -/
def allowed (info : Meta) (environment : String) : Role → Bool
  | .viewer => isFolderViewer settings user info
  | .member => isFolderMember settings user info
  | .admin => isFolderAdmin settings user info ||
      (environment ≠ "" && isEnvAdmin settings user info environment)

/-- The metadata of the folder; a platform admin is not asked for it. -/
def requireTenantAccess (tenant : String) (level : Role) : Except Failure (Option Meta) :=
  if isAdmin settings user then return none
  else
    match api.readNamespace (tenantNs tenant) with
    | .error status =>
      if status = 404 then throw (.http 404 ("Tenant '" ++ tenant ++ "' not found"))
      else throw (.api status)
    | .ok labels =>
      if labelOf labels.folder = "" then
        throw (.http 403 ("Tenant '" ++ tenant ++ "' has no folder; refusing to authorise"))
      else do
        let info ← loadFolder api (labelOf labels.folder)
        if allowed settings user info (labelOf labels.environment) level then return some info
        else
          throw (.http 403 (levelText level ++ " role on folder '" ++ labelOf labels.folder ++
            "' required for tenant '" ++ tenant ++ "'"))

/-- Whether one who is no platform admin is shown the tenant. -/
def shows (folders : Tree) (cluster : Cluster) : Except Failure Bool :=
  if cluster.namespaceName = "" then return false
  else
    match resolveEnv api cluster.namespaceName with
    | .error (.http _ _) => return false
    | .error e => throw e
    | .ok (folder, environment) =>
      match folders.node folder with
      | none => return false
      | some info => return isEnvViewer settings user info environment

/-- Those of the tenants that are shown, in order. -/
def filtered (folders : Tree) : List Cluster → Except Failure (List Cluster)
  | [] => return []
  | cluster :: clusters => do
    let shown ← shows settings user api folders cluster
    let others ← filtered folders clusters
    return if shown then cluster :: others else others

structure TenantListResponse where
  items : List Cluster
  total : Nat
  page : Nat := 1
  perPage : Nat := 50
  pages : Nat := 1

/-- The tenants that the user sees. -/
def seenTenants : Except Failure (List Cluster) :=
  match api.clusters with
  | .error status => throw (.api status)
  | .ok clusters =>
    if isAdmin settings user then return clusters
    else
      match loadFolders api with
      | .ok folders => filtered settings user api folders clusters
      | .error (.http 404 _) => filtered settings user api (parseAllFolders ∅) clusters
      | .error e => throw e

def listTenants (page perPage : Nat) : Except Failure TenantListResponse :=
  match seenTenants settings user api with
  | .ok clusters =>
    return { items   := (clusters.drop ((page - 1) * perPage)).take perPage
             total   := clusters.length
             page    := page
             perPage := perPage
             pages   := (clusters.length + perPage - 1) / perPage }
  | .error (.api status) =>
    if status = 404 then return { items := [], total := 0 }
    else throw (k8sErrorToHttp status "tenant operation")
  | .error e => throw e

end Code

section Rule

variable (settings : Settings) (user : User) (api : Answers)

def Admitted (tenant : String) (level : Role) : Prop :=
  ∃ info, requireTenantAccess settings user api tenant level = .ok info

/-- Some page of the list has the tenant. -/
def Listed (perPage : Nat) (cluster : Cluster) : Prop :=
  ∃ page answer, 1 ≤ page ∧ listTenants settings user api page perPage = .ok answer ∧
    cluster ∈ answer.items

/-- A level takes in the lower ones, and the list agrees with the lowest. -/
structure OneRule (cluster : Cluster) : Prop where
  member : Admitted settings user api cluster.name .admin →
    Admitted settings user api cluster.name .member
  viewer : Admitted settings user api cluster.name .member →
    Admitted settings user api cluster.name .viewer
  listed : isAdmin settings user = false → ∀ perPage, 1 ≤ perPage →
    (Listed settings user api perPage cluster ↔ Admitted settings user api cluster.name .viewer)

/-- A tenant that belongs to an environment of a folder. -/
structure Answers.Belongs (api : Answers) (cluster : Cluster) (folder environment : String) :
    Prop where
  listed : ∃ clusters, api.clusters = .ok clusters ∧ cluster ∈ clusters
  ns : cluster.namespaceName = tenantNs cluster.name
  labels : ∃ labels, api.readNamespace (tenantNs cluster.name) = .ok labels ∧
    labels.folder = some folder ∧ labels.environment = some environment
  folder : folder ≠ ""
  environment : environment ≠ ""

/-- What is read is there, or is not: no read fails for another reason. -/
structure Answers.Answered (api : Answers) : Prop where
  configMap : ∀ status, api.configMap = .error status → status = 404
  namespaces : ∀ ns status, api.readNamespace ns = .error status → status = 404

/-- What the user may do in the environment, the user may do in the folder: an admin is a member
there, and whoever may look may look there. -/
def FolderWide (info : Meta) (environment : String) : Prop :=
  (isEnvAdmin settings user info environment = true → isFolderMember settings user info = true) ∧
    (isEnvViewer settings user info environment = true → isFolderViewer settings user info = true)

end Rule

section Lemmas

variable {settings : Settings} {user : User} {api : Answers} {cluster : Cluster} {info : Meta}
  {folders : Tree} {folder environment : String} {level : Role} {perPage : Nat}
  {clusters seen : List Cluster}

/-- What the API knows of the folder. -/
def Answers.knows (api : Answers) (folder : String) (info : Meta) : Prop :=
  ∃ folders, loadFolders api = .ok folders ∧ folders.node folder = some info

theorem loadFolder_eq_ok_iff : loadFolder api folder = .ok info ↔ api.knows folder info := by
  unfold loadFolder Answers.knows
  cases hfolders : loadFolders api with
  | error e => simp [bind, Except.bind]
  | ok folders =>
    cases hnode : folders.node folder with
    | none => simp [bind, Except.bind, hnode, throw, throwThe, MonadExceptOf.throw]
    | some found => simp [bind, Except.bind, hnode, pure, Except.pure]

theorem admitted_of_isAdmin (hadmin : isAdmin settings user = true) {tenant : String} :
    Admitted settings user api tenant level := by
  refine ⟨none, ?_⟩
  rw [requireTenantAccess, if_pos hadmin]
  rfl

/-- Who is no platform admin is admitted by what the API knows of the folder. -/
theorem admitted_iff (h : api.Belongs cluster folder environment)
    (hadmin : isAdmin settings user = false) : Admitted settings user api cluster.name level ↔
      ∃ info, api.knows folder info ∧ allowed settings user info environment level = true := by
  obtain ⟨labels, hread, hfolder, henv⟩ := h.labels
  have hname : labelOf labels.folder = folder := by rw [hfolder]; rfl
  have henvName : labelOf labels.environment = environment := by rw [henv]; rfl
  simp only [Admitted, requireTenantAccess, hadmin, Bool.false_eq_true, if_false, hread, hname,
    henvName, if_neg h.folder, ← loadFolder_eq_ok_iff]
  cases hload : loadFolder api folder with
  | error e => simp [bind, Except.bind]
  | ok info =>
    by_cases hallowed : allowed settings user info environment level = true
    · simp [bind, Except.bind, pure, Except.pure, hallowed]
    · simp [bind, Except.bind, throw, throwThe, MonadExceptOf.throw, hallowed]

theorem shows_eq (h : api.Belongs cluster folder environment) :
    shows settings user api folders cluster =
      .ok ((folders.node folder).any (isEnvViewer settings user · environment)) := by
  obtain ⟨labels, hread, hfolder, henv⟩ := h.labels
  have hne : cluster.namespaceName ≠ "" := by
    rw [h.ns, tenantNs]
    exact fun hempty => by simpa using congrArg String.length hempty
  have hresolve : resolveEnv api cluster.namespaceName = .ok (folder, environment) := by
    rw [resolveEnv, h.ns, hread]
    simp [hfolder, henv, labelOf, h.folder, h.environment, pure, Except.pure]
  rw [shows, if_neg hne, hresolve]
  cases hnode : folders.node folder with
  | none => simp [hnode, pure, Except.pure]
  | some info => simp [hnode, pure, Except.pure]

theorem exists_shows (hreads : api.Answered) (folders : Tree) (cluster : Cluster) :
    ∃ shown, shows settings user api folders cluster = .ok shown := by
  unfold shows
  split
  · exact ⟨false, rfl⟩
  · unfold resolveEnv
    cases hread : api.readNamespace cluster.namespaceName with
    | error status =>
      rw [hreads.namespaces _ _ hread]
      exact ⟨false, rfl⟩
    | ok labels =>
      by_cases hempty : labelOf labels.folder = "" ∨ labelOf labels.environment = ""
      · simp only [if_pos hempty]
        exact ⟨false, rfl⟩
      · simp only [if_neg hempty]
        cases hnode : folders.node (labelOf labels.folder) with
        | none => exact ⟨false, by simp [pure, Except.pure, hnode]⟩
        | some info => exact ⟨_, by simp [pure, Except.pure, hnode]; rfl⟩

theorem exists_filtered (settings : Settings) (user : User) (hreads : api.Answered) (folders : Tree)
    (clusters : List Cluster) : ∃ seen, filtered settings user api folders clusters = .ok seen ∧
      ∀ cluster, cluster ∈ seen ↔
        cluster ∈ clusters ∧ shows settings user api folders cluster = .ok true := by
  induction clusters with
  | nil => exact ⟨[], rfl, by simp⟩
  | cons first rest ih =>
    obtain ⟨seen, hseen, hmem⟩ := ih
    obtain ⟨shown, hshown⟩ := exists_shows hreads folders first
    refine ⟨if shown then first :: seen else seen, ?_, fun cluster => ?_⟩
    · rw [filtered, hshown, hseen]
      rfl
    · cases shown with
      | true =>
        simp only [if_true, mem_cons, hmem, or_and_right]
        constructor
        · rintro (rfl | hrest)
          · exact .inl ⟨rfl, hshown⟩
          · exact .inr hrest
        · rintro (⟨rfl, -⟩ | hrest)
          · exact .inl rfl
          · exact .inr hrest
      | false =>
        simp only [Bool.false_eq_true, if_false, hmem, mem_cons]
        constructor
        · rintro ⟨hrest, hok⟩
          exact ⟨.inr hrest, hok⟩
        · rintro ⟨rfl | hrest, hok⟩
          · rw [hshown] at hok
            simp at hok
          · exact ⟨hrest, hok⟩

theorem listed_iff (hseen : seenTenants settings user api = .ok seen) (hpage : 1 ≤ perPage) :
    Listed settings user api perPage cluster ↔ cluster ∈ seen := by
  have hanswer (page : Nat) : listTenants settings user api page perPage =
      .ok { items   := (seen.drop ((page - 1) * perPage)).take perPage
            total   := seen.length
            page    := page
            perPage := perPage
            pages   := (seen.length + perPage - 1) / perPage } := by
    rw [listTenants, hseen]
    rfl
  constructor
  · rintro ⟨page, answer, -, hlist, hmem⟩
    rw [hanswer] at hlist
    obtain rfl := Except.ok.inj hlist
    exact mem_of_mem_drop (mem_of_mem_take hmem)
  · intro hmem
    obtain ⟨k, hk, rfl⟩ := mem_iff_getElem.mp hmem
    -- the page of the tenant's place
    refine ⟨k / perPage + 1, _, Nat.le_add_left 1 _, hanswer _, ?_⟩
    rw [mem_iff_getElem]
    have hplace := Nat.div_add_mod k perPage
    have hless := Nat.mod_lt k hpage
    rw [Nat.mul_comm] at hplace
    refine ⟨k % perPage, ?_, ?_⟩
    · simp only [Nat.add_sub_cancel, length_take, length_drop]
      omega
    · simp only [Nat.add_sub_cancel, getElem_take, getElem_drop, hplace]

/-- Who is no platform admin is shown the tenant by what the API knows of the folder. -/
theorem listed_iff_knows (h : api.Belongs cluster folder environment) (hreads : api.Answered)
    (hadmin : isAdmin settings user = false) (hpage : 1 ≤ perPage) :
    Listed settings user api perPage cluster ↔
      ∃ info, api.knows folder info ∧ isEnvViewer settings user info environment = true := by
  obtain ⟨clusters, hclusters, hmem⟩ := h.listed
  cases hfolders : loadFolders api with
  | ok folders =>
    obtain ⟨seen, hfiltered, hseen⟩ :=
      exists_filtered settings user hreads folders clusters
    have hall : seenTenants settings user api = .ok seen := by
      simp only [seenTenants, hclusters, hadmin, Bool.false_eq_true, if_false, hfolders, hfiltered]
    rw [listed_iff hall hpage, hseen, shows_eq h]
    simp only [hmem, true_and, Except.ok.injEq, Option.any_eq_true, Answers.knows, hfolders,
      exists_eq_left']
  | error e =>
    have hnone : ¬ ∃ info, api.knows folder info ∧
        isEnvViewer settings user info environment = true := by
      rintro ⟨info, ⟨folders, hok, -⟩, -⟩
      rw [hfolders] at hok
      contradiction
    obtain rfl : e = .http 404 "No folders configured" := by
      unfold loadFolders at hfolders
      split at hfolders
      · contradiction
      · next status hread =>
        rw [hreads.configMap status hread] at hfolders
        exact (Except.error.inj hfolders).symm
    obtain ⟨seen, hfiltered, hseen⟩ :=
      exists_filtered settings user hreads (parseAllFolders ∅) clusters
    have hall : seenTenants settings user api = .ok seen := by
      simp only [seenTenants, hclusters, hadmin, Bool.false_eq_true, if_false, hfolders, hfiltered]
    rw [listed_iff hall hpage, hseen, shows_eq h]
    simp [hnone, Hierarchy.node, parseAllFolders]

end Lemmas

/-- The two places follow one rule exactly where what the user may do in the environment, the user
may do in the folder. -/
theorem one_rule_iff {settings : Settings} {user : User} {api : Answers} {cluster : Cluster}
    {folder environment : String} (h : api.Belongs cluster folder environment)
    (hreads : api.Answered) : OneRule settings user api cluster ↔
      ∀ info, api.knows folder info → FolderWide settings user info environment := by
  cases hadmin : isAdmin settings user with
  | true =>
    have hmember (info : Meta) : isFolderMember settings user info = true :=
      isFolderMember_iff.mpr (.inl (isFolderAdmin_iff.mpr (.inl hadmin)))
    constructor
    · intro _ info _
      exact ⟨fun _ => hmember info, fun _ => isFolderViewer_iff.mpr (.inl (hmember info))⟩
    · intro _
      refine ⟨fun _ => admitted_of_isAdmin hadmin, fun _ => admitted_of_isAdmin hadmin, ?_⟩
      rw [hadmin]
      exact fun hno => absurd hno Bool.noConfusion
  | false =>
    have hone {info info' : Meta} (hinfo : api.knows folder info)
        (hinfo' : api.knows folder info') : info' = info := by
      obtain ⟨folders, hfolders, hnode⟩ := hinfo
      obtain ⟨folders', hfolders', hnode'⟩ := hinfo'
      obtain rfl := Except.ok.inj (hfolders.symm.trans hfolders')
      exact Option.mem_unique hnode' hnode
    constructor
    · intro hrule info hinfo
      constructor
      · intro henv
        have hadmits : allowed settings user info environment .admin = true := by
          simp [allowed, h.environment, henv]
        obtain ⟨info', hinfo', hmember⟩ := (admitted_iff h hadmin).mp
          (hrule.member ((admitted_iff h hadmin).mpr ⟨info, hinfo, hadmits⟩))
        obtain rfl := hone hinfo hinfo'
        exact hmember
      · intro henv
        obtain ⟨info', hinfo', hviewer⟩ := (admitted_iff h hadmin).mp
          ((hrule.listed hadmin 1 le_rfl).mp
            ((listed_iff_knows h hreads hadmin le_rfl).mpr ⟨info, hinfo, henv⟩))
        obtain rfl := hone hinfo hinfo'
        exact hviewer
    · intro hwide
      refine ⟨fun hadmits => ?_, fun hadmits => ?_, fun _ perPage hpage => ?_⟩
      · obtain ⟨info, hinfo, hallowed⟩ := (admitted_iff h hadmin).mp hadmits
        have henv : isEnvAdmin settings user info environment = true := by
          simp only [allowed, Bool.or_eq_true, Bool.and_eq_true] at hallowed
          exact hallowed.elim isEnvAdmin_of_folder And.right
        exact (admitted_iff h hadmin).mpr ⟨info, hinfo, (hwide info hinfo).1 henv⟩
      · obtain ⟨info, hinfo, hallowed⟩ := (admitted_iff h hadmin).mp hadmits
        exact (admitted_iff h hadmin).mpr ⟨info, hinfo, isFolderViewer_iff.mpr (.inl hallowed)⟩
      · rw [listed_iff_knows h hreads hadmin hpage, admitted_iff h hadmin]
        constructor
        · rintro ⟨info, hinfo, henv⟩
          exact ⟨info, hinfo, (hwide info hinfo).2 henv⟩
        · rintro ⟨info, hinfo, hviewer⟩
          exact ⟨info, hinfo, isEnvViewer_of_folder hviewer⟩

/-- Whose admins are the platform's, and a folder with an environment that has admins of its own. -/
def onlyAdmins : Settings := ⟨false, [], ["platform"]⟩

def prodAdmin : User := ⟨["prod-admins"], "ann", ["ann"]⟩

def teamMember : User := ⟨["developers"], "ben", ["ben"]⟩

def teamFolder : Meta where
  access := some
    { admins    := ["leads"]
      members   := ["developers"]
      viewers   := []
      envAccess := [("prod", ⟨["prod-admins"], [], []⟩)] }

/-- One tenant, in the environment. -/
def shopCluster : Cluster := ⟨"shop", "tenant-shop"⟩

def shopAnswers : Answers where
  clusters := .ok [shopCluster]
  configMap := .ok (AList.singleton "team" (some teamFolder))
  readNamespace ns := if ns = "tenant-shop"
    then .ok { folder := some "team", environment := some "prod", tenant := some "shop" }
    else .error 404

theorem belongs_shop : shopAnswers.Belongs shopCluster "team" "prod" where
  listed := ⟨[shopCluster], rfl, mem_singleton_self _⟩
  ns := by decide
  labels := ⟨{ folder := some "team", environment := some "prod", tenant := some "shop" },
    rfl, rfl, rfl⟩
  folder := by decide
  environment := by decide

theorem answered_shop : shopAnswers.Answered where
  configMap _ h := by cases h
  namespaces ns status h := by
    simp only [shopAnswers] at h
    split at h
    · cases h
    · exact (Except.error.inj h).symm

theorem knows_shop {info : Meta} : shopAnswers.knows "team" info ↔ info = teamFolder := by
  constructor
  · rintro ⟨folders, hfolders, hnode⟩
    obtain rfl := Except.ok.inj hfolders
    exact (Option.some.inj hnode).symm
  · rintro rfl
    exact ⟨_, rfl, rfl⟩

/-- A member of the folder finds one rule. -/
theorem one_rule_teamMember : shopAnswers.Belongs shopCluster "team" "prod" ∧ shopAnswers.Answered ∧
      OneRule onlyAdmins teamMember shopAnswers shopCluster := by
  refine ⟨belongs_shop, answered_shop, (one_rule_iff belongs_shop answered_shop).mpr ?_⟩
  intro info hinfo
  rw [knows_shop.mp hinfo]
  exact ⟨fun _ => by decide, fun _ => by decide⟩

/-- An admin of the environment may delete the tenant, and see it in the list, but not look at
it. -/
theorem not_one_rule_prodAdmin : ¬ OneRule onlyAdmins prodAdmin shopAnswers shopCluster := by
  intro hrule
  have hadmin : Admitted onlyAdmins prodAdmin shopAnswers "shop" .admin := ⟨some teamFolder, rfl⟩
  obtain ⟨info, hmember⟩ := hrule.member hadmin
  cases hmember

end Tenancy
