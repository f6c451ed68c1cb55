import KubevirtUi.Access.Rules

/-!
# The predicates and the bindings agree

Whether a user is admitted to an environment is decided twice: by the predicates, from the access
block, and by Kubernetes, from the three bindings that are made of it. After a pass that nothing
keeps from writing, both say the same.
-/

namespace Access

open Folders (Meta Data Failure)
open Interference

variable {ι : Type}

/-- Requests that do not fail; quotas may refuse. -/
def succeeding (i : ι) (fits : Bool) : World ι → (r : Request) → r.Response × World ι :=
  serve i { fits := fits }

namespace World

/-- What is bound under a name. -/
def bound (w : World ι) (ns name : String) : Option RoleBinding :=
  (w.bindings.lookup (ns, name)).map Versioned.value

end World

variable {i : ι} {w : World ι} {ns folder : String} {labels : Labels} {info : Meta} {role : Role}

section Passes

variable {w₀ v : World ι} {name rbName env : String} {body : RoleBinding}
  {items : List (String × Labels)}

/-- One binding is as it is to be, and nothing else has changed. -/
structure Applied (ns rbName : String) (body : RoleBinding) (w v : World ι) : Prop where
  namespaces : v.namespaces = w.namespaces
  same : v.bound ns rbName = if body.subjects = [] then none else some body
  others : ∀ ns' name, (ns', name) ≠ (ns, rbName) → v.bound ns' name = w.bound ns' name

theorem attempts_ask {r : Request} {Q : r.Result → World ι → Prop} {E : Failure → World ι → Prop}
    (h : ∀ fits, outcome Q E (succeeding i fits w r).1 (succeeding i fits w r).2) :
    Attempts (succeeding i) any still (fun _ _ _ => True) (fun v => v = w) (ask r) Q E := by
  refine .ask any_serve (lasts_still _) (fun _ => lasts_still _) (fun _ => lasts_still _) ?_
  rintro _ fits - rfl
  exact ⟨trivial, h fits⟩

/-- What a call comes to from this world. -/
abbrev Succeeds {α : Type} (i : ι) (w : World ι) (p : Call α) (Q : α → World ι → Prop) : Prop :=
  Attempts (succeeding i) any still (fun _ _ _ => True) (fun v => v = w) p Q fun _ _ => False

theorem bound_setBinding_self : (w.setBinding i ns name body labels).bound ns name = some body := by
  simp [World.bound, World.setBinding]

theorem bound_setBinding_of_ne {ns' name' : String} (h : (ns', name') ≠ (ns, name)) :
    (w.setBinding i ns name body labels).bound ns' name' = w.bound ns' name' := by
  simp only [World.bound, World.setBinding, AList.lookup_insert_ne h]

theorem write_ok (h : w.namespaces.lookup ns = some labels) (f : Labels → World ι) :
    w.write ns f = (.ok (), f labels) := by
  rw [World.write, h]

theorem replaced {item : Versioned RoleBinding} (hns : w.namespaces.lookup ns = some labels)
    (hitem : w.bindings.lookup (ns, rbName) = some item) (hsubjects : body.subjects ≠ []) :
    Succeeds i w (replacePhase2Rb ns rbName body) fun _ => Applied ns rbName body w := by
  have hset (u : World ι) (hu : u.namespaces = w.namespaces)
      (hothers : ∀ ns' name, (ns', name) ≠ (ns, rbName) → u.bound ns' name = w.bound ns' name) :
      Applied ns rbName body w (u.setBinding i ns rbName body labels) :=
    { namespaces := hu
      same := by rw [bound_setBinding_self, if_neg hsubjects]
      others := fun ns' name hne => (bound_setBinding_of_ne hne).trans (hothers ns' name hne) }
  have hread : Succeeds i w (ask (.readBinding ns rbName)) fun x v => x = item ∧ v = w :=
    attempts_ask fun _ => by
      simp only [succeeding, serve, commit, hitem]
      exact ⟨rfl, rfl⟩
  refine alone_bind hread fun x => ?_
  refine Triple.of_fact fun hx => ?_
  subst hx
  split
  · let erased : World ι :=
      { w with
        bindings := w.bindings.erase (ns, rbName)
        log := w.log ++ [.unbound i ns labels] }
    have hdelete : Succeeds i w (exceptApi (ask (.deleteBinding ns rbName)) fun _ => pure ())
        fun _ v => v = erased := by
      refine alone_exceptApi (E := fun _ _ => False) (attempts_ask fun _ => ?_) (fun _ => ?_)
        fun _ _ h => h.elim
      · simp only [succeeding, serve, commit, hitem, write_ok hns]
        exact rfl
      · exact alone_pure fun _ h => h.elim
    refine alone_bind hdelete fun _ => attempts_ask fun _ => ?_
    have hgone : erased.bindings.lookup (ns, rbName) = none := AList.lookup_erase _ _
    have hthere : erased.namespaces.lookup ns = some labels := hns
    simp only [succeeding, serve, commit, hgone, Option.isSome_none, Bool.false_eq_true, if_false,
      write_ok hthere]
    refine hset erased rfl fun ns' name hne => ?_
    simp only [World.bound, erased, AList.lookup_erase_ne hne]
  · next hrole =>
    refine attempts_ask fun _ => ?_
    simp only [succeeding, serve, commit, hitem, ne_eq, not_true_eq_false, if_false, hrole,
      write_ok hns]
    exact hset w rfl fun _ _ _ => rfl

theorem applied (hns : w.namespaces.lookup ns = some labels) :
    Succeeds i w (applyPhase2Rb rbName ns body) fun _ => Applied ns rbName body w := by
  unfold applyPhase2Rb
  split
  · next hnobody =>
    refine alone_exceptApi (E := fun e v => e = .api 404 ∧ v = w ∧ w.bound ns rbName = none)
      (attempts_ask fun _ => ?_) (fun _ => ?_) ?_
    · cases hitem : w.bindings.lookup (ns, rbName) with
      | none =>
        simp only [succeeding, serve, commit, hitem]
        exact ⟨rfl, rfl, by rw [World.bound, hitem, Option.map_none]⟩
      | some item =>
        simp only [succeeding, serve, commit, hitem, write_ok hns]
        exact
          { namespaces := rfl
            same := by simp [World.bound, hnobody]
            others := fun ns' name hne => by simp only [World.bound, AList.lookup_erase_ne hne] }
    · refine alone_pure ?_
      rintro _ ⟨-, rfl, hnone⟩
      exact ⟨rfl, by rw [hnone, if_pos hnobody], fun _ _ _ => rfl⟩
    · rintro _ _ ⟨rfl, -⟩ hother
      exact hother 404 rfl
  · next hsubjects =>
    refine attempts_exceptApi
      (E := fun e v => (e = .api 409 ∧ ∃ item, w.bindings.lookup (ns, rbName) = some item) ∧ v = w)
      (fun _ => lasts_still _) (fun _ => lasts_still _) (attempts_ask fun _ => ?_)
      (fun status => ?_) ?_
    · cases hitem : w.bindings.lookup (ns, rbName) with
      | none =>
        simp only [succeeding, serve, commit, hitem, Option.isSome_none, Bool.false_eq_true,
          if_false, write_ok hns]
        exact
          { namespaces := rfl
            same := by rw [bound_setBinding_self, if_neg hsubjects]
            others := fun ns' name hne => bound_setBinding_of_ne hne }
      | some item =>
        simp only [succeeding, serve, commit, hitem, Option.isSome_some, if_true]
        exact ⟨⟨rfl, item, rfl⟩, rfl⟩
    · refine Triple.of_fact fun hexists => ?_
      obtain ⟨hstatus, item, hitem⟩ := hexists
      obtain rfl : status = 409 := by simpa using hstatus
      rw [if_pos rfl]
      exact alone_exceptApi (replaced hns hitem hsubjects) (fun _ => alone_pure fun _ h => h.elim)
        fun _ _ h _ => h
    · rintro _ _ ⟨⟨rfl, -⟩, -⟩ hother
      exact hother 409 rfl

/-- A namespace has the three bindings that it is to have. -/
def Settled (folder : String) (info : Meta) (item : String × Labels) (w : World ι) : Prop :=
  ∀ role : Role, w.bound item.1 role.rbName =
    if collectSubjects info (envName item.1 item.2) role = [] then none
    else some (roleBody folder (envName item.1 item.2) item.2 info role)

theorem rbName_injective : Function.Injective Role.rbName := by
  intro a b h
  cases a <;> cases b <;> first | rfl | exact absurd h (by decide)

theorem mem_rbacRoleNames (role : Role) : role ∈ rbacRoleNames := by cases role <;> decide

theorem settled {item : String × Labels} (hns : w.namespaces.lookup item.1 = some labels) :
    Succeeds i w (applyRoles item.1 folder (envName item.1 item.2) item.2 info) fun _ v =>
      v.namespaces = w.namespaces ∧ Settled folder info item v ∧
        ∀ ns name, ns ≠ item.1 → v.bound ns name = w.bound ns name := by
  let P : List Role → World ι → Prop := fun done v =>
    v.namespaces = w.namespaces ∧ (∀ role ∈ done, v.bound item.1 role.rbName =
        if collectSubjects info (envName item.1 item.2) role = [] then none
        else some (roleBody folder (envName item.1 item.2) item.2 info role)) ∧
      ∀ ns name, ns ≠ item.1 → v.bound ns name = w.bound ns name
  have hloop : Attempts (succeeding i) any still (fun _ _ _ => True) (P [])
      (applyRoles item.1 folder (envName item.1 item.2) item.2 info) (fun _ => P rbacRoleNames)
      fun _ _ => False := by
    refine Attempts.forM_prefix any_serve (fun _ => lasts_still _) (fun _ => lasts_still _) ?_
    intro done role hdone
    refine Attempts.of_each fun u _ hu => ?_
    obtain ⟨hspaces, hroles, hothers⟩ := hu
    have hthere : u.namespaces.lookup item.1 = some labels := by rw [hspaces, hns]
    refine (applied hthere).gives fun _ v hv => ?_
    refine ⟨hv.namespaces.trans hspaces, fun r hr => ?_, fun ns name hne => ?_⟩
    · obtain hr | hr := List.mem_append.mp hr
      · by_cases hsame : r = role
        · subst hsame
          rw [hv.same]
          simp [roleBody, buildPhase2RbBody]
        · have hne : (item.1, r.rbName) ≠ (item.1, role.rbName) := fun h =>
            hsame (rbName_injective (Prod.mk.inj h).2)
          rw [hv.others _ _ hne, hroles r hr]
      · obtain rfl := List.mem_singleton.mp hr
        rw [hv.same]
        simp [roleBody, buildPhase2RbBody]
    · have hne' : (ns, name) ≠ (item.1, role.rbName) := fun h => hne (Prod.mk.inj h).1
      rw [hv.others _ _ hne', hothers ns name hne]
  refine hloop.weaken (fun v hv => ?_) (fun _ v hv => ?_) fun _ _ h => h
  · subst hv
    exact ⟨rfl, fun role hrole => absurd hrole List.not_mem_nil, fun _ _ _ => rfl⟩
  · exact ⟨hv.1, fun role => hv.2.1 role (mem_rbacRoleNames role), hv.2.2⟩

theorem settled_folder : Succeeds i w (reconcileFolderRbac folder info) fun _ v =>
    ∀ item ∈ w.environments folder, Settled folder info item v := by
  have hlist : Succeeds i w (getFolderNamespaces folder) fun items v =>
      items = w.environments folder ∧ v = w :=
    alone_exceptApi (E := fun _ _ => False) (attempts_ask fun _ => ⟨rfl, rfl⟩)
      (fun _ => alone_pure fun _ h => h.elim) fun _ _ h _ => h
  refine alone_bind hlist fun items => ?_
  refine Triple.of_fact fun hitems => ?_
  subst hitems
  let P : List (String × Labels) → World ι → Prop := fun done v =>
    v.namespaces = w.namespaces ∧ ∀ item ∈ done, Settled folder info item v
  have hloop : Attempts (succeeding i) any still (fun _ _ _ => True) (P [])
      ((w.environments folder).forM fun item =>
        applyRoles item.1 folder (envName item.1 item.2) item.2 info)
      (fun _ => P (w.environments folder)) fun _ _ => False := by
    refine Attempts.forM_prefix any_serve (fun _ => lasts_still _) (fun _ => lasts_still _) ?_
    intro done item hdone
    refine Attempts.of_each fun u _ hu => ?_
    obtain ⟨hspaces, hsettled⟩ := hu
    have hlookup : ∀ x ∈ done ++ [item], w.namespaces.lookup x.1 = some x.2 := fun x hx =>
      (mem_environments.mp (hdone.subset hx)).1
    have hitem := hlookup item (by simp)
    have hthere : u.namespaces.lookup item.1 = some item.2 := by rw [hspaces, hitem]
    refine (settled hthere).gives fun _ v hv => ?_
    obtain ⟨hkept, hdoneItem, hothers⟩ := hv
    refine ⟨hkept.trans hspaces, fun x hx => ?_⟩
    by_cases hsame : x.1 = item.1
    · have hlabels := hlookup x hx
      rw [hsame, hitem, Option.some.injEq] at hlabels
      obtain rfl : x = item := Prod.ext hsame hlabels.symm
      exact hdoneItem
    · obtain hx | hx := List.mem_append.mp hx
      · intro role
        rw [hothers _ _ hsame, hsettled x hx role]
      · exact absurd (by rw [List.mem_singleton.mp hx]) hsame
  refine hloop.weaken (fun v hv => ?_) (fun _ v hv => hv.2) fun _ _ h => h
  subst hv
  exact ⟨rfl, fun item hitem => absurd hitem List.not_mem_nil⟩

end Passes

/-- The world after a pass over a folder, in which no request fails. -/
def reconciled (i : ι) (fits : Nat → Bool) (w : World ι) (folder : String) (info : Meta) :
    World ι :=
  ((reconcileFolderRbac folder info).run.perform (succeeding i) fits 0 w).2.2

/-- A group of the user is a subject of the binding. -/
def World.Binds (w : World ι) (ns : String) (role : Role) (user : User) : Prop :=
  ∃ b, w.bound ns role.rbName = some b ∧ ∃ g ∈ user.groups, ⟨"Group", g⟩ ∈ b.subjects

/-- In one environment, the predicates say what the bindings say. -/
structure Agree (settings : Settings) (user : User) (info : Meta) (ns env : String)
    (w : World ι) : Prop where
  admin : isEnvAdmin settings user info env = true ↔ w.Binds ns .admin user
  member : isEnvMember settings user info env = true ↔
    w.Binds ns .admin user ∨ w.Binds ns .member user
  viewer : isEnvViewer settings user info env = true ↔
    w.Binds ns .admin user ∨ w.Binds ns .member user ∨ w.Binds ns .viewer user

/-- Higher roles have the lower ones, a folder's roles are had in all its environments, and more
groups take no role away. -/
structure Orderly (settings : Settings) (user : User) (info : Meta) : Prop where
  admin_member : ∀ env, isEnvAdmin settings user info env = true →
    isEnvMember settings user info env = true
  member_viewer : ∀ env, isEnvMember settings user info env = true →
    isEnvViewer settings user info env = true
  folder_admin : ∀ env, isFolderAdmin settings user info = true →
    isEnvAdmin settings user info env = true
  folder_member : ∀ env, isFolderMember settings user info = true →
    isEnvMember settings user info env = true
  folder_viewer : ∀ env, isFolderViewer settings user info = true →
    isEnvViewer settings user info env = true
  grown_folder : ∀ info', Wider info info' →
    (isFolderAdmin settings user info = true → isFolderAdmin settings user info' = true) ∧
    (isFolderMember settings user info = true → isFolderMember settings user info' = true) ∧
    (isFolderViewer settings user info = true → isFolderViewer settings user info' = true)
  grown_env : ∀ info', Wider info info' → ∀ env,
    (isEnvAdmin settings user info env = true → isEnvAdmin settings user info' env = true) ∧
    (isEnvMember settings user info env = true → isEnvMember settings user info' env = true) ∧
    (isEnvViewer settings user info env = true → isEnvViewer settings user info' env = true)

section Agreement

variable {settings : Settings} {user : User} {fits : Nat → Bool}

theorem orderly (settings : Settings) (user : User) (info : Meta) : Orderly settings user info where
  admin_member _ := isEnvMember_of_admin
  member_viewer _ := isEnvViewer_of_member
  folder_admin _ := isEnvAdmin_of_folder
  folder_member _ := isEnvMember_of_folder
  folder_viewer _ := isEnvViewer_of_folder
  grown_folder _ h := ⟨isFolderAdmin_mono h, isFolderMember_mono h, isFolderViewer_mono h⟩
  grown_env _ h _ := ⟨isEnvAdmin_mono h, isEnvMember_mono h, isEnvViewer_mono h⟩

theorem binds_iff (h : Settled folder info (ns, labels) w) (hgroups : ∀ g ∈ user.groups, g ≠ "") :
    w.Binds ns role user ↔ ∃ g ∈ user.groups, Listed info (envName ns labels) role g := by
  have hrole := h role
  have hmem : ∀ g ∈ user.groups, g ∈ collectSubjects info (envName ns labels) role ↔
      Listed info (envName ns labels) role g := fun g hg => by
    rw [mem_collectSubjects, and_iff_left (hgroups g hg)]
  constructor
  · rintro ⟨b, hb, g, hg, hsubject⟩
    refine ⟨g, hg, (hmem g hg).mp ?_⟩
    rw [hrole] at hb
    split at hb
    · contradiction
    · obtain rfl := Option.some.inj hb
      simpa [roleBody, buildPhase2RbBody] using hsubject
  · rintro ⟨g, hg, hlisted⟩
    have hg' := (hmem g hg).mpr hlisted
    rw [if_neg (List.ne_nil_of_mem hg')] at hrole
    refine ⟨_, hrole, g, hg, ?_⟩
    simpa [roleBody, buildPhase2RbBody] using hg'

theorem settled_reconciled {item : String × Labels} (hitem : item ∈ w.environments folder)
    (fits : Nat → Bool) : Settled folder info item (reconciled i fits w folder info) := by
  have hpass : outcome (fun _ v => ∀ item ∈ w.environments folder, Settled folder info item v)
      (fun _ _ => False)
      ((reconcileFolderRbac folder info).run.perform (succeeding i) fits 0 w).1
      (reconciled i fits w folder info) :=
    (settled_folder.perform any_serve (J := any) (fun _ _ _ _ _ _ => trivial) trivial rfl
      trivial 0).1
  match hx : ((reconcileFolderRbac folder info).run.perform (succeeding i) fits 0 w).1 with
  | .ok _ =>
    rw [hx] at hpass
    exact hpass item hitem
  | .error _ =>
    rw [hx] at hpass
    exact hpass.elim

/-- After a pass over a folder, the predicates and the bindings agree in all its environments. -/
theorem predicates_agree (i : ι) (w : World ι) (fits : Nat → Bool) (settings : Settings)
    (user : User) (info : Meta) (folder ns : String) (labels : Labels)
    (hlabels : w.namespaces.lookup ns = some labels) (hfolder : labels.folder = some folder)
    (hmanaged : labels.managed = some "true") (huser : isAdmin settings user = false)
    (hgroups : ∀ g ∈ user.groups, g ≠ "") :
    Agree settings user info ns (envName ns labels) (reconciled i fits w folder info) ∧
      Orderly settings user info := by
  have hitem : (ns, labels) ∈ w.environments folder :=
    mem_environments.mpr ⟨hlabels, hfolder, hmanaged⟩
  have hsettled : Settled folder info (ns, labels) (reconciled i fits w folder info) :=
    settled_reconciled hitem fits
  refine ⟨⟨?_, ?_, ?_⟩, orderly settings user info⟩
  · rw [isEnvAdmin_iff_listed huser, binds_iff hsettled hgroups]
  · rw [isEnvMember_iff_listed huser, binds_iff hsettled hgroups, binds_iff hsettled hgroups]
    simp only [and_or_left, exists_or]
  · rw [isEnvViewer_iff_listed huser, binds_iff hsettled hgroups, binds_iff hsettled hgroups,
      binds_iff hsettled hgroups]
    simp only [and_or_left, exists_or]

/-- An environment of a folder whose block names members. -/
def workshop : World Unit where
  clock := 0
  configMap := none
  namespaces :=
    (∅ : AList fun _ : String => Labels).insert "dev-ops"
      { managed := some "true"
        folder := some "dev"
        environment := some "ops" }
  bindings := ∅
  quotas := ∅
  log := []

theorem predicates_agree_workshop : Agree ⟨false, [], ["root"]⟩ ⟨["crew"], "ann@shop", ["ann@shop"]⟩
        { access := some ⟨[], ["crew"], [], []⟩ } "dev-ops" "ops"
        (reconciled () (fun _ => true) workshop "dev"
          { access := some ⟨[], ["crew"], [], []⟩ }) ∧
      Orderly ⟨false, [], ["root"]⟩ ⟨["crew"], "ann@shop", ["ann@shop"]⟩
        { access := some ⟨[], ["crew"], [], []⟩ } :=
  predicates_agree () workshop (fun _ => true) _ _ _ "dev" "dev-ops"
    { managed := some "true"
      folder := some "dev"
      environment := some "ops" } (by decide) rfl rfl (by decide) (by decide)

end Agreement

end Access
