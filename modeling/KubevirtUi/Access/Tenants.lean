import KubevirtUi.Access.Rules

/-!
# No folder role in a tenant's namespace

The roles of a folder read secrets, and in a tenant's namespace lie the keys of another cluster. A
pass over an access block binds other roles there, if the labels that it reads say what the
namespace is; a grant on a folder is bound under one role wherever the folder has a namespace. A
creation that fails deletes the tenant's namespace, and what comes under that name is another's.
-/

variable {r : Request} {fault : Fault}

namespace Access

open Folders (Meta Data Failure FolderQuota FolderAccessPatchRequest AddFolderAccessRequest
  parseAllFolders getDescendantNames)
open Interference List

variable {ι : Type}

/-- What a client does: it grants a role on a folder, changes an access block, makes an
environment or a tenant, or writes the bindings of a block anew. -/
inductive Job where
  | grant (folder type name role : String)
  | patch (folder : String) (change : FolderAccessPatchRequest)
  | addEnvironment (folder : String) (env : AddFolderEnvironmentRequest)
  | createTenant (tenant folder environment : String)
  | reconcileFolder (folder : String) (info : Meta)
  | reconcileNamespace (ns folder env : String) (info : Meta)

namespace Job

def program : Job → Call Unit
  | .grant folder type name role => addFolderAccess folder ⟨type, name, role, .folder⟩
  | .patch folder change => patchFolderAccess folder change
  | .addEnvironment folder env => Access.addEnvironment folder env
  | .createTenant tenant folder environment => Access.createTenant tenant folder environment
  | .reconcileFolder folder info => reconcileFolderRbac folder info
  | .reconcileNamespace ns folder env info => reconcileNamespaceRbac ns folder env info

def Grants : Job → Prop
  | .grant .. => True
  | _ => False

instance : DecidablePred Grants := fun job => by
  unfold Grants
  split <;> infer_instance

end Job

/-- What others do: they write everything, and make, label and delete namespaces. -/
inductive Action where
  | configMap (configMap : Option Data)
  | bindings (bindings : Placed (Versioned RoleBinding))
  | quotas (quotas : Placed FolderQuota)
  | label (name : String) (labels : Labels)
  | remove (name : String)

def act (a : Action) (w : World ι) : World ι :=
  match a with
  | .configMap configMap => { w with configMap := configMap }
  | .bindings bindings => { w with bindings := bindings }
  | .quotas quotas => { w with quotas := quotas }
  | .label name labels => { w with namespaces := w.namespaces.insert name labels }
  | .remove name =>
    match w.namespaces.lookup name with
    | none => w
    | some labels => w.remove name labels

/-- Any number of clients, none of which has asked for anything yet. -/
def starting (jobs : ι → Job) (w : World ι) :
    Crowd (World ι) Request Request.Response ι (Except Failure Unit) :=
  ⟨w, fun i => (jobs i).program.run⟩

/-- The roles that are granted on folders. -/
def folderRoles : List String := ["kubevirt-ui-admin", "kubevirt-ui-editor", "kubevirt-ui-viewer"]

/-- No folder role, but the counterpart of one. -/
def ForTenants (role : String) : Prop :=
  role ∉ folderRoles ∧ role ∈ tenantClusterRoles.map Prod.snd

instance (role : String) : Decidable (ForTenants role) := inferInstanceAs (Decidable (_ ∧ _))

/-- No folder role is bound in a tenant's namespace. -/
def Event.Fine : Event ι → Prop
  | .bound _ _ labels binding => labels.isTenant = true → ForTenants binding.role
  | _ => True

/-- The namespace is no tenant's; or it is gone, and was none. -/
def Plain (ns : String) (w : World ι) : Prop :=
  match w.namespaces.lookup ns with
  | some labels => labels.isTenant = false
  | none => ns ∈ w.gone

instance (ns : String) (w : World ι) : Decidable (Plain ns w) := by
  unfold Plain
  split <;> infer_instance

/-- Where a grant lists namespaces, no tenant's is among them; where labels are read for somebody
who is to be bound, the namespace is no tenant's, or it is and they are read; and no tenant gets the
name of a namespace that was none. -/
def Careful (job : Job) (fault : Fault) (w : World ι) : Request → Prop
  | .listNamespaces folder => job.Grants → fault.failure = none →
      ∀ item ∈ w.environments folder, item.2.isTenant = false
  | .readLabels name groups => groups = [] ∨ Plain name w ∨
      (w.namespaces.lookup name).isSome = true ∧ fault.failure = none
  | .createNamespace name labels => fault.failure = none → labels.isTenant = true →
      w.namespaces.lookup name = none → name ∉ w.gone
  | _ => True

instance (job : Job) (fault : Fault) (w : World ι) (r : Request) :
    Decidable (Careful job fault w r) := by
  unfold Careful
  split <;> infer_instance

/-- A turn of a run in which each client is careful, and nobody gives a tenant's label to a
namespace that has or had none. -/
def Guarded (jobs : ι → Job)
    (s : Crowd (World ι) Request Request.Response ι (Except Failure Unit)) :
    Turn Action Fault ι → Prop
  | .act (.label name labels) => labels.isTenant = true → ¬ Plain name s.world
  | .act _ => True
  | .call i fault =>
    match s.rest i with
    | .pure _ => True
    | .call r _ => Careful (jobs i) fault s.world r

/-- The cluster, if it refused whatever is asked without care. -/
def serveCareful (jobs : ι → Job) (i : ι) (fault : Fault) (w : World ι) (r : Request) :
    r.Response × World ι :=
  if Careful (jobs i) fault w r then serve i fault w r else (.error .hangs, w)

/-- What is no tenant's does not become one's. -/
def Kept (w v : World ι) : Prop := ∀ ns, Plain ns w → Plain ns v

/-- What is no tenant's does not become one's, and what is written is fine. -/
def Sound (w v : World ι) : Prop := Kept w v ∧ ∀ e ∈ v.log, e ∈ w.log ∨ e.Fine

/-- A request that writes no folder role where a tenant is. -/
def Fits (w : World ι) : Request → Prop
  | .createBinding ns _ binding | .replaceBinding ns _ _ binding =>
    ∀ labels, w.namespaces.lookup ns = some labels → labels.isTenant = true →
      ForTenants binding.role
  | _ => True

variable {i : ι} {w v : World ι} {jobs : ι → Job}

section Effects

variable {u : World ι}

theorem Kept.refl (w : World ι) : Kept w w := fun _ h => h

theorem plain_of_lookup {ns : String} {labels : Labels} (h : w.namespaces.lookup ns = some labels)
    (hplain : Plain ns w) : labels.isTenant = false := by
  simpa only [Plain, h] using hplain

theorem plain_of_lookup_eq {ns : String} (hlookup : v.namespaces.lookup ns = w.namespaces.lookup ns)
    (hgone : w.gone ⊆ v.gone) (hplain : Plain ns w) : Plain ns v := by
  unfold Plain at hplain ⊢
  rw [hlookup]
  split at hplain
  · exact hplain
  · exact hgone hplain

theorem kept_insert {name : String} {labels : Labels}
    (hnot : labels.isTenant = true → ¬ Plain name w)
    (hspaces : v.namespaces = w.namespaces.insert name labels) (hgone : v.gone = w.gone) :
    Kept w v := by
  intro ns hplain
  by_cases hns : ns = name
  · subst hns
    simp only [Plain, hspaces, AList.lookup_insert]
    exact Bool.eq_false_iff.mpr fun htenant => hnot htenant hplain
  · refine plain_of_lookup_eq ?_ (fun x hx => hgone ▸ hx) hplain
    rw [hspaces, AList.lookup_insert_ne hns]

theorem kept_remove {name : String} {labels : Labels} (h : w.namespaces.lookup name = some labels)
    (hspaces : v.namespaces = w.namespaces.erase name)
    (hgone : v.gone = if labels.isTenant then w.gone else name :: w.gone) : Kept w v := by
  intro ns hplain
  by_cases hns : ns = name
  · subst hns
    simp only [Plain, hspaces, AList.lookup_erase, hgone, plain_of_lookup h hplain,
      Bool.false_eq_true, if_false]
    exact mem_cons_self
  · refine plain_of_lookup_eq ?_ (fun x hx => ?_) hplain
    · rw [hspaces, AList.lookup_erase_ne hns]
    · rw [hgone]
      split
      · exact hx
      · exact mem_cons_of_mem _ hx

theorem sound_concat {e : Event ι} (hspaces : Kept w v) (hlog : v.log = w.log ++ [e])
    (he : e.Fine) : Sound w v := by
  refine ⟨hspaces, fun x hx => ?_⟩
  rw [hlog] at hx
  obtain hx | hx := mem_append.mp hx
  · exact .inl hx
  · exact .inr (mem_singleton.mp hx ▸ he)

theorem sound_of_effect (h : Effect i w r v) (hfits : Fits w r)
    (hnew : ∀ name labels, r = .createNamespace name labels → labels.isTenant = true →
      w.namespaces.lookup name = none → name ∉ w.gone) : Sound w v := by
  cases h with
  | nothing => exact ⟨Kept.refl w, fun _ => .inl⟩
  | configMap _ => exact ⟨Kept.refl w, fun _ => .inl⟩
  | entry _ => exact sound_concat (Kept.refl w) rfl trivial
  | created hnone =>
    refine sound_concat (kept_insert (fun htenant hplain => ?_) rfl rfl) rfl trivial
    exact hnew _ _ rfl htenant hnone (by simpa only [Plain, hnone] using hplain)
  | deleted hlabels => exact sound_concat (kept_remove hlabels rfl rfl) rfl trivial
  | bound hr hlabels =>
    refine sound_concat (Kept.refl w) rfl fun htenant => ?_
    obtain rfl | ⟨version, rfl⟩ := hr
    · exact hfits _ hlabels htenant
    · exact hfits _ hlabels htenant
  | unbound _ => exact sound_concat (Kept.refl w) rfl trivial
  | quota _ _ => exact sound_concat (Kept.refl w) rfl trivial
  | unquota _ => exact sound_concat (Kept.refl w) rfl trivial

theorem sound_serveCareful (hfits : Fits w r) : Sound w (serveCareful jobs i fault w r).2 := by
  unfold serveCareful
  split
  · next hcare =>
    unfold serve
    split
    · next hfault =>
      refine sound_of_effect (effect_commit i fault.fits w r) hfits fun name labels hr => ?_
      subst hr
      exact hcare hfault
    · exact ⟨Kept.refl w, fun _ => .inl⟩
  · exact ⟨Kept.refl w, fun _ => .inl⟩

theorem kept_act {a : Action}
    (h : ∀ name labels, a = .label name labels → labels.isTenant = true → ¬ Plain name w) :
    Kept w (act a w) := by
  cases a with
  | label name labels => exact kept_insert (h name labels rfl) rfl rfl
  | remove name =>
    simp only [act]
    split
    · exact Kept.refl w
    · next hlabels => exact kept_remove hlabels rfl rfl
  | _ => exact Kept.refl w

end Effects

/-- A program that only does what is fine, and what it achieves. -/
abbrev Tries (jobs : ι → Job) (i : ι) {α : Type} (P : World ι → Prop) (p : Call α)
    (Q : α → World ι → Prop) : Prop :=
  Attempts (serveCareful jobs i) any Kept (fun w _ v => Sound w v) P p Q fun _ _ => True

/-- If anybody is to be bound in the namespace, it is no tenant's, or the labels tell so. -/
def Telling (ns : String) (groups : List String) (labels : Labels) (w : World ι) : Prop :=
  groups = [] ∨ labels.isTenant = true ∨ Plain ns w

section Programs

variable {α : Type} {P R : World ι → Prop} {ns folder env name : String} {labels : Labels}
  {info : Meta} {groups : List String}

theorem lasts_plain (ns : String) : Lasts any Kept (Plain (ι := ι) ns) :=
  fun _ _ _ _ h hplain => h ns hplain

theorem lasts_telling (ns : String) (groups : List String) (labels : Labels) :
    Lasts any Kept (Telling (ι := ι) ns groups labels) :=
  fun _ _ _ _ h hw => hw.imp_right fun hw => hw.imp_right (h ns)

theorem fits_silent (h : r.Silent) : Fits w r := by
  cases r <;> first | exact trivial | exact h.elim

theorem tries_every (hR : Lasts any Kept R) {p : Call α}
    (hp : Every (fun r => ∀ w, R w → Fits w r) p.run) : Tries jobs i R p fun _ => R := by
  refine (Attempts.keeps_where any_serve hR (fun fault w r _ hr hw => ?_) hp).forget
  have hsound : Sound w (serveCareful jobs i fault w r).2 := sound_serveCareful (hr w hw)
  exact ⟨hsound, hR w _ trivial trivial hsound.1 hw⟩

theorem tries_bind {β : Type} {p : Call α} {f : α → Call β} {Q : α → World ι → Prop}
    {S : β → World ι → Prop} (hp : Tries jobs i P p Q) (hf : ∀ a, Tries jobs i (Q a) (f a) S) :
    Tries jobs i P (p >>= f) S :=
  hp.bind any_serve (fun _ => lasts_const True) hf

theorem tries_ask {Q : r.Result → World ι → Prop} {E : Failure → World ι → Prop}
    (hP : Lasts any Kept P) (hQ : ∀ a, Lasts any Kept (Q a)) (hE : ∀ e, Lasts any Kept (E e))
    (hfits : ∀ w, P w → Fits w r) (hcareless : ∀ w, P w → E .hangs w)
    (h : ∀ w fault, P w → Careful (jobs i) fault w r →
      outcome Q E (serve i fault w r).1 (serve i fault w r).2) :
    Attempts (serveCareful jobs i) any Kept (fun w _ v => Sound w v) P (ask r) Q E := by
  refine .ask any_serve hP hQ hE fun w fault _ hw => ?_
  refine ⟨sound_serveCareful (hfits w hw), ?_⟩
  unfold serveCareful
  split
  · next hcare => exact h w fault hw hcare
  · exact hcareless w hw

/-- A list of namespaces that tells of each that is no tenant's; a grant's has no other. -/
def Known (job : Job) (items : List (String × Labels)) (w : World ι) : Prop :=
  ∀ item ∈ items, (item.2.isTenant = false → Plain item.1 w) ∧
    (job.Grants → item.2.isTenant = false)

theorem lasts_known (items : List (String × Labels)) :
    Lasts any Kept (Known (ι := ι) (jobs i) items) :=
  fun _ _ _ _ h hw item hitem => ⟨fun hfree => h _ ((hw item hitem).1 hfree), (hw item hitem).2⟩

theorem tries_getFolderNamespaces : Tries jobs i (fun _ => True) (getFolderNamespaces folder)
    (Known (jobs i)) := by
  refine attempts_exceptApi lasts_known (fun _ => lasts_const True)
    (tries_ask (lasts_const True) lasts_known (fun _ => lasts_const True) (fun _ _ => trivial)
      (fun _ _ => trivial) fun w fault _ hcare => ?_)
    (fun _ => .pure (lasts_const True) fun _ _ item hitem => absurd hitem not_mem_nil)
    fun _ _ _ _ => trivial
  unfold serve
  split
  · next hfault =>
    refine fun item hitem => ⟨fun hfree => ?_, fun hgrants => hcare hgrants hfault item hitem⟩
    have hlookup : w.namespaces.lookup item.1 = some item.2 := (mem_environments.mp hitem).1
    change Plain item.1 w
    simpa only [Plain, hlookup] using hfree
  · exact trivial

theorem forTenants_role (role : Role) (h : labels.isTenant = true) :
    ForTenants (roleForNamespace role.clusterRole labels) := by
  rw [roleForNamespace, if_pos h]
  cases role <;> decide

theorem tries_applyRoles (hR : Lasts any Kept R)
    (htelling : ∀ w, R w → Telling ns (boundGroups info env) labels w) :
    Tries jobs i R (applyRoles ns folder env labels info) fun _ => R := by
  refine tries_every hR (every_applyRoles (fun r hr _ _ => fits_silent hr) fun role => ?_)
  have hfits (hsubjects : (roleBody folder env labels info role).subjects ≠ [])
      (w : World ι) (hw : R w) (real : Labels)
      (hreal : w.namespaces.lookup ns = some real) (htenant : real.isTenant = true) :
      ForTenants (roleBody folder env labels info role).role := by
    have hgroups : boundGroups info env ≠ [] := by
      intro hnone
      have hrole := flatMap_eq_nil_iff.mp hnone role (by cases role <;> decide)
      exact hsubjects (by rw [roleBody, buildPhase2RbBody, hrole, map_nil])
    obtain hlabels | hplain := (htelling w hw).resolve_left hgroups
    · exact forTenants_role role hlabels
    · rw [plain_of_lookup hreal hplain] at htenant
      contradiction
  exact
    { delete := fun _ _ => trivial
      create := fun hsubjects w hw => hfits hsubjects w hw
      replace := fun hsubjects _ w hw => hfits hsubjects w hw }

/-- A pass over a namespace that is not read with care writes nothing that is wrong. -/
theorem tries_reconcileNamespaceRbac : Tries jobs i (fun _ => True)
    (reconcileNamespaceRbac ns folder env info) fun _ _ => True := by
  have hread : Tries jobs i (fun _ => True)
      (exceptApi (ask (.readLabels ns (boundGroups info env))) fun _ => pure {})
      (Telling ns (boundGroups info env)) := by
    have hhangs (w : World ι) (_ : True) (he : ∃ status, Failure.hangs = .api status) :
        Telling ns (boundGroups info env) {} w := by
      obtain ⟨status, he⟩ := he
      contradiction
    refine attempts_exceptApi
      (E := fun e w => (∃ status, e = .api status) → Telling ns (boundGroups info env) {} w)
      (fun labels => lasts_telling _ _ labels)
      (fun e _ _ _ _ h hw he => lasts_telling _ _ _ _ _ trivial trivial h (hw he))
      (tries_ask (lasts_const True) (fun labels => lasts_telling _ _ labels)
        (fun e _ _ _ _ h hw he => lasts_telling _ _ _ _ _ trivial trivial h (hw he))
        (fun _ _ => trivial) hhangs fun w fault _ hcare => ?_)
      (fun status => .pure ?_ fun w hw => hw ⟨status, rfl⟩)
      fun _ _ _ _ => trivial
    · unfold serve
      split
      · simp only [commit]
        split
        · next hnone =>
          intro _
          refine hcare.imp_right fun hread => .inr (hread.resolve_right fun hthere => ?_)
          rw [hnone] at hthere
          exact Bool.false_ne_true hthere.1
        · next real hreal =>
          refine .inr ?_
          by_cases htenant : real.isTenant = true
          · exact .inl htenant
          · exact .inr (by simpa only [Plain, hreal] using Bool.eq_false_iff.mpr htenant)
      · next e hfault =>
        intro _
        refine hcare.imp_right fun hread => .inr (hread.resolve_right fun hthere => ?_)
        rw [hthere.2] at hfault
        contradiction
    · exact fun _ _ _ _ h hw he => lasts_telling _ _ _ _ _ trivial trivial h (hw he)
  refine tries_bind hread fun labels => ?_
  exact (tries_applyRoles (lasts_telling _ _ _) fun _ h => h).gives fun _ _ _ => trivial

theorem tries_reconcileFolderRbac : Tries jobs i (fun _ => True)
    (reconcileFolderRbac folder info) fun _ _ => True := by
  refine tries_bind tries_getFolderNamespaces fun items => ?_
  have hloop : Tries jobs i (Known (jobs i) items)
      (items.forM fun item => applyRoles item.1 folder (envName item.1 item.2) item.2 info)
      fun _ => Known (jobs i) items := by
    refine .forM any_serve (lasts_known items) (fun _ => lasts_const True) fun item hitem => ?_
    refine tries_applyRoles (lasts_known items) fun w hw => .inr ?_
    by_cases htenant : item.2.isTenant = true
    · exact .inl htenant
    · exact .inr ((hw item hitem).1 (Bool.eq_false_iff.mpr htenant))
  exact hloop.gives fun _ _ _ => trivial

/-- Where each request is fine wherever it is made, nothing has to be known. -/
theorem tries_quiet {p : Call α} (hp : Every (fun r => ∀ w : World ι, Fits w r) p.run) :
    Tries jobs i (fun _ => True) p fun _ _ => True :=
  tries_every (lasts_const True) (hp.mono fun _ hr w _ => hr w)

theorem tries_ensureFoldersConfigmap :
    Tries jobs i (fun _ => True) ensureFoldersConfigmap fun _ _ => True :=
  tries_quiet (every_ensureFoldersConfigmap fun _ hr _ => fits_silent hr)

theorem tries_assertFits : Tries jobs i (fun _ => True) assertFits fun _ _ => True :=
  tries_quiet (every_assertFits fun _ hr _ => fits_silent hr)

theorem tries_getDescendantNamespaces (folders : Data) : Tries jobs i (fun _ => True)
    (getDescendantNamespaces folders folder) (Known (jobs i)) := by
  unfold getDescendantNamespaces
  split
  · exact .throw (lasts_const True) fun _ _ => trivial
  · refine (Attempts.foldlM any_serve lasts_known (fun _ => lasts_const True) (fun all f _ => ?_)
      []).pre fun _ _ item hitem => absurd hitem not_mem_nil
    have hkeep : ∀ (fault : Fault) (w : World ι) (r : Request), any w → r.Silent →
        Known (jobs i) all w → Known (jobs i) all (serveCareful jobs i fault w r).2 :=
      fun fault w r _ hr hw =>
        lasts_known all w _ trivial trivial (sound_serveCareful (fits_silent hr)).1 hw
    refine tries_bind ((tries_getFolderNamespaces.frame any_serve (lasts_known all) hkeep
      (every_getFolderNamespaces fun r hr => hr)).weaken (fun _ h => ⟨trivial, h⟩)
      (fun _ _ h => h) fun _ _ _ => trivial) fun items => .pure ?_ fun w hw item hitem => ?_
    · exact (lasts_known items).and (lasts_known all)
    · exact (mem_append.mp hitem).elim (hw.2 item) (hw.1 item)

theorem tries_addFolderAccess {type role : String} (hgrants : (jobs i).Grants) :
    Tries jobs i (fun _ => True) (addFolderAccess folder ⟨type, name, role, .folder⟩)
      fun _ _ => True := by
  refine tries_bind tries_ensureFoldersConfigmap fun data => ?_
  split
  · exact .throw (lasts_const True) fun _ _ => trivial
  · next info _ =>
    split
    · exact .throw (lasts_const True) fun _ _ => trivial
    · next clusterRole _ =>
      have hsave : Tries jobs i (fun _ => True)
          (saveEntry folder ⟨type, name, role, .folder⟩ info) fun _ _ => True := by
        refine tries_quiet ?_
        unfold saveEntry
        split
        · exact .pure ()
        · exact every_ask fun _ => trivial
      refine tries_bind hsave fun _ => ?_
      refine tries_bind (tries_getDescendantNamespaces data) fun items => ?_
      have hloop (body : RoleBinding) (bindingName : String) : Tries jobs i (Known (jobs i) items)
            (items.forM fun item => passing (ask (.createBinding item.1 bindingName body)))
            fun _ => Known (jobs i) items := by
        refine .forM any_serve (lasts_known items) (fun _ => lasts_const True) fun item hitem => ?_
        refine tries_every (lasts_known items) (every_passing (every_ask fun w hw _ hlabels => ?_))
        have hplain := (hw item hitem).1 ((hw item hitem).2 hgrants)
        rw [plain_of_lookup hlabels hplain]
        exact fun htenant => absurd htenant Bool.false_ne_true
      exact (hloop _ _).gives fun _ _ _ => trivial

theorem tries_patchFolderAccess {change : FolderAccessPatchRequest} :
    Tries jobs i (fun _ => True) (patchFolderAccess folder change) fun _ _ => True := by
  refine tries_bind tries_ensureFoldersConfigmap fun data => ?_
  split
  · exact .throw (lasts_const True) fun _ _ => trivial
  · have hsave (info : Meta) : Tries jobs i (fun _ => True) (saveFolderMeta folder info)
        fun _ _ => True := tries_quiet (every_ask fun _ => trivial)
    exact tries_bind (hsave _) fun _ => tries_reconcileFolderRbac

theorem mayFill_plain (ns : String) :
    MayFill (fun r => ∀ w : World ι, Plain ns w → Fits w r) ns := by
  have hbind (w : World ι) (hplain : Plain ns w) (role : String) (labels : Labels)
      (hlabels : w.namespaces.lookup ns = some labels) (htenant : labels.isTenant = true) :
      ForTenants role := by
    rw [plain_of_lookup hlabels hplain] at htenant
    contradiction
  exact
    { create := fun _ _ _ _ => trivial
      replace := fun _ _ _ _ => trivial
      delete := fun _ _ _ => trivial
      createBinding := fun _ binding w hw => hbind w hw binding.role
      replaceBinding := fun _ _ binding w hw => hbind w hw binding.role
      deleteBinding := fun _ _ _ => trivial }

theorem tries_createEnvironmentNs {folders : Data} {quota : FolderQuota} :
    Tries jobs i (fun _ => True) (createEnvironmentNs folders folder env quota)
      fun _ _ => True := by
  have hfill : Tries jobs i (Plain (nsName folder env)) (fillEnvironment folders folder env quota)
      fun _ _ => True :=
    (tries_every (lasts_plain _) (every_fillEnvironment (fun r hr w _ => fits_silent hr)
      (mayFill_plain _))).gives fun _ _ _ => trivial
  have hcreate (labels : Labels) (handler : Nat → Call Unit)
      (hhandler : ∀ status, ∃ e, handler status = throw e) (hlabels : labels.isTenant = false) :
      Tries jobs i (fun _ => True)
        (exceptApi (ask (.createNamespace (nsName folder env) labels)) handler)
        fun _ => Plain (nsName folder env) := by
    refine attempts_exceptApi (fun _ => lasts_plain _) (fun _ => lasts_const True)
      (tries_ask (lasts_const True) (fun _ => lasts_plain _) (fun _ => lasts_const True)
        (fun _ _ => trivial) (fun _ _ => trivial) fun w fault _ _ => ?_) (fun status => ?_)
      fun _ _ _ _ => trivial
    · unfold serve
      split
      · simp only [commit]
        split
        · exact trivial
        · simpa only [outcome, Plain, AList.lookup_insert] using hlabels
      · exact trivial
    · obtain ⟨e, he⟩ := hhandler status
      rw [he]
      exact .throw (lasts_const True) fun _ _ => trivial
  have hmake := hcreate
    { enabled := some "true"
      managed := some "true"
      folder := some folder
      environment := some env }
    (fun status =>
      if status = 409 then
        throw (.http 409 ("Environment '" ++ nsName folder env ++ "' already exists"))
      else throw (.http status ""))
    (fun status => by split <;> exact ⟨_, rfl⟩) rfl
  unfold createEnvironmentNs
  split
  · exact tries_bind hmake fun _ => hfill
  · exact tries_bind tries_assertFits fun _ => tries_bind hmake fun _ => hfill

theorem mayCap_fits (ns : String) : MayCap (fun r => ∀ w : World ι, Fits w r) ns where
  create _ _ _ := trivial
  replace _ _ _ := trivial
  delete _ _ := trivial

theorem tries_addEnvironment {env : AddFolderEnvironmentRequest} :
    Tries jobs i (fun _ => True) (Access.addEnvironment folder env) fun _ _ => True := by
  let among : Request → Prop := fun r => ∀ w : World ι, Fits w r
  have hsends : Sends (serveCareful jobs i) (fun w _ v => Sound w v) among fun _ => True :=
    ⟨fun r hr w => fits_silent hr, fun fault w r hr _ => ⟨sound_serveCareful (hr w), trivial⟩⟩
  have hmay (folders : Data) (item : QuotaReallocation) :
      MayReallocate among folders folder item := by
    unfold MayReallocate
    split
    · exact mayCap_fits _
    · exact fun _ _ _ _ => trivial
  have hread : Tries jobs i (fun _ => True) ensureFoldersConfigmap fun _ _ => True ∧ True :=
    (hsends.keeps (lasts_const True) (every_ensureFoldersConfigmap hsends.1)).gives
      fun _ _ _ => ⟨trivial, trivial⟩
  exact hsends.addEnvironment (lasts_const True) (lasts_const True) hread
    (fun item _ _ folders _ _ => hmay folders item) fun _ _ _ _ _ => tries_createEnvironmentNs

theorem tries_buildTenant {tenant : String} :
    Tries jobs i (fun _ => True) (buildTenant tenant folder env info) fun _ _ => True := by
  refine tries_bind tries_ensureFoldersConfigmap fun _ => ?_
  refine tries_bind tries_assertFits fun _ => ?_
  refine tries_bind (tries_quiet (every_ask fun _ => trivial)) fun _ => ?_
  refine tries_bind (tries_quiet (every_ask fun _ => trivial)) fun _ => ?_
  refine tries_bind ?_ fun _ => tries_quiet (every_ask fun _ => trivial)
  refine .tryCatch any_serve (fun _ => lasts_const True) tries_reconcileNamespaceRbac fun e => ?_
  split
  · exact .throw (lasts_const True) fun _ _ => trivial
  · exact .pure (lasts_const True) fun _ _ => trivial

theorem tries_createTenant {tenant : String} :
    Tries jobs i (fun _ => True) (Access.createTenant tenant folder env) fun _ _ => True := by
  have hload : Tries jobs i (fun _ => True) (loadFolder folder) fun _ _ => True :=
    tries_quiet (every_loadFolder fun r hr _ => fits_silent hr)
  have hlist : Tries jobs i (fun _ => True) (ask (.listNamespaces folder)) fun _ _ => True :=
    tries_quiet (every_ask fun _ => trivial)
  have hexists : Tries jobs i (fun _ => True) (namespaceExists ("tenant-" ++ tenant))
      fun _ _ => True := by
    refine tries_quiet (every_exceptApi (.bind (every_ask fun _ => trivial) fun _ => .pure _)
      fun status => ?_)
    split
    · exact .pure _
    · exact .throw _
  refine tries_bind hload fun info => tries_bind hlist fun items => ?_
  split
  · exact .throw (lasts_const True) fun _ _ => trivial
  · refine tries_bind hexists fun standing => ?_
    split
    · exact .throw (lasts_const True) fun _ _ => trivial
    · refine .tryCatch any_serve (fun _ => lasts_const True) tries_buildTenant fun e => ?_
      split
      · exact .throw (lasts_const True) fun _ _ => trivial
      · refine tries_bind (tries_quiet (every_passing (every_ask fun _ => trivial))) fun _ => ?_
        exact .throw (lasts_const True) fun _ _ => trivial

theorem tries_program : Tries jobs i (fun _ => True) (jobs i).program fun _ _ => True := by
  cases hjob : jobs i with
  | grant folder type name role => exact tries_addFolderAccess (by rw [hjob]; trivial)
  | patch folder change => exact tries_patchFolderAccess
  | addEnvironment folder env => exact tries_addEnvironment
  | createTenant tenant folder environment => exact tries_createTenant
  | reconcileFolder folder info => exact tries_reconcileFolderRbac
  | reconcileNamespace ns folder env info => exact tries_reconcileNamespaceRbac

end Programs

section Runs

variable [DecidableEq ι]

/-- In every run in which the clients are careful, what is bound in a tenant's namespace is no
folder role. -/
theorem tenants_safe (jobs : ι → Job) (w : World ι)
    {t : Crowd (World ι) Request Request.Response ι (Except Failure Unit)}
    (hrun : Crowd.Run serve act (Guarded jobs) (starting jobs w) t) :
    ∀ e ∈ t.world.log, e ∈ w.log ∨ e.Fine := by
  have hcareful : Crowd.Run (serveCareful jobs) act (Guarded jobs) (starting jobs w) t := by
    refine hrun.of_serve_eq fun u i fault r k hcond hrest => ?_
    simp only [Guarded, hrest] at hcond
    exact if_pos hcond
  have hstart : Crowd.Legal any (fun _ => Kept) (fun _ w _ v => Sound w v)
      (fun _ => outcome (fun _ _ => True) fun _ _ => True) (serveCareful jobs) (starting jobs w) :=
    ⟨trivial, fun i => tries_program w trivial trivial⟩
  have hnone : ∀ e ∈ w.log, e ∈ w.log ∨ e.Fine := fun _ => .inl
  refine (Crowd.Run.invariant (P := fun v => ∀ e ∈ v.log, e ∈ w.log ∨ e.Fine)
    (fun _ => Kept.refl) (fun _ => any_serve) (fun s a hcond _ hs => ?_)
    (fun s i fault r k _ _ _ hs hsound => ⟨fun _ _ => hsound.1, fun e he => ?_⟩)
    hstart hnone hcareful).2
  · refine ⟨trivial, fun _ => kept_act fun name labels ha => ?_, ?_⟩
    · subst ha
      exact hcond
    · cases a with
      | remove name =>
        simp only [act]
        split <;> exact hs
      | _ => exact hs
  · exact (hsound.2 e he).elim (hs e) .inr

end Runs

section Example

instance (jobs : Unit → Job)
    (s : Crowd (World Unit) Request Request.Response Unit (Except Failure Unit)) :
    DecidablePred (Guarded jobs s) := fun turn => by
  unfold Guarded
  split
  · infer_instance
  · exact .isTrue trivial
  · split <;> infer_instance

/-- A folder whose viewers are the crew, and the namespace of a tenant in it. -/
def harbour : World Unit where
  clock := 0
  configMap := some ((∅ : Data).insert "dev" (some { access := some ⟨[], [], ["crew"], []⟩ }))
  namespaces :=
    (∅ : AList fun _ : String => Labels).insert "tenant-t1"
      { managed := some "true"
        folder := some "dev"
        environment := some "ops"
        tenant := some "t1" }
  bindings := ∅
  quotas := ∅
  log := []

/-- So many requests of the one client, none of which fails. -/
def calls (n : Nat) : List (Turn Action Fault Unit) := List.replicate n (.call () {})

/-- The last that was done was to bind this role in a tenant's namespace. -/
def boundLast (role : String)
    (t : Crowd (World Unit) Request Request.Response Unit (Except Failure Unit)) : Bool :=
  t.world.log.getLast?.any fun e => match e with
    | .bound _ _ labels binding => labels.isTenant && binding.role = role
    | _ => false

/-- A pass over the folder binds the tenant's role. -/
theorem tenants_safe_harbour : ∃ t, boundLast "kubevirt-ui-tenant-viewer" t = true ∧
    ∀ e ∈ t.world.log, e ∈ harbour.log ∨ e.Fine := by
  let jobs : Unit → Job := fun _ => .patch "dev" ⟨none, none, none, none⟩
  have hplay : (Crowd.playWhile serve act (Guarded jobs) (starting jobs harbour)
      (calls 6)).any (boundLast "kubevirt-ui-tenant-viewer") = true := by decide +kernel
  obtain ⟨t, hrun, ht⟩ := Crowd.exists_run_of_playWhile _ hplay
  exact ⟨t, ht, tenants_safe jobs harbour hrun⟩

/-- A grant on the folder binds the folder's role. -/
theorem not_safe_harbour : ∃ t, Crowd.Run serve act (fun _ _ => True)
    (starting (fun _ => .grant "dev" "team" "crew" "viewer") harbour) t ∧
      ¬ ∀ e ∈ t.world.log, e ∈ harbour.log ∨ e.Fine := by
  have hplay : (Crowd.playWhile serve act (fun _ _ => True)
      (starting (fun _ => .grant "dev" "team" "crew" "viewer") harbour)
      (calls 4)).any (boundLast "kubevirt-ui-viewer") = true := by decide +kernel
  obtain ⟨t, hrun, ht⟩ := Crowd.exists_run_of_playWhile _ hplay
  refine ⟨t, hrun, fun hall => ?_⟩
  obtain ⟨e, he, hbound⟩ := (Option.any_eq_true _ _).mp ht
  have hfine := (hall e (mem_of_getLast? he)).resolve_left not_mem_nil
  cases e with
  | bound i ns labels binding =>
    obtain ⟨htenant, hrole⟩ := Bool.and_eq_true_iff.mp hbound
    have hnot := (hfine htenant).1
    rw [of_decide_eq_true hrole] at hnot
    exact hnot (by decide)
  | _ => exact absurd hbound Bool.false_ne_true

end Example

end Access
