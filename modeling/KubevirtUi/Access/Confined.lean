import KubevirtUi.Access.Rules
import KubevirtUi.Library.Machine

/-!
# A folder's admin stays inside the folder

What belongs to a folder is told by the labels of the namespaces and by the tree. Most calls go by
these; some go by a name instead, which they join from the folder's name and one that the caller
gives, or by the name of a folder that the caller gives.
-/

namespace Access

open Folders (Meta Data Failure FolderQuota FolderAccessPatchRequest AddFolderAccessRequest Scope
  given parseAllFolders getDescendantNames withoutBinding)
open Interference List Option AList

variable {ι : Type}

/-- A call that a folder's admin may make on the folder. -/
inductive AdminCall where
  | addEnvironment (env : AddFolderEnvironmentRequest)
  | setEnvironmentQuota (environment : String) (quota : FolderQuota)
  | removeEnvironment (environment : String)
  | addFolderAccess (access : AddFolderAccessRequest)
  | removeFolderAccess (bindingId : String)

def AdminCall.body (name : String) : AdminCall → Call Unit
  | .addEnvironment env => Access.addEnvironment name env
  | .setEnvironmentQuota environment quota => Access.setEnvironmentQuota name environment quota
  | .removeEnvironment environment => Access.removeEnvironment name environment
  | .addFolderAccess access => Access.addFolderAccess name access
  | .removeFolderAccess bindingId => Access.removeFolderAccess name bindingId

def AdminCall.program (settings : Settings) (user : User) (name : String) (call : AdminCall) :
    Call Unit := do
  requireFolderAdmin settings user name
  call.body name

/-- What is stored of the folders, which may be nothing. -/
def World.data (w : World ι) : Data := w.configMap.getD ∅

/-- A folder is the other one, or is below it. -/
def Below (data : Data) (name f : String) : Prop := Relation.ReflTransGen data.Child f name

/-- The labels say a folder that is the other one, or is below it. -/
def Labels.Inside (data : Data) (name : String) (labels : Labels) : Prop :=
  ∃ f, labels.folder = some f ∧ Below data name f

/-- What has been written belongs to the folder, or to one below. -/
def Event.Inside (data : Data) (name : String) : Event ι → Prop
  | .ns _ _ labels => labels.Inside data name
  | .quota _ _ labels => labels.Inside data name
  | .bound _ _ labels _ => labels.Inside data name
  | .unbound _ _ labels => labels.Inside data name
  | .entry _ folder => Below data name folder

/-- If there is such a namespace, it belongs to the folder, or to one below. -/
def Owns (data : Data) (name ns : String) (w : World ι) : Prop :=
  ∀ labels ∈ w.namespaces.lookup ns, labels.Inside data name

/-- What is to be taken room from belongs to the folder, or to one below, if it is there. -/
def QuotaReallocation.Inside (data : Data) (name : String) (w : World ι)
    (item : QuotaReallocation) : Prop :=
  match item.kind with
  | .folder => item.source ∈ data → Below data name item.source
  | .environment => Owns data name (nsName name item.source) w

/-- What a call reaches by a name that the caller gives belongs to the folder, or to one below. -/
def AdminCall.Inside (name : String) (w : World ι) : AdminCall → Prop
  | .addEnvironment env => ∀ item ∈ env.reallocate, item.Inside w.data name w
  | .setEnvironmentQuota environment _ => Owns w.data name (nsName name environment) w
  | .addFolderAccess access =>
    match access.scope with
    | .environment env => ∀ e ∈ given env, Owns w.data name (nsName name e) w
    | .folder => True
  | _ => True

/-- A call that the caller makes, and what the requests of it meet. -/
abbrev Made := AdminCall × (Nat → Fault)

/-- The caller makes one call after the other. -/
def callStep (i : ι) (settings : Settings) (user : User) (name : String) (w : World ι)
    (made : Made) : Option (World ι) :=
  some ((made.1.program settings user name).run.perform (serve i) made.2 0 w).2.2

/-- The same folders, with the same parents. -/
structure SameTree (data data' : Data) : Prop where
  mem : ∀ name, name ∈ data ↔ name ∈ data'
  child : ∀ c f, data.Child c f ↔ data'.Child c f

/-- The metadata names the parent that the folder has. -/
def ParentAs (data : Data) (name : String) (info : Meta) : Prop :=
  name ∈ data ∧ ∀ f, info.parentId = some f ↔ data.Child name f

/-- A request that touches only what belongs to the folder. -/
def Proper (data : Data) (name : String) (w : World ι) : Request → Prop
  | .patchConfigMap folder info => Below data name folder ∧ ParentAs data folder info
  | .createNamespace _ labels => labels.Inside data name
  | .deleteNamespace ns | .createBinding ns .. | .replaceBinding ns .. | .deleteBinding ns _
  | .createQuota ns .. | .replaceQuota ns .. | .deleteQuota ns _ => Owns data name ns w
  | _ => True

/-- The tree and what is owned stay, and what is written belongs to the folder. -/
structure Advance (data : Data) (name : String) (w v : World ι) : Prop where
  tree : SameTree data w.data → SameTree data v.data
  owns : ∀ ns, Owns data name ns w → Owns data name ns v
  log : ∀ e ∈ v.log, e ∈ w.log ∨ e.Inside data name

variable {data' : Data} {info' : Meta} {quota : FolderQuota}

variable {i : ι} {w v : World ι} {r : Request} {data : Data} {name folder : String} {info : Meta}

section Effects

theorem SameTree.refl (data : Data) : SameTree data data := ⟨fun _ => Iff.rfl, fun _ _ => Iff.rfl⟩

theorem SameTree.below {f : String} (h : SameTree data data') :
    Below data name f ↔ Below data' name f := by
  have hsame : data.Child = data'.Child := by
    funext c g
    exact propext (h.child c g)
  rw [Below, Below, hsame]

/-- Writing metadata that names the old parent leaves the tree as it is. -/
theorem sameTree_insert (h : SameTree data data') (hinfo : ParentAs data folder info) :
    SameTree data (data'.insert folder (some info)) where
  mem name := by
    rw [mem_insert, ← h.mem]
    refine ⟨.inr, fun hname => hname.elim (fun hsame => ?_) id⟩
    subst hsame
    exact hinfo.1
  child c f := by
    by_cases hc : c = folder
    · subst hc
      rw [Folders.child_insert_self, getD_some, hinfo.2]
    · rw [Folders.child_insert_of_ne hc, h.child]

theorem advance_concat {e : Event ι} (hdata : v.data = w.data)
    (hspaces : v.namespaces = w.namespaces) (hlog : v.log = w.log ++ [e])
    (he : e.Inside data name) : Advance data name w v where
  tree := by rw [hdata]; exact id
  owns ns := by rw [Owns, Owns, hspaces]; exact id
  log x hx := by
    rw [hlog] at hx
    obtain hx | hx := mem_append.mp hx
    · exact .inl hx
    · exact .inr (mem_singleton.mp hx ▸ he)

theorem advance_of_effect (h : Effect i w r v) (hproper : Proper data name w r) :
    Advance data name w v := by
  cases h with
  | nothing => exact ⟨id, fun _ => id, fun _ => .inl⟩
  | configMap hnone =>
    refine ⟨fun htree => ?_, fun _ => id, fun _ => .inl⟩
    rwa [World.data, hnone] at htree
  | @entry old folder info hold =>
    refine ⟨fun htree => ?_, fun _ => id, fun e he => ?_⟩
    · rw [World.data, hold] at htree
      exact sameTree_insert htree hproper.2
    · obtain he | he := mem_append.mp he
      · exact .inl he
      · exact .inr (mem_singleton.mp he ▸ hproper.1)
  | @created ns labels hnone =>
    refine ⟨id, fun other hother l hl => ?_, fun e he => ?_⟩
    · by_cases hsame : other = ns
      · subst hsame
        rw [lookup_insert, mem_def, some.injEq] at hl
        exact hl ▸ hproper
      · rw [lookup_insert_ne hsame] at hl
        exact hother l hl
    · obtain he | he := mem_append.mp he
      · exact .inl he
      · exact .inr (mem_singleton.mp he ▸ hproper)
  | @deleted ns labels hlabels =>
    refine ⟨id, fun other hother l hl => ?_, fun e he => ?_⟩
    · change l ∈ (w.namespaces.erase ns).lookup other at hl
      by_cases hsame : other = ns
      · subst hsame
        simp at hl
      · rw [lookup_erase_ne hsame] at hl
        exact hother l hl
    · obtain he | he := mem_append.mp he
      · exact .inl he
      · exact .inr (mem_singleton.mp he ▸ hproper labels hlabels)
  | bound hr hlabels =>
    obtain rfl | ⟨version, rfl⟩ := hr
    · exact advance_concat rfl rfl rfl (hproper _ hlabels)
    · exact advance_concat rfl rfl rfl (hproper _ hlabels)
  | unbound hlabels => exact advance_concat rfl rfl rfl (hproper _ hlabels)
  | quota hr hlabels =>
    obtain rfl | rfl := hr
    · exact advance_concat rfl rfl rfl (hproper _ hlabels)
    · exact advance_concat rfl rfl rfl (hproper _ hlabels)
  | unquota hlabels => exact advance_concat rfl rfl rfl (hproper _ hlabels)

end Effects

/-- Nothing has been written that is read of the folders and the namespaces. -/
def Unread (w₀ w : World ι) : Prop := w.data = w₀.data ∧ w.namespaces = w₀.namespaces

/-- The tree is what it was, and what was owned is. -/
def Holds (name : String) (w₀ w : World ι) : Prop :=
  SameTree w₀.data w.data ∧ ∀ ns, Owns w₀.data name ns w₀ → Owns w₀.data name ns w

/-- A program that stays inside the folder, and what it achieves. -/
abbrev Stays (i : ι) (data : Data) (name : String) {α : Type} (P : World ι → Prop) (p : Call α)
    (Q : α → World ι → Prop) : Prop :=
  Attempts (serve i) any still (fun w _ v => Advance data name w v) P p Q fun _ _ => True

section Programs

variable {w₀ : World ι} {α : Type} {folders : Data} {P R : World ι → Prop} {f ns env : String}

theorem proper_silent (h : r.Silent) : Proper data name w r := by
  cases r <;> first | exact trivial | exact h.elim

theorem unread_of_effect (h : Effect i w r v) (hr : r.Silent) : Unread w v := by
  cases h with
  | nothing => exact ⟨rfl, rfl⟩
  | configMap hnone =>
    refine ⟨?_, rfl⟩
    rw [World.data, World.data, hnone]
    rfl
  | bound hbound _ =>
    obtain rfl | ⟨version, rfl⟩ := hbound
    · exact hr.elim
    · exact hr.elim
  | quota hquota _ =>
    obtain rfl | rfl := hquota
    · exact hr.elim
    · exact hr.elim
  | _ => exact hr.elim

theorem Unread.trans (h : Unread w₀ w) (h' : Unread w v) : Unread w₀ v :=
  ⟨h'.1.trans h.1, h'.2.trans h.2⟩

theorem Unread.holds (h : Unread w₀ w) : Holds name w₀ w := by
  refine ⟨?_, fun ns hns => ?_⟩
  · rw [h.1]
    exact SameTree.refl _
  · rwa [Owns, h.2]

theorem Holds.advance (h : Holds name w₀ w) (h' : Advance w₀.data name w v) : Holds name w₀ v :=
  ⟨h'.tree h.1, fun ns hns => h'.owns ns (h.2 ns hns)⟩

theorem stays_every (hR : ∀ w v, Advance data name w v → R w → R v) {p : Call α}
    (hp : Every (fun r => ∀ w, R w → Proper data name w r) p.run) :
    Stays i data name R p fun _ => R := by
  refine (Attempts.keeps_where any_serve (lasts_still _) (fun fault w r _ hr hw => ?_) hp).forget
  have hadvance := advance_of_effect (effect_serve i fault w r) (hr w hw)
  exact ⟨hadvance, hR w _ hadvance hw⟩

theorem stays_silent {p : Call α} (hp : Every Request.Silent p.run) :
    Stays i data name (Unread w₀) p fun _ => Unread w₀ := by
  refine (Attempts.keeps_where any_serve (lasts_still _) (fun fault w r _ hr hw => ?_) hp).forget
  have heffect := effect_serve i fault w r
  exact ⟨advance_of_effect heffect (proper_silent hr), hw.trans (unread_of_effect heffect hr)⟩

theorem stays_ask {Q : r.Result → World ι → Prop} {E : Failure → World ι → Prop}
    (hproper : ∀ w, P w → Proper data name w r)
    (h : ∀ w fault, P w → outcome Q E (serve i fault w r).1 (serve i fault w r).2) :
    Attempts (serve i) any still (fun w _ v => Advance data name w v) P (ask r) Q E :=
  Attempts.ask any_serve (lasts_still _) (fun _ => lasts_still _) (fun _ => lasts_still _)
    fun w fault _ hw => ⟨advance_of_effect (effect_serve i fault w r) (hproper w hw), h w fault hw⟩

theorem stays_ensureFoldersConfigmap : Stays i data name (Unread w₀) ensureFoldersConfigmap
    fun x w => x = w₀.data ∧ Unread w₀ w := by
  have hread : Attempts (serve i) any still (fun w _ v => Advance data name w v) (Unread w₀)
      (ask .readConfigMap) (fun x w => x = w₀.data ∧ Unread w₀ w) fun _ => Unread w₀ := by
    refine stays_ask (fun _ _ => trivial) fun w fault hw => ?_
    unfold serve
    split
    · simp only [commit]
      split
      · exact hw
      · next data hdata =>
        refine ⟨?_, hw⟩
        rw [← hw.1, World.data, hdata, getD_some]
    · exact hw
  have hcreate : Stays i data name (Unread w₀) (ask .createConfigMap)
      fun _ w => w₀.data = ∅ ∧ Unread w₀ w := by
    refine stays_ask (fun _ _ => trivial) fun w fault hw => ?_
    unfold serve
    split
    · simp only [commit]
      split
      · next hnone =>
        have hempty : w₀.data = ∅ := by rw [← hw.1, World.data, hnone, getD_none]
        exact ⟨hempty, hempty.symm, hw.2⟩
      · exact trivial
    · exact trivial
  have hsystem (handler : Nat → Call Unit) (hhandler : ∀ status, ∃ e, handler status = throw e) :
      Stays i data name (Unread w₀) (exceptApi (ask .readSystemNamespace) handler)
        fun _ => Unread w₀ := by
    refine stays_silent (every_exceptApi (every_ask trivial) fun status => ?_)
    obtain ⟨e, he⟩ := hhandler status
    rw [he]
    exact .throw _
  refine alone_exceptApi hread (fun status => ?_) fun _ _ _ _ => trivial
  split
  · refine alone_bind (hsystem _ fun status => ?_) fun _ =>
      alone_bind hcreate fun _ => alone_pure fun w hw => ⟨hw.1.symm, hw.2⟩
    split <;> exact ⟨_, rfl⟩
  · exact alone_throw fun _ _ => trivial

theorem mayFill_owned (hR : ∀ w, R w → Owns data name ns w) :
    MayFill (fun r => ∀ w, R w → Proper data name w r) ns where
  create _ _ := hR
  replace _ _ := hR
  delete _ := hR
  createBinding _ _ := hR
  replaceBinding _ _ _ := hR
  deleteBinding _ := hR

theorem parentAs_node (hnode : (parseAllFolders data).node f = some info)
    (hparent : info'.parentId = info.parentId) : ParentAs data f info' := by
  rw [Folders.node_parseAllFolders, map_eq_some_iff] at hnode
  obtain ⟨raw, hraw, rfl⟩ := hnode
  refine ⟨lookup_isSome.mp (by rw [hraw]; rfl), fun g => ?_⟩
  rw [Folders.child_iff, hparent]
  simp [hraw]

theorem stays_writeEnvQuota (hR : ∀ w v, Advance data name w v → R w → R v)
    (howns : ∀ w, R w → Owns data name ns w) :
    Stays i data name R (writeEnvQuota ns quota) fun _ => R :=
  stays_every hR (every_writeEnvQuota (mayFill_owned howns).toMayCap)

theorem stays_createEnvironmentNs :
    Stays i w₀.data name (Holds name w₀) (createEnvironmentNs folders name env quota)
      fun _ _ => True := by
  have hassert : Stays i w₀.data name (Holds name w₀) assertFits fun _ => Holds name w₀ :=
    stays_every (fun _ _ h hw => hw.advance h) (every_assertFits fun r hr w _ => proper_silent hr)
  have hcreate (labels : Labels) (handler : Nat → Call Unit)
      (hhandler : ∀ status, ∃ e, handler status = throw e) (hlabels : labels.folder = some name) :
      Stays i w₀.data name (Holds name w₀)
        (exceptApi (ask (.createNamespace (nsName name env) labels)) handler)
        fun _ => Owns w₀.data name (nsName name env) := by
    refine alone_exceptApi (E := fun _ _ => True)
      (stays_ask (fun _ _ => ⟨name, hlabels, .refl⟩) fun w fault _ => ?_)
      (fun status => ?_) fun _ _ _ _ => trivial
    · unfold serve
      split
      · simp only [commit]
        split
        · exact trivial
        · intro l hl
          rw [lookup_insert, mem_def, some.injEq] at hl
          exact hl ▸ ⟨name, hlabels, .refl⟩
      · exact trivial
    · obtain ⟨e, he⟩ := hhandler status
      rw [he]
      exact alone_throw fun _ _ => trivial
  have hfill : Stays i w₀.data name (Owns w₀.data name (nsName name env))
      (fillEnvironment folders name env quota) fun _ _ => True :=
    (stays_every (fun _ _ h hw => h.owns _ hw) (every_fillEnvironment
      (fun r hr w _ => proper_silent hr) (mayFill_owned fun _ hw => hw))).gives fun _ _ _ => trivial
  have hmake := hcreate
    { enabled := some "true"
      managed := some "true"
      folder := some name
      environment := some env }
    (fun status =>
      if status = 409 then
        throw (.http 409 ("Environment '" ++ nsName name env ++ "' already exists"))
      else throw (.http status ""))
    (fun status => by split <;> exact ⟨_, rfl⟩) rfl
  unfold createEnvironmentNs
  split
  · exact alone_bind hmake fun _ => hfill
  · exact alone_bind hassert fun _ => alone_bind hmake fun _ => hfill

theorem stays_addEnvironment {env : AddFolderEnvironmentRequest}
    (hinside : ∀ item ∈ env.reallocate, item.Inside w₀.data name w₀) :
    Stays i w₀.data name (Unread w₀) (Access.addEnvironment name env) fun _ _ => True := by
  let among : Request → Prop := fun r => ∀ w, Holds name w₀ w → Proper w₀.data name w r
  have hsends : Sends (serve i) (fun w _ v => Advance w₀.data name w v) among (Holds name w₀) := by
    refine ⟨fun r hr w _ => proper_silent hr, fun fault w r hr hw => ?_⟩
    have hadvance := advance_of_effect (effect_serve i fault w r) (hr w hw)
    exact ⟨hadvance, hw.advance hadvance⟩
  have hmay (item : QuotaReallocation) (hitem : item ∈ env.reallocate) (folders : Data)
      (hfolders : SameBut w₀.data folders) : MayReallocate among folders name item := by
    have hitem := hinside item hitem
    unfold QuotaReallocation.Inside at hitem
    unfold MayReallocate
    split
    · next hkind =>
      rw [hkind] at hitem
      exact (mayFill_owned fun w hw => hw.2 _ hitem).toMayCap
    · next hkind =>
      rw [hkind] at hitem
      intro info hinfo quota w _
      obtain ⟨old, hold, hsame⟩ := hfolders.exists_node hinfo
      have hparent : info.parentId = old.parentId := by simpa using congrArg Meta.parentId hsame
      have hsaved : ParentAs w₀.data item.source { info with quota := quota } :=
        parentAs_node hold hparent
      exact ⟨hitem hsaved.1, hsaved⟩
  have hmake (folders : Data) : Attempts (serve i) any still
      (fun w _ v => Advance w₀.data name w v) (Holds name w₀)
      (createEnvironmentNs folders name env.environment env.quota) (fun _ _ => True)
      fun _ => Holds name w₀ :=
    (stays_createEnvironmentNs.frame_good any_serve (lasts_still _)
      fun _ _ _ _ h hw => Holds.advance hw h).weaken (fun _ h => ⟨h, h⟩) (fun _ _ _ => trivial)
      fun _ _ h => h.2
  have hread : Attempts (serve i) any still (fun w _ v => Advance w₀.data name w v) (Unread w₀)
      ensureFoldersConfigmap (fun x w => x = w₀.data ∧ Holds name w₀ w) fun _ => Holds name w₀ :=
    (stays_ensureFoldersConfigmap.frame_good any_serve (lasts_still _)
      fun _ _ _ _ h hw => Holds.advance hw h).weaken (fun _ h => ⟨h, h.holds⟩)
      (fun _ _ h => ⟨h.1.1, h.2⟩) fun _ _ h => h.2
  exact (hsends.addEnvironment (lasts_still _) (lasts_still _) hread
    (fun item hitem _ folders hdata hsame => by subst hdata; exact hmay item hitem folders hsame)
    fun _ folders _ _ _ => hmake folders).forget

theorem stays_setEnvironmentQuota (hinside : Owns w₀.data name (nsName name env) w₀) :
    Stays i w₀.data name (Unread w₀) (Access.setEnvironmentQuota name env quota)
      fun _ _ => True := by
  have hassert : Stays i w₀.data name (Unread w₀) assertFits fun _ => Unread w₀ :=
    stays_silent (every_assertFits fun r hr => hr)
  have hwrite : Stays i w₀.data name (Unread w₀) (writeEnvQuota (nsName name env) quota)
      fun _ _ => True :=
    (stays_writeEnvQuota (R := Holds name w₀) (fun _ _ h hw => hw.advance h)
      fun w hw => hw.2 _ hinside).weaken (fun _ h => h.holds) (fun _ _ _ => trivial) fun _ _ h => h
  have hread (handler : Nat → Call Labels) (hhandler : ∀ status, ∃ e, handler status = throw e) :
      Stays i w₀.data name (Unread w₀)
        (exceptApi (ask (.readNamespace (nsName name env))) handler) fun _ => Unread w₀ := by
    refine stays_silent (every_exceptApi (every_ask trivial) fun status => ?_)
    obtain ⟨e, he⟩ := hhandler status
    rw [he]
    exact .throw _
  refine alone_bind stays_ensureFoldersConfigmap fun data => ?_
  refine Triple.of_fact fun _ => ?_
  split
  · exact alone_throw fun _ _ => trivial
  · refine alone_bind (hread _ fun status => ?_) fun _ => ?_
    · split <;> exact ⟨_, rfl⟩
    · split
      · exact hwrite
      · exact alone_bind hassert fun _ => hwrite

theorem stays_removeEnvironment :
    Stays i w₀.data name (Unread w₀) (Access.removeEnvironment name env) fun _ _ => True := by
  have hread : Stays i w₀.data name (Unread w₀) (ask (.readNamespace (nsName name env)))
      fun labels w => labels.folder = some name → Owns w₀.data name (nsName name env) w := by
    refine stays_ask (fun _ _ => trivial) fun w fault hw => ?_
    unfold serve
    split
    · simp only [commit]
      split
      · exact trivial
      · next labels hlabels =>
        intro hfolder l hl
        obtain rfl : labels = l := mem_unique hlabels hl
        exact ⟨name, hfolder, .refl⟩
    · exact trivial
  have hdelete : Stays i w₀.data name (Owns w₀.data name (nsName name env))
      (ask (.deleteNamespace (nsName name env))) fun _ _ => True :=
    stays_ask (fun _ hw => hw) fun w fault _ => by
      cases (serve i fault w (.deleteNamespace (nsName name env))).1 <;> trivial
  refine alone_bind stays_ensureFoldersConfigmap fun data => ?_
  refine Triple.of_fact fun _ => ?_
  split
  · exact alone_throw fun _ _ => trivial
  · refine alone_exceptApi (E := fun _ _ => True) (alone_bind hread fun labels => ?_)
      (fun status => ?_) fun _ _ _ _ => trivial
    · split
      · exact alone_throw fun _ _ => trivial
      · next hmanaged =>
        have hfolder : labels.folder = some name := by
          by_contra hne
          exact hmanaged (.inr hne)
        exact hdelete.pre fun _ hw => hw hfolder
    · split <;> exact alone_throw fun _ _ => trivial

theorem stays_getFolderNamespaces (hbelow : Below data name f) :
    Stays i data name (fun _ => True) (getFolderNamespaces f)
      fun items w => ∀ item ∈ items, Owns data name item.1 w := by
  refine alone_exceptApi (E := fun _ _ => True) (stays_ask (fun _ _ => trivial) fun w fault _ => ?_)
    (fun _ => alone_pure fun _ _ item hitem => absurd hitem not_mem_nil)
    fun _ _ _ _ => trivial
  unfold serve
  split
  · intro item hitem l hl
    obtain ⟨hlabels, hfolder, -⟩ := mem_environments.mp hitem
    obtain rfl : item.2 = l := mem_unique hlabels hl
    exact ⟨f, hfolder, hbelow⟩
  · exact trivial

/-- The namespaces that are found for a folder and all below belong there. -/
theorem stays_getDescendantNamespaces : Stays i data name (fun _ => True)
    (getDescendantNamespaces data name) fun items w => ∀ item ∈ items, Owns data name item.1 w := by
  unfold getDescendantNamespaces
  split
  · exact alone_throw fun _ _ => trivial
  · next names hnames =>
    refine (Attempts.foldlM any_serve (fun _ => lasts_still _) (fun _ => lasts_still _)
      (fun all f hf => ?_) []).pre fun _ _ item hitem => absurd hitem not_mem_nil
    have hbelow : Below data name f := by
      obtain rfl | hf := mem_cons.mp hf
      · exact .refl
      · exact ((Folders.mem_getDescendantNames hnames).mp hf).to_reflTransGen
    refine alone_bind (((stays_getFolderNamespaces hbelow).frame_good any_serve (lasts_still _)
      (R := fun w => ∀ item ∈ all, Owns data name item.1 w)
      fun _ _ _ _ h hw item hitem => h.owns _ (hw item hitem)).weaken (fun _ h => ⟨trivial, h⟩)
      (fun _ _ h => h) fun _ _ _ => trivial) fun items =>
        alone_pure fun w hw item hitem => ?_
    exact (mem_append.mp hitem).elim (hw.2 item) (hw.1 item)

/-- The folder's own metadata may be written with the parent that it has. -/
theorem stays_saveOwn (hnode : (parseAllFolders w₀.data).node name = some info)
    (hparent : info'.parentId = info.parentId) :
    Stays i w₀.data name (Holds name w₀) (saveFolderMeta name info') fun _ => Holds name w₀ :=
  stays_every (fun _ _ h hw => hw.advance h) (every_ask fun _ _ =>
    ⟨.refl, parentAs_node hnode hparent⟩)

theorem stays_addFolderAccess {access : AddFolderAccessRequest}
    (hinside : (AdminCall.addFolderAccess access).Inside name w₀) :
    Stays i w₀.data name (Unread w₀) (Access.addFolderAccess name access) fun _ _ => True := by
  refine alone_bind stays_ensureFoldersConfigmap fun data => ?_
  refine Triple.of_fact fun hdata => ?_
  subst hdata
  split
  · exact alone_throw fun _ _ => trivial
  · next info hnode =>
    split
    · exact alone_throw fun _ _ => trivial
    · next clusterRole _ =>
      simp only [AdminCall.Inside] at hinside
      have hsave : Stays i w₀.data name (Holds name w₀) (saveEntry name access info)
          fun _ => Holds name w₀ := by
        unfold saveEntry
        split
        · exact alone_pure fun _ h => h
        · refine stays_saveOwn hnode ?_
          unfold AddFolderAccessRequest.apply
          split <;> rfl
      have hbind (ns : String) (body : RoleBinding) : Stays i w₀.data name (Owns w₀.data name ns)
          (ask (.createBinding ns access.bindingName body)) fun _ _ => True :=
        stays_ask (fun _ hw => hw) fun w fault _ => by
          cases (serve i fault w (.createBinding ns access.bindingName body)).1 <;> trivial
      have hloop (items : List (String × Labels)) (body : RoleBinding) :
          Stays i w₀.data name (fun w => ∀ item ∈ items, Owns w₀.data name item.1 w)
            (items.forM fun item => passing (ask (.createBinding item.1 access.bindingName body)))
            fun _ w => ∀ item ∈ items, Owns w₀.data name item.1 w := by
        refine .forM any_serve (lasts_still _) (fun _ => lasts_still _) fun item hitem => ?_
        exact stays_every (fun _ _ h hw x hx => h.owns _ (hw x hx))
          (every_passing (every_ask fun _ hw => hw item hitem))
      split
      · next env hscope =>
        rw [hscope] at hinside
        split
        · exact alone_throw fun _ _ => trivial
        · next e he =>
          refine alone_exceptApi (E := fun _ _ => True)
            ((hbind _ _).pre fun _ hw => hw.holds.2 _ (hinside e he)) (fun status => ?_)
            fun _ _ _ _ => trivial
          split <;> exact alone_throw fun _ _ => trivial
      · refine alone_bind (hsave.pre fun _ h => h.holds) fun _ => ?_
        refine alone_bind (stays_getDescendantNamespaces.pre fun _ _ => trivial) fun items => ?_
        exact (hloop items _).gives fun _ _ _ => trivial

theorem stays_removeFolderAccess {bindingId : String} :
    Stays i w₀.data name (Unread w₀) (Access.removeFolderAccess name bindingId)
      fun _ _ => True := by
  have hremove (items : List (String × Labels)) (deleted : Bool) (item : String × Labels)
      (hitem : item ∈ items) :
      Stays i w₀.data name (fun w => Holds name w₀ w ∧ ∀ item ∈ items, Owns w₀.data name item.1 w)
        (removeBinding bindingId deleted item)
        fun _ w => Holds name w₀ w ∧ ∀ item ∈ items, Owns w₀.data name item.1 w := by
    refine stays_every (fun _ _ h hw => ⟨hw.1.advance h, fun x hx => h.owns _ (hw.2 x hx)⟩)
      (every_exceptApi (Every.bind (every_ask fun _ _ => trivial) fun binding => ?_)
        fun _ => .pure _)
    split
    · exact .bind (every_ask fun _ hw => hw.2 item hitem) fun _ => .pure _
    · exact .pure _
  have hentries (deleted : Bool) : Stays i w₀.data name (Holds name w₀)
      (removeEntries name bindingId ((parseAllFolders w₀.data).node name) deleted)
      fun _ _ => True := by
    unfold removeEntries
    split
    · exact alone_pure fun _ _ => trivial
    · next info hnode =>
      have hsave : Stays i w₀.data name (Holds name w₀)
          (saveFolderMeta name (withoutBinding bindingId info)) fun _ => Holds name w₀ :=
        stays_saveOwn hnode rfl
      split
      · exact alone_bind hsave fun _ => alone_pure fun _ _ => trivial
      · exact alone_pure fun _ _ => trivial
  refine alone_bind stays_ensureFoldersConfigmap fun data => ?_
  refine Triple.of_fact fun hdata => ?_
  subst hdata
  have hitems : Stays i w₀.data name (fun _ => True) (getDescendantNamespaces w₀.data name)
      fun items w => ∀ item ∈ items, Owns w₀.data name item.1 w := stays_getDescendantNamespaces
  have hlist := hitems.frame_good any_serve (lasts_still _) (R := Holds name w₀) fun _ _ _ _ h hw =>
      Holds.advance hw h
  refine alone_bind (hlist.weaken (fun _ h => ⟨trivial, h.holds⟩) (fun _ _ h => h.symm)
    fun _ _ _ => trivial) fun items => ?_
  refine alone_bind (Attempts.foldlM any_serve (fun _ => lasts_still _) (fun _ => lasts_still _)
    (hremove items) false) fun deleted => ?_
  refine alone_bind ((hentries deleted).pre fun _ h => h.1) fun deleted => ?_
  split
  · exact alone_pure fun _ _ => trivial
  · exact alone_throw fun _ _ => trivial

/-- A call whose names lead to what belongs to the folder stays inside. -/
theorem stays_program (settings : Settings) (user : User) {call : AdminCall}
    (hinside : call.Inside name w₀) :
    Stays i w₀.data name (Unread w₀) (call.program settings user name) fun _ _ => True := by
  have hadmitted : Stays i w₀.data name (Unread w₀) (requireFolderAdmin settings user name)
      fun _ => Unread w₀ := by
    refine stays_silent (Every.bind (every_loadFolder fun r hr => hr) fun info => ?_)
    split
    · exact .pure ()
    · exact .throw _
  refine alone_bind hadmitted fun _ => ?_
  cases call with
  | addEnvironment env => exact stays_addEnvironment hinside
  | setEnvironmentQuota environment quota => exact stays_setEnvironmentQuota hinside
  | removeEnvironment environment => exact stays_removeEnvironment
  | addFolderAccess access => exact stays_addFolderAccess hinside
  | removeFolderAccess bindingId => exact stays_removeFolderAccess

end Programs

section Runs

variable {settings : Settings} {user : User} {made : Made}

theorem advance_callStep (hinside : made.1.Inside name w)
    (h : callStep i settings user name w made = some v) : Advance w.data name w v := by
  obtain rfl := some.inj h
  have hrefl : Advance w.data name w w := ⟨id, fun _ => id, fun _ => .inl⟩
  exact ((stays_program settings user hinside).perform any_serve
    (J := fun v => Advance w.data name w v)
    (fun u r v _ h hu => ⟨fun ht => h.tree (hu.tree ht), fun ns hns => h.owns ns (hu.owns ns hns),
      fun e he => (h.log e he).elim (hu.log e) .inr⟩)
    trivial ⟨rfl, rfl⟩ hrefl 0).2.2

theorem Event.Inside.of_sameTree {e : Event ι} (h : SameTree data data')
    (he : e.Inside data' name) : e.Inside data name := by
  cases e with
  | entry _ folder => exact h.below.mpr he
  | _ => exact he.imp fun f hf => ⟨hf.1, h.below.mpr hf.2⟩

/-- In every run of calls that reach only what belongs to the folder, all that is touched belongs
to it, and the tree stays as it is. -/
theorem stays_inside (i : ι) (settings : Settings) (user : User) (name : String) {w v : World ι}
    (hrun : Machine.Run (callStep i settings user name) (fun u made => made.1.Inside name u) w v) :
    SameTree w.data v.data ∧ ∀ e ∈ v.log, e ∈ w.log ∨ e.Inside w.data name := by
  refine hrun.invariant (P := fun v => SameTree w.data v.data ∧
    ∀ e ∈ v.log, e ∈ w.log ∨ e.Inside w.data name) ⟨SameTree.refl _, fun _ => .inl⟩ ?_
  rintro t u made ⟨htree, hlog⟩ hinside hstep
  have hadvance := advance_callStep hinside hstep
  have hkept := hadvance.tree (SameTree.refl _)
  refine ⟨⟨fun f => (htree.mem f).trans (hkept.mem f),
    fun c f => (htree.child c f).trans (hkept.child c f)⟩, fun e he => ?_⟩
  obtain he | he := hadvance.log e he
  · exact hlog e he
  · exact .inr (he.of_sameTree htree)

end Runs

section Example

/-- Two folders, neither of which is below the other, and an environment of the second. -/
def quarter : World Unit where
  clock := 0
  configMap := some (((∅ : Data).insert "dev"
    (some { access := some ⟨["crew"], [], [], []⟩ })).insert "dev-ops" (some {}))
  namespaces :=
    (∅ : AList fun _ : String => Labels).insert "dev-ops-prod"
      { enabled := some "true"
        managed := some "true"
        folder := some "dev-ops"
        environment := some "prod" }
  bindings := ∅
  quotas := ∅
  log := []

/-- The admin of the first folder, and of nothing else. -/
def ann : User := ⟨["crew"], "ann@shop", ["ann@shop"]⟩

def groupSettings : Settings := ⟨false, [], ["root"]⟩

/-- The event made this namespace. -/
def Event.makes (ns : String) : Event Unit → Bool
  | .ns _ name _ => name = ns
  | _ => false

/-- The event capped a namespace of this folder. -/
def Event.caps (folder : String) : Event Unit → Bool
  | .quota _ _ labels => labels.folder = some folder
  | _ => false

/-- Below the first folder is a third; it has an environment, and both are capped. -/
def precinct : World Unit :=
  { quarter with
    configMap := some (quarter.data.insert "lab"
      (some { parentId := some "dev", quota := some ⟨some "8", none, none⟩ }))
    namespaces := quarter.namespaces.insert "dev-prod"
      { enabled := some "true"
        managed := some "true"
        folder := some "dev"
        environment := some "prod" }
    quotas := (∅ : Placed FolderQuota).insert ("dev-prod", "dev-prod-quota")
      ⟨some "4", none, none⟩ }

/-- The event wrote the entry of this folder. -/
def Event.saves (folder : String) : Event Unit → Bool
  | .entry _ saved => saved = folder
  | _ => false

/-- An environment is made with room from the folder below and from another environment, which is
then removed; a team is granted a role. -/
theorem stays_inside_precinct : ∃ v : World Unit,
    (v.log.any (Event.makes "dev-new") && v.log.any (Event.saves "lab") &&
      v.log.any (Event.caps "dev") && (v.namespaces.lookup "dev-prod").isNone) = true ∧
    SameTree precinct.data v.data ∧
    ∀ e ∈ v.log, e ∈ precinct.log ∨ e.Inside precinct.data "dev" := by
  let adding : Made := (.addEnvironment ⟨"new", ⟨some "2", none, none⟩,
    [⟨"lab", .folder, ⟨some "7", none, none⟩⟩, ⟨"prod", .environment, ⟨some "3", none, none⟩⟩]⟩,
    fun _ => {})
  let granting : Made := (.addFolderAccess ⟨"team", "smiths", "viewer", .folder⟩, fun _ => {})
  let removing : Made := (.removeEnvironment "prod", fun _ => {})
  have hplay : ((callStep () groupSettings ann "dev" precinct adding).bind fun t =>
      (callStep () groupSettings ann "dev" t granting).bind fun u =>
        callStep () groupSettings ann "dev" u removing).any (fun v =>
      v.log.any (Event.makes "dev-new") && v.log.any (Event.saves "lab") &&
        v.log.any (Event.caps "dev") && (v.namespaces.lookup "dev-prod").isNone) = true := by
    decide +kernel
  obtain ⟨v, hv, hdone⟩ := (any_eq_true _ _).mp hplay
  obtain ⟨t, ht, hv⟩ := bind_eq_some_iff.mp hv
  obtain ⟨u, hu, hv⟩ := bind_eq_some_iff.mp hv
  have hlab : Below precinct.data "dev" "lab" :=
    .single (Folders.child_iff.mpr ⟨_, lookup_insert _, rfl⟩)
  have hprod : Owns precinct.data "dev" "dev-prod" precinct := by
    intro labels hlabels
    obtain rfl := some.inj ((lookup_insert quarter.namespaces).symm.trans hlabels)
    exact ⟨"dev", rfl, .refl⟩
  have hinside : adding.1.Inside "dev" precinct := by
    intro item hitem
    obtain rfl | hitem := mem_cons.mp hitem
    · exact fun _ => hlab
    · obtain rfl := mem_singleton.mp hitem
      exact hprod
  have hgranting : granting.1.Inside "dev" t := trivial
  have hremoving : removing.1.Inside "dev" u := trivial
  exact ⟨v, hdone, stays_inside () groupSettings ann "dev"
    (.step (.step (.step .refl hinside ht) hgranting hu) hremoving hv)⟩

theorem not_below_quarter : ¬ Below quarter.data "dev" "dev-ops" := by
  intro hbelow
  obtain hsame | ⟨c, hchild, -⟩ := Relation.ReflTransGen.cases_head hbelow
  · exact absurd hsame (by decide)
  · obtain ⟨raw, hraw, hparent⟩ := Folders.child_iff.mp hchild
    obtain rfl : some {} = raw := some.inj hraw
    exact absurd hparent (by simp)

/-- The environment `ops-prod` of the first folder would have the name that the environment `prod`
of the second has. -/
theorem not_inside_quarter :
    isFolderAdmin groupSettings ann { access := some ⟨["crew"], [], [], []⟩ } = true ∧
    isFolderViewer groupSettings ann {} = false ∧
    ∃ v, Machine.Run (callStep () groupSettings ann "dev") (fun _ _ => True) quarter v ∧
      ¬ ∀ e ∈ v.log, e ∈ quarter.log ∨ e.Inside quarter.data "dev" := by
  refine ⟨by decide, by decide, ?_⟩
  have hplay : (Machine.play (callStep () groupSettings ann "dev") (fun _ _ => True) quarter
      [(.setEnvironmentQuota "ops-prod" ⟨some "1", none, none⟩, fun _ => {})]).any
        (fun v => v.log.any (Event.caps "dev-ops")) = true := by decide +kernel
  obtain ⟨v, hrun, hcaps⟩ := Machine.exists_run_of_play _ hplay
  refine ⟨v, hrun, fun hall => ?_⟩
  obtain ⟨e, he, hcap⟩ := any_eq_true.mp hcaps
  have hinside := (hall e he).resolve_left not_mem_nil
  cases e with
  | quota client ns labels =>
    obtain ⟨f, hf, hbelow⟩ := hinside
    obtain rfl : f = "dev-ops" := mem_unique hf (of_decide_eq_true hcap)
    exact not_below_quarter hbelow
  | _ => exact absurd hcap Bool.false_ne_true

end Example

end Access
