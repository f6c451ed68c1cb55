import KubevirtUi.Access.Calls
import KubevirtUi.Library.Solo

/-!
# What requests do

Each request that is served either changes nothing or does one thing to the world, and says so in
the log.
-/

namespace Access

open Folders (Meta Data Failure FolderQuota AccessEntry parseAllFolders)
open Interference Option

variable {ι α β : Type} {i : ι} {w v : World ι} {r : Request} {fault : Fault}

/-- What a request does to the world. -/
inductive Effect (i : ι) (w : World ι) : Request → World ι → Prop
  | nothing {r : Request} : Effect i w r w
  | configMap : w.configMap = none →
      Effect i w .createConfigMap { w with configMap := some ∅ }
  | entry {data : Data} {folder : String} {info : Meta} : w.configMap = some data →
      Effect i w (.patchConfigMap folder info)
        { w with
          configMap := some (data.insert folder (some info))
          log := w.log ++ [.entry i folder] }
  | created {name : String} {labels : Labels} : w.namespaces.lookup name = none →
      Effect i w (.createNamespace name labels)
        { w with
          namespaces := w.namespaces.insert name labels
          log := w.log ++ [.ns i name labels] }
  | deleted {name : String} {labels : Labels} : w.namespaces.lookup name = some labels →
      Effect i w (.deleteNamespace name)
        { w.remove name labels with log := w.log ++ [.ns i name labels] }
  | bound {r : Request} {ns name : String} {binding : RoleBinding} {labels : Labels} :
      (r = .createBinding ns name binding ∨
        ∃ version, r = .replaceBinding ns name version binding) →
      w.namespaces.lookup ns = some labels →
      Effect i w r (w.setBinding i ns name binding labels)
  | unbound {ns name : String} {labels : Labels} : w.namespaces.lookup ns = some labels →
      Effect i w (.deleteBinding ns name)
        { w with
          bindings := w.bindings.erase (ns, name)
          log := w.log ++ [.unbound i ns labels] }
  | quota {r : Request} {ns name : String} {quota : FolderQuota} {labels : Labels} :
      (r = .createQuota ns name quota ∨ r = .replaceQuota ns name quota) →
      w.namespaces.lookup ns = some labels →
      Effect i w r (w.setQuota i ns name quota labels)
  | unquota {ns name : String} {labels : Labels} : w.namespaces.lookup ns = some labels →
      Effect i w (.deleteQuota ns name)
        { w with
          quotas := w.quotas.erase (ns, name)
          log := w.log ++ [.quota i ns labels] }

theorem mem_environments {ns folder : String} {labels : Labels} :
    (ns, labels) ∈ w.environments folder ↔ w.namespaces.lookup ns = some labels ∧
      labels.folder = some folder ∧ labels.managed = some "true" := by
  simp only [World.environments, List.mem_map, List.mem_filter, decide_eq_true_eq, Prod.mk.injEq,
    ← mem_def (a := labels), AList.mem_lookup_iff]
  constructor
  · rintro ⟨⟨ns, labels⟩, ⟨hmem, hlabels⟩, rfl, rfl⟩
    exact ⟨hmem, hlabels⟩
  · rintro ⟨hmem, hlabels⟩
    exact ⟨⟨ns, labels⟩, ⟨hmem, hlabels⟩, rfl, rfl⟩

theorem write_cases (ns : String) (f : Labels → World ι) : (w.write ns f = (.error (.api 404), w)) ∨
      ∃ labels, w.namespaces.lookup ns = some labels ∧ w.write ns f = (.ok (), f labels) := by
  unfold World.write
  split
  · exact .inl rfl
  · next labels hlabels => exact .inr ⟨labels, hlabels, rfl⟩

theorem effect_write {ns : String} {f : Labels → World ι}
    (h : ∀ labels, w.namespaces.lookup ns = some labels → Effect i w r (f labels)) :
    Effect i w r (w.write ns f).2 := by
  obtain hnone | ⟨labels, hlabels, hsome⟩ := write_cases (w := w) ns f
  · rw [hnone]
    exact .nothing
  · rw [hsome]
    exact h labels hlabels

theorem effect_commit (i : ι) (fits : Bool) (w : World ι) (r : Request) :
    Effect i w r (commit i fits w r).2 := by
  cases r with
  | readSystemNamespace | listNamespaces | listBindings | listQuotas | fits => exact .nothing
  | readConfigMap | readNamespace | readLabels | readBinding =>
    simp only [commit]
    split <;> exact .nothing
  | createConfigMap =>
    simp only [commit]
    split
    · next hnone => exact .configMap hnone
    · exact .nothing
  | patchConfigMap folder info =>
    simp only [commit]
    split
    · exact .nothing
    · next data hdata => exact .entry hdata
  | createNamespace name labels =>
    simp only [commit]
    split
    · exact .nothing
    · next hnone => exact .created hnone
  | deleteNamespace name => exact effect_write fun labels hlabels => .deleted hlabels
  | createBinding ns name binding =>
    simp only [commit]
    split
    · exact .nothing
    · exact effect_write fun labels hlabels => .bound (.inl rfl) hlabels
  | replaceBinding ns name version binding =>
    simp only [commit]
    split
    · exact .nothing
    · split
      · exact .nothing
      · split
        · exact .nothing
        · exact effect_write fun labels hlabels => .bound (.inr ⟨version, rfl⟩) hlabels
  | deleteBinding ns name =>
    simp only [commit]
    split
    · exact .nothing
    · exact effect_write fun labels hlabels => .unbound hlabels
  | createQuota ns name quota =>
    simp only [commit]
    split
    · exact .nothing
    · exact effect_write fun labels hlabels => .quota (.inl rfl) hlabels
  | replaceQuota ns name quota =>
    simp only [commit]
    split
    · exact .nothing
    · exact effect_write fun labels hlabels => .quota (.inr rfl) hlabels
  | deleteQuota ns name =>
    simp only [commit]
    split
    · exact .nothing
    · exact effect_write fun labels hlabels => .unquota hlabels
  | createLimitRange ns | fillTenant ns => exact effect_write fun _ _ => .nothing

theorem effect_serve (i : ι) (fault : Fault) (w : World ι) (r : Request) :
    Effect i w r (serve i fault w r).2 := by
  unfold serve
  split
  · exact effect_commit i fault.fits w r
  · exact .nothing

variable {F : Type} {serve : F → World ι → (r : Request) → r.Response × World ι}
  {rely : World ι → World ι → Prop} {guar : World ι → Request → World ι → Prop} {P : World ι → Prop}
  {among : Request → Prop} {name : String} {info : Meta} {folders data : Data}

section Rules

variable {Q : α → World ι → Prop} {E E' : Failure → World ι → Prop}

/-- Nothing has to be known of every world. -/
def any (_ : World ι) : Prop := True

theorem any_serve : ∀ (f : F) (w : World ι) (r : Request), any w → any (serve f w r).2 :=
  fun _ _ _ _ => trivial

variable {body : Call α} {handler : Nat → Call α}

theorem attempts_exceptApi (hQ : ∀ a, Lasts any rely (Q a)) (hE : ∀ e, Lasts any rely (E e))
    (hbody : Attempts serve any rely guar P body Q E)
    (hhandler : ∀ status, Attempts serve any rely guar (E (.api status)) (handler status) Q E')
    (hother : ∀ e w, E e w → (∀ status, e ≠ .api status) → E' e w) :
    Attempts serve any rely guar P (exceptApi body handler) Q E' :=
  Attempts.tryCatch any_serve hQ hbody fun e => match e with
    | .api status => hhandler status
    | .http status detail => .throw (hE _) fun w hw => hother _ w hw (by simp)
    | .hangs => .throw (hE _) fun w hw => hother _ w hw (by simp)

section Alone

theorem alone_pure {a : α} (h : ∀ w, P w → Q a w) :
    Attempts serve any still guar P (pure a : Call α) Q E :=
  .pure (lasts_still _) h

theorem alone_throw {e : Failure} (h : ∀ w, P w → E e w) :
    Attempts serve any still guar P (throw e : Call α) Q E :=
  .throw (lasts_still _) h

theorem alone_bind {f : α → Call β} {R : β → World ι → Prop}
    (hbody : Attempts serve any still guar P body Q E)
    (hf : ∀ a, Attempts serve any still guar (Q a) (f a) R E) :
    Attempts serve any still guar P (body >>= f) R E :=
  hbody.bind any_serve (fun _ => lasts_still _) hf

theorem alone_exceptApi (hbody : Attempts serve any still guar P body Q E)
    (hhandler : ∀ status, Attempts serve any still guar (E (.api status)) (handler status) Q E')
    (hother : ∀ e w, E e w → (∀ status, e ≠ .api status) → E' e w) :
    Attempts serve any still guar P (exceptApi body handler) Q E' :=
  attempts_exceptApi (fun _ => lasts_still _) (fun _ => lasts_still _) hbody hhandler hother

end Alone

theorem every_exceptApi (hbody : Every among body.run)
    (hhandler : ∀ status, Every among (handler status).run) :
    Every among (exceptApi body handler).run :=
  hbody.tryCatch fun e => match e with
    | .api status => hhandler status
    | .http _ _ => .throw _
    | .hangs => .throw _

end Rules

/-- What writes nothing that is told of. -/
def Request.Silent : Request → Prop
  | .patchConfigMap .. | .createNamespace .. | .deleteNamespace _ | .createBinding ..
  | .replaceBinding .. | .deleteBinding .. | .createQuota .. | .replaceQuota ..
  | .deleteQuota .. => False
  | _ => True

section Every

variable {ns rbName folder folderName env targetNs : String} {body : RoleBinding} {labels : Labels}
  {quota : FolderQuota}

theorem every_ask (h : among r) : Every among (ask r).run := Every.ask h

theorem every_passing {body : Call Unit} (h : Every among body.run) :
    Every among (passing body).run :=
  every_exceptApi h fun _ => .pure ()

/-- What may be sent to write a binding. -/
structure MayApply (among : Request → Prop) (ns rbName : String) (body : RoleBinding) : Prop where
  delete : among (.deleteBinding ns rbName)
  create : body.subjects ≠ [] → among (.createBinding ns rbName body)
  replace : body.subjects ≠ [] → ∀ version, among (.replaceBinding ns rbName version body)

section

variable (hsilent : ∀ r : Request, r.Silent → among r)

include hsilent

theorem every_applyPhase2Rb (h : MayApply among ns rbName body) :
    Every among (applyPhase2Rb rbName ns body).run := by
  have hdelete : Every among (exceptApi (ask (.deleteBinding ns rbName)) fun _ => pure ()).run :=
    every_exceptApi (every_ask h.delete) fun _ => .pure ()
  unfold applyPhase2Rb
  split
  · exact hdelete
  · next hsubjects =>
    have hreplace : Every among (replacePhase2Rb ns rbName body).run := by
      refine .bind (every_ask (hsilent _ trivial)) fun existing => ?_
      split
      · exact .bind hdelete fun _ => every_ask (h.create hsubjects)
      · exact every_ask (h.replace hsubjects _)
    refine every_exceptApi (every_ask (h.create hsubjects)) fun status => ?_
    split
    · exact every_exceptApi hreplace fun _ => .pure ()
    · exact .pure ()

theorem every_applyRoles
    (h : ∀ role : Role, MayApply among ns role.rbName (roleBody folder env labels info role)) :
    Every among (applyRoles ns folder env labels info).run :=
  Every.forM fun role _ => every_applyPhase2Rb hsilent (h role)

theorem every_getFolderNamespaces : Every among (getFolderNamespaces folder).run :=
  every_exceptApi (every_ask (hsilent _ trivial)) fun _ => .pure _

theorem every_ensureFoldersConfigmap : Every among ensureFoldersConfigmap.run := by
  refine every_exceptApi (every_ask (hsilent _ trivial)) fun status => ?_
  split
  · refine .bind (every_exceptApi (every_ask (hsilent _ trivial)) fun status => ?_) fun _ =>
      Every.bind (every_ask (hsilent _ trivial)) fun _ => .pure _
    split <;> exact .throw _
  · exact .throw _

theorem every_loadFolder : Every among (loadFolder folderName).run := by
  refine .bind (every_exceptApi (every_ask (hsilent _ trivial)) fun status => ?_) fun data => ?_
  · split <;> exact .throw _
  · split
    · exact .throw _
    · exact .pure _

theorem every_assertFits : Every among assertFits.run := by
  refine .bind (every_ask (hsilent _ trivial)) fun fits => ?_
  split
  · exact .pure ()
  · exact .throw _

theorem every_readEnvQuota : Every among (readEnvQuota ns).run :=
  Every.bind (every_exceptApi (every_ask (hsilent _ trivial)) fun _ => .pure _) fun _ =>
    Every.pure _

end

/-- What may be sent to write the quota of a namespace. -/
structure MayCap (among : Request → Prop) (ns : String) : Prop where
  create : ∀ name quota, among (.createQuota ns name quota)
  replace : ∀ name quota, among (.replaceQuota ns name quota)
  delete : ∀ name, among (.deleteQuota ns name)

theorem every_writeEnvQuota (h : MayCap among ns) : Every among (writeEnvQuota ns quota).run := by
  unfold writeEnvQuota
  split
  · refine every_exceptApi (every_ask (h.replace _ _)) fun status => ?_
    split
    · exact every_ask (h.create _ _)
    · exact .throw _
  · refine every_exceptApi (every_ask (h.delete _)) fun status => ?_
    split
    · exact .pure ()
    · exact .throw _

theorem every_propagateEntry (hcreate : ∀ name b, among (.createBinding targetNs name b))
    (created : List String) (grant : String × AccessEntry) :
    Every among (propagateEntry targetNs created grant).run := by
  obtain ⟨ancestor, entry⟩ := grant
  simp only [propagateEntry]
  split
  · exact .pure _
  · split
    · exact .pure _
    · exact every_exceptApi (Every.bind (every_ask (hcreate _ _)) fun _ => .pure _) fun _ =>
        Every.pure _

theorem every_copyBinding (hcreate : ∀ name b, among (.createBinding targetNs name b))
    (created : List String) (b : String × RoleBinding) :
    Every among (copyBinding targetNs created b).run := by
  unfold copyBinding
  split
  · exact .pure _
  · exact every_exceptApi (Every.bind (every_ask (hcreate _ _)) fun _ => .pure _) fun _ =>
      Every.pure _

section

variable (hsilent : ∀ r : Request, r.Silent → among r)
  (hcreate : ∀ name b, among (.createBinding targetNs name b))

include hsilent hcreate

theorem every_copyFromSibling (ancestor : String) (created : List String)
    (items : List (String × Labels)) :
    Every among (copyFromSibling ancestor targetNs created items).run := by
  induction items with
  | nil => exact .pure _
  | cons item rest ih =>
    unfold copyFromSibling
    split
    · exact ih
    · have hlist : Every among (exceptApi (do return some (← ask (.listBindings item.1 ancestor)))
          fun _ => pure none).run :=
        every_exceptApi (Every.bind (every_ask (hsilent _ trivial)) fun _ => .pure _)
          fun _ => .pure _
      refine .bind hlist fun bindings => ?_
      split
      · exact ih
      · exact .foldlM fun created b _ => every_copyBinding hcreate created b

theorem every_propagateFolderAccess :
    Every among (propagateFolderAccess folders folderName targetNs).run := by
  unfold propagateFolderAccess
  split
  · exact .throw _
  · have hcopy (created : List String) (ancestor : String) :
        Every among (copyFromAncestor targetNs created ancestor).run :=
      Every.bind (every_getFolderNamespaces hsilent) fun items =>
        every_copyFromSibling hsilent hcreate ancestor created items
    refine .bind (Every.foldlM fun created grant _ =>
      every_propagateEntry hcreate created grant) fun created => ?_
    exact .bind (Every.foldlM fun created ancestor _ => hcopy created ancestor) fun _ =>
      Every.pure _

end

theorem every_reconcileNamespaceRbac (hsilent : ∀ r : Request, r.Silent → among r)
    (h : ∀ labels, ∀ role : Role,
      MayApply among ns role.rbName (roleBody folder env labels info role)) :
    Every among (reconcileNamespaceRbac ns folder env info).run :=
  Every.bind (every_exceptApi (every_ask (hsilent _ trivial)) fun _ => .pure _) fun labels =>
    every_applyRoles hsilent (h labels)

/-- What may be sent to write anything in a namespace. -/
structure MayFill (among : Request → Prop) (ns : String) : Prop extends MayCap among ns where
  createBinding : ∀ name b, among (.createBinding ns name b)
  replaceBinding : ∀ name version b, among (.replaceBinding ns name version b)
  deleteBinding : ∀ name, among (.deleteBinding ns name)

theorem every_fillEnvironment (hsilent : ∀ r : Request, r.Silent → among r)
    (h : MayFill among (nsName folderName env)) :
    Every among (fillEnvironment folders folderName env quota).run := by
  have hrest : Every among (do
      propagateFolderAccess folders folderName (nsName folderName env)
      reconcileEnvRbac folderName env
        (((parseAllFolders folders).node folderName).getD {}) : Call Unit).run :=
    Every.bind (every_propagateFolderAccess hsilent h.createBinding) fun _ =>
      every_reconcileNamespaceRbac hsilent fun labels role =>
        { delete := h.deleteBinding _
          create := fun _ => h.createBinding _ _
          replace := fun _ _ => h.replaceBinding _ _ _ }
  unfold fillEnvironment
  split
  · exact .bind (every_passing (every_ask (h.create _ _))) fun _ =>
      Every.bind (every_passing (every_ask (hsilent _ trivial))) fun _ => hrest
  · exact hrest

/-- What may be sent for one item of a reallocation. -/
def MayReallocate (among : Request → Prop) (folders : Data) (folderName : String)
    (item : QuotaReallocation) : Prop :=
  match item.kind with
  | .environment => MayCap among (nsName folderName item.source)
  | .folder => ∀ info, (parseAllFolders folders).node item.source = some info →
      ∀ quota, among (.patchConfigMap item.source { info with quota := quota })

end Every

/-- The same folders, but for what they cap. -/
def SameBut (data folders : Data) : Prop :=
  ∀ f, ((parseAllFolders folders).node f).map (fun info => { info with quota := none }) =
    ((parseAllFolders data).node f).map fun info => { info with quota := none }

section Reallocations

variable {f : String}

theorem SameBut.refl (data : Data) : SameBut data data := fun _ => rfl

theorem SameBut.isSome (h : SameBut data folders) (f : String) :
    ((parseAllFolders folders).node f).isSome = ((parseAllFolders data).node f).isSome := by
  have hf := congrArg Option.isSome (h f)
  rwa [isSome_map, isSome_map] at hf

theorem SameBut.exists_node (h : SameBut data folders)
    (hnode : (parseAllFolders folders).node f = some info) :
    ∃ old, (parseAllFolders data).node f = some old ∧
      { info with quota := none } = { old with quota := none } := by
  have hf := h f
  rw [hnode, map_some] at hf
  obtain ⟨old, hold, hsame⟩ := map_eq_some_iff.mp hf.symm
  exact ⟨old, hold, hsame.symm⟩

theorem SameBut.insert (h : SameBut data folders) {quota : Option FolderQuota}
    (hnode : (parseAllFolders folders).node f = some info) :
    SameBut data (folders.insert f (some { info with quota := quota })) := by
  intro g
  rw [← h g, Folders.node_parseAllFolders, Folders.node_parseAllFolders]
  by_cases hg : g = f
  · subst hg
    rw [Folders.node_parseAllFolders] at hnode
    rw [AList.lookup_insert, hnode]
    rfl
  · rw [AList.lookup_insert_ne hg]

/-- How far a reallocation has come: the folders are the same but for what they cap, and what has
been changed is among what was to change. -/
def Ready (data : Data) (items : List QuotaReallocation) (done : Reallocated) : Prop :=
  SameBut data done.1 ∧ ∀ u ∈ done.2, u.1 ∈ items ∧
    (u.1.kind = .folder → ((parseAllFolders data).node u.1.source).isSome)

end Reallocations

section Making

variable {P₀ Q : World ι → Prop} {items : List QuotaReallocation} {done : Reallocated}
  {item : QuotaReallocation}

/-- What may be sent leaves what is known true, and is good. -/
def Sends (serve : F → World ι → (r : Request) → r.Response × World ι)
    (guar : World ι → Request → World ι → Prop) (among : Request → Prop) (P : World ι → Prop) :
    Prop :=
  (∀ r : Request, r.Silent → among r) ∧ ∀ f w r, among r → P w →
    guar w r (serve f w r).2 ∧ P (serve f w r).2

theorem Sends.keeps (h : Sends serve guar among P) (hP : Lasts any rely P) {p : Call α}
    (hp : Every among p.run) : Attempts serve any rely guar P p (fun _ => P) fun _ => P :=
  Attempts.keeps_where any_serve hP (fun f w r _ => h.2 f w r) hp

theorem Sends.applyReallocation (h : Sends serve guar among P) (hP : Lasts any rely P)
    (hitem : item ∈ items)
    (hmay : ∀ folders, SameBut data folders → MayReallocate among folders name item) :
    Attempts serve any rely guar (fun w => Ready data items done ∧ P w)
      (Access.applyReallocation name done item) (fun done w => Ready data items done ∧ P w)
      fun _ => P := by
  obtain ⟨folders, undo⟩ := done
  refine Triple.of_fact fun hready => ?_
  have hmay := hmay folders hready.1
  have hmore (hknown : item.kind = .folder → ((parseAllFolders data).node item.source).isSome)
      (current : FolderQuota) : ∀ u ∈ undo ++ [(item, current)], u.1 ∈ items ∧
        (u.1.kind = .folder → ((parseAllFolders data).node u.1.source).isSome) := by
    intro u hu
    obtain hu | hu := List.mem_append.mp hu
    · exact hready.2 u hu
    · obtain rfl := List.mem_singleton.mp hu
      exact ⟨hitem, hknown⟩
  have hdone (done : Reallocated) : Lasts any rely fun w => Ready data items done ∧ P w :=
    (lasts_const _).and hP
  unfold Access.applyReallocation
  refine (h.keeps hP (every_assertFits h.1)).bind any_serve (fun _ => hP) fun _ => ?_
  unfold MayReallocate at hmay
  split
  · next hkind =>
    rw [hkind] at hmay
    split
    · exact .throw hP fun _ hw => hw
    · next info hinfo =>
      have hknown : ((parseAllFolders data).node item.source).isSome := by
        rw [← hready.1.isSome, hinfo]
        rfl
      refine (h.keeps hP (every_ask (hmay info hinfo _))).bind any_serve (fun _ => hP) fun _ =>
        .pure hP fun w hw => ⟨⟨hready.1.insert hinfo, hmore (fun _ => hknown) _⟩, hw⟩
  · next hkind =>
    rw [hkind] at hmay
    refine (h.keeps hP (every_readEnvQuota h.1)).bind any_serve (fun _ => hP) fun current => ?_
    refine (h.keeps hP (every_writeEnvQuota hmay)).bind any_serve (fun _ => hP) fun _ =>
      .pure hP fun w hw => ⟨⟨hready.1, hmore (fun hfolder => ?_) _⟩, hw⟩
    rw [hkind] at hfolder
    contradiction

theorem every_undoReallocation {undo : QuotaReallocation × FolderQuota}
    (hready : Ready data items done) (hundo : undo ∈ done.2)
    (hmay : ∀ folders, SameBut data folders → MayReallocate among folders name undo.1) :
    Every among (undoReallocation done.1 name undo).run := by
  have hmay := hmay done.1 hready.1
  obtain ⟨item, previous⟩ := undo
  have hknown := (hready.2 _ hundo).2
  unfold MayReallocate at hmay
  refine .tryCatch ?_ fun e => ?_
  · split
    · next hkind =>
      simp only [hkind] at hmay
      have hthere := hknown hkind
      rw [← hready.1.isSome] at hthere
      obtain ⟨info, hinfo⟩ := isSome_iff_exists.mp hthere
      rw [hinfo]
      exact every_ask (hmay info hinfo _)
    · next hkind =>
      simp only [hkind] at hmay
      exact every_writeEnvQuota hmay
  · split
    · exact .throw _
    · exact .pure ()

/-- An environment is made after room has been made for it. Where it is not made, all that was
changed is changed back, and what was known is known. -/
theorem Sends.addEnvironment {env : AddFolderEnvironmentRequest} {known : Data → Prop}
    (h : Sends serve guar among P) (hP : Lasts any rely P) (hQ : Lasts any rely Q)
    (hread : Attempts serve any rely guar P₀ ensureFoldersConfigmap (fun x w => known x ∧ P w)
      fun _ => P)
    (hmay : ∀ item ∈ env.reallocate, ∀ data folders, known data → SameBut data folders →
      MayReallocate among folders name item)
    (hmake : ∀ data folders, known data → ((parseAllFolders data).node name).isSome →
      SameBut data folders → Attempts serve any rely guar P
        (createEnvironmentNs folders name env.environment env.quota) (fun _ => Q) fun _ => P) :
    Attempts serve any rely guar P₀ (Access.addEnvironment name env) (fun _ => Q) fun _ => P := by
  refine hread.bind any_serve (fun _ => hP) fun data => ?_
  refine Triple.of_fact fun hknown => ?_
  split
  · exact Attempts.throw hP fun _ hw => hw
  next hthere =>
  have hnode : ((parseAllFolders data).node name).isSome := by
    simpa [isSome_iff_ne_none] using hthere
  let next : Reallocated → Call Unit := fun done =>
    tryCatch (createEnvironmentNs done.1 name env.environment env.quota) fun e => do
      if e = .hangs then throw e
      else do
        done.2.reverse.forM (undoReallocation done.1 name)
        throw e
  have hnext (done : Reallocated) : Attempts serve any rely guar
      (fun w => Ready data env.reallocate done ∧ P w) (next done) (fun _ => Q) fun _ => P := by
    obtain ⟨folders, undo⟩ := done
    refine Triple.of_fact fun hready => ?_
    refine Attempts.tryCatch any_serve (fun _ => hQ) (hmake data folders hknown hnode hready.1)
      fun e => ?_
    split
    · exact .throw hP fun _ hw => hw
    · have hundo (u : QuotaReallocation × FolderQuota) (hu : u ∈ undo.reverse) :
          Attempts serve any rely guar P (undoReallocation folders name u) (fun _ => P)
            fun _ => P :=
        h.keeps hP (every_undoReallocation hready (List.mem_reverse.mp hu) fun folders =>
          hmay u.1 (hready.2 u (List.mem_reverse.mp hu)).1 data folders hknown)
      exact (Attempts.forM any_serve hP (fun _ => hP) hundo).bind any_serve (fun _ => hP) fun _ =>
        .throw hP fun _ hw => hw
  have hloop : Attempts serve any rely guar P
      (env.reallocate.foldlM (Access.applyReallocation name) (data, []) >>= next) (fun _ => Q)
      fun _ => P := by
    refine ((Attempts.foldlM any_serve (fun _ => (lasts_const _).and hP) (fun _ => hP)
      (fun done item hitem => h.applyReallocation hP hitem fun folders =>
        hmay item hitem data folders hknown) (data, [])).pre fun w hw => ?_).bind any_serve
        (fun _ => hP) hnext
    exact ⟨⟨SameBut.refl data, fun u hu => absurd hu List.not_mem_nil⟩, hw⟩
  split
  · exact hloop
  · exact (h.keeps hP (every_assertFits h.1)).bind any_serve (fun _ => hP) fun _ => hloop

end Making

end Access
