import KubevirtUi.Access.Rules
import KubevirtUi.Quotas.Quiet

/-!
# What making an environment comes to where no call fails

The check comes first. Then the namespace is made, which must not be there yet, and filled; whatever
fails there is passed over.
-/

namespace Quotas

open Access (Labels asks fillEnvironment nsName propagateFolderAccess quotaHard quotaName
  reconcileEnvRbac)
open Folders (Data Failure FolderQuota Meta getAncestorChain parseAllFolders)
open Interference
open Tenant (Dimension)

variable {α β : Type}

variable {p : Access.Call β} {c c' : Access.World Unit} {labels : Labels}

section Embed

variable {w : World}

/-- The cluster as a program of the folders' API leaves it. -/
def World.after (w : World) (p : Access.Call β) : World :=
  { w with cluster := (p.run.run (Access.serve ()) (fun _ => {}) w.cluster).2 }

theorem run_embed (phase : Phase) (p : Program Access.Request Access.Request.Response β)
    (w : World) : (embed phase p).run serve (fun _ => none) w =
      ((p.run (Access.serve ()) (fun _ => {}) w.cluster).1,
        { w with cluster := (p.run (Access.serve ()) (fun _ => {}) w.cluster).2 }) := by
  induction p generalizing w with
  | pure a => rfl
  | call r k ih => exact ih _ _

theorem comes_lift (phase : Phase) (p : Access.Call β) (w : World) :
    Comes (lift phase p) w (p.run.run (Access.serve ()) (fun _ => {}) w.cluster).1 (w.after p) :=
  run_embed phase p.run w

/-- The folders, where the ConfigMap is made if it is not there. -/
def World.folders (w : World) : Data := w.cluster.configMap.getD ∅

def World.withConfigMap (w : World) : World :=
  { w with cluster := { w.cluster with configMap := some w.folders } }

theorem comes_ensureFoldersConfigmap (w : World) :
    Comes ensureFoldersConfigmap w (.ok w.folders) w.withConfigMap := by
  refine (comes_lift .checking Access.ensureFoldersConfigmap w).trans ?_
  obtain ⟨⟨clock, configMap, namespaces, bindings, quotas, log⟩, used⟩ := w
  cases configMap with
  | none => rfl
  | some data => rfl

end Embed

section Fill

/-- Every failure of a call is an `ApiException`. -/
def Mild (r : Access.Request) (x : r.Response) : Prop :=
  ∀ e, x = .error e → ∃ status, e = .api status

/-- The program raises no exception but such. -/
abbrev Raises (E : Failure → Prop) (p : Access.Call β) : Prop :=
  Settles Mild (Settles.Throws E) p.run

/-- It raises none at all. -/
abbrev Calm (p : Access.Call β) : Prop := Raises (fun _ => False) p

variable {E : Failure → Prop}

theorem raises_ask (r : Access.Request) : Raises (fun e => ∃ status, e = .api status)
    (Access.ask r) := by
  intro x hx
  cases x with
  | ok _ => exact trivial
  | error e => exact hx e rfl

theorem Calm.raises (h : Calm p) : Raises E p := by
  refine h.mono fun x hx => ?_
  cases x with
  | ok _ => exact trivial
  | error e => exact hx.elim

theorem calm_pure (b : β) : Calm (pure b : Access.Call β) := trivial

theorem raises_exceptApi {body : Access.Call β} {handler : Nat → Access.Call β}
    (hbody : Raises (fun e => ∃ status, e = .api status) body)
    (hhandler : ∀ status, Raises E (handler status)) : Raises E (Access.exceptApi body handler) :=
  hbody.tryCatch fun e ⟨status, he⟩ => by
    subst he
    exact hhandler status

theorem calm_exceptApi_ask (r : Access.Request) {handler : Nat → Access.Call r.Result}
    (hhandler : ∀ status, Calm (handler status)) : Calm (Access.exceptApi (Access.ask r) handler) :=
  raises_exceptApi (raises_ask r) hhandler

theorem calm_applyPhase2Rb (rbName ns : String) (body : Access.RoleBinding) :
    Calm (Access.applyPhase2Rb rbName ns body) := by
  rw [Access.applyPhase2Rb]
  split
  · exact calm_exceptApi_ask _ fun _ => calm_pure _
  · refine calm_exceptApi_ask _ fun status => ?_
    split
    · refine raises_exceptApi ((raises_ask _).bind fun existing => ?_) fun _ => calm_pure _
      split
      · exact (calm_exceptApi_ask _ fun _ => calm_pure _).raises.bind fun _ => raises_ask _
      · exact raises_ask _
    · exact calm_pure _

theorem calm_reconcileEnvRbac (folder env : String) (info : Meta) :
    Calm (reconcileEnvRbac folder env info) :=
  (calm_exceptApi_ask _ fun _ => calm_pure _).bind fun _ =>
    Settles.forM fun _ _ => calm_applyPhase2Rb _ _ _

theorem calm_getFolderNamespaces (folder : String) : Calm (Access.getFolderNamespaces folder) :=
  calm_exceptApi_ask _ fun _ => calm_pure _

theorem calm_propagateEntry (targetNs : String) (created : List String)
    (grant : String × Folders.AccessEntry) :
    Calm (Access.propagateEntry targetNs created grant) := by
  rw [Access.propagateEntry]
  split
  · exact calm_pure _
  · split
    · exact calm_pure _
    · exact raises_exceptApi ((raises_ask _).bind fun _ => trivial) fun _ => calm_pure _

theorem calm_copyBinding (targetNs : String) (created : List String)
    (b : String × Access.RoleBinding) : Calm (Access.copyBinding targetNs created b) := by
  rw [Access.copyBinding]
  split
  · exact calm_pure _
  · exact raises_exceptApi ((raises_ask _).bind fun _ => trivial) fun _ => calm_pure _

theorem calm_copyFromSibling (ancestor targetNs : String) (created : List String)
    (items : List (String × Labels)) :
    Calm (Access.copyFromSibling ancestor targetNs created items) := by
  induction items with
  | nil => exact calm_pure _
  | cons item rest ih =>
    rw [Access.copyFromSibling]
    split
    · exact ih
    · have hlist : Calm (Access.exceptApi
          (do return some (← Access.ask (.listBindings item.1 ancestor))) fun _ => pure none) :=
        raises_exceptApi ((raises_ask _).bind fun _ => trivial) fun _ => calm_pure _
      refine hlist.bind fun bindings => ?_
      cases bindings with
      | none => exact ih
      | some bindings => exact Settles.foldlM fun _ _ _ => calm_copyBinding _ _ _

theorem calm_propagateFolderAccess (folders : Data) (folderName targetNs : String) :
    Calm (propagateFolderAccess folders folderName targetNs) := by
  obtain ⟨above, habove⟩ := Folders.exists_getAncestorChain (parseAllFolders folders) folderName
  rw [propagateFolderAccess, habove]
  refine .bind (Settles.foldlM fun _ _ _ => calm_propagateEntry _ _ _) fun _ =>
    Settles.bind (Settles.foldlM fun _ _ _ => ?_) fun _ => trivial
  exact (calm_getFolderNamespaces _).bind fun items => calm_copyFromSibling _ _ _ items

theorem calm_fillEnvironment (folders : Data) (folderName environment : String)
    (quota : FolderQuota) : Calm (fillEnvironment folders folderName environment quota) := by
  have hrest : Calm (do
      propagateFolderAccess folders folderName (nsName folderName environment)
      reconcileEnvRbac folderName environment
        (((parseAllFolders folders).node folderName).getD {})) :=
    (calm_propagateFolderAccess _ _ _).bind fun _ => calm_reconcileEnvRbac _ _ _
  rw [fillEnvironment]
  dsimp only
  split
  · exact (calm_exceptApi_ask _ fun _ => calm_pure _).bind fun _ =>
      (calm_exceptApi_ask _ fun _ => calm_pure _).bind fun _ => hrest
  · exact hrest

end Fill

section Bound

/-- What binds somebody, or nothing. -/
def Binds : Access.Request → Prop
  | .createBinding .. | .replaceBinding .. | .deleteBinding .. => True
  | r => r.Silent

/-- The folders, the namespaces and the quotas are as they were. -/
structure OnlyBound (c c' : Access.World Unit) : Prop where
  namespaces : c'.namespaces = c.namespaces
  quotas : c'.quotas = c.quotas
  configMap : c.configMap.isSome → c'.configMap = c.configMap

theorem OnlyBound.refl (c : Access.World Unit) : OnlyBound c c := ⟨rfl, rfl, fun _ => rfl⟩

theorem OnlyBound.trans {c'' : Access.World Unit} (h : OnlyBound c c') (h' : OnlyBound c' c'') :
    OnlyBound c c'' where
  namespaces := h'.namespaces.trans h.namespaces
  quotas := h'.quotas.trans h.quotas
  configMap hc := (h'.configMap (by rwa [h.configMap hc])).trans (h.configMap hc)

theorem onlyBound_serve (fault : Access.Fault) (c : Access.World Unit) (r : Access.Request)
    (hr : Binds r) : OnlyBound c (Access.serve () fault c r).2 := by
  have heffect := Access.effect_serve () fault c r
  generalize (Access.serve () fault c r).2 = c' at heffect ⊢
  cases heffect with
  | nothing => exact .refl c
  | configMap hnone => exact ⟨rfl, rfl, fun hc => by rw [hnone] at hc; cases hc⟩
  | bound | unbound => exact ⟨rfl, rfl, fun _ => rfl⟩
  | quota heq => obtain rfl | rfl := heq <;> exact hr.elim
  | entry | created | deleted | unquota => exact hr.elim

theorem onlyBound_of_every (h : Every Binds p.run) (c : Access.World Unit) :
    OnlyBound c (p.run.run (Access.serve ()) (fun _ => {}) c).2 :=
  h.run (R := OnlyBound) .refl (fun _ _ _ => .trans) (fun c r => onlyBound_serve {} c r) c

/-- What only binds somebody after something else leaves what that left. -/
theorem onlyBound_bind {f : β → Access.Call α} {b : β}
    (hp : Gives (Access.serve ()) (fun _ => {}) p c (.ok b) c') (hf : Every Binds (f b).run) :
    OnlyBound c' ((p >>= f).run.run (Access.serve ()) (fun _ => {}) c).2 := by
  obtain ⟨x, v, hx⟩ := Gives.exists_gives (Access.serve ()) (fun _ => {}) (f b) c'
  have hboth := hp.bind hx
  rw [Gives] at hx hboth
  have hkept := onlyBound_of_every hf c'
  rw [hx] at hkept
  rw [hboth]
  exact hkept

theorem every_fill_bindings (folders : Data) (folderName environment : String) :
    Every Binds (do
      propagateFolderAccess folders folderName (nsName folderName environment)
      reconcileEnvRbac folderName environment
        (((parseAllFolders folders).node folderName).getD {}) : Access.Call Unit).run := by
  have hsilent (r : Access.Request) (hr : r.Silent) : Binds r := by
    cases r <;> first | exact trivial | exact hr.elim
  refine .bind (Access.every_propagateFolderAccess hsilent fun _ _ => trivial) fun _ => ?_
  exact Access.every_reconcileNamespaceRbac hsilent fun _ _ =>
    { delete := trivial
      create := fun _ => trivial
      replace := fun _ _ => trivial }

end Bound

section Make

variable {A : Arithmetic α} {folders : Data} {folderName environment : String}
  {quota : FolderQuota} {w : World}

/-- What a call answers where it does not fail for a reason of its own. -/
theorem mild_serve (c : Access.World Unit) (r : Access.Request) :
    Mild r (Access.serve () {} c r).1 := by
  change Mild r (Access.commit () true c r).1
  intro e he
  cases r <;> simp only [Access.commit] at he <;> grind [Access.World.write]

/-- The namespace of an environment is there. -/
def World.named (w : World) (folderName environment : String) : World :=
  (commit w (.access .checking (.createNamespace (nsName folderName environment)
    { enabled := some "true"
      managed := some "true"
      folder := some folderName
      environment := some environment }))).2

/-- An environment is made and filled. -/
def World.withEnvironment (w : World) (folders : Data) (folderName environment : String)
    (quota : FolderQuota) : World :=
  (w.named folderName environment).after (fillEnvironment folders folderName environment quota)

/-- The namespace of an environment and its quota, if it asks for one. -/
def World.placed (w : World) (folderName environment : String) (quota : FolderQuota) : World :=
  if asks quota then
    (commit (w.named folderName environment) (.access .making
      (.createQuota (nsName folderName environment) (quotaName (nsName folderName environment))
        (quotaHard quota)))).2
  else w.named folderName environment

theorem named_configMap :
    (w.named folderName environment).cluster.configMap = w.cluster.configMap := by
  simp only [World.named, commit, Access.commit]
  split <;> rfl

theorem placed_configMap :
    (w.placed folderName environment quota).cluster.configMap = w.cluster.configMap := by
  rw [World.placed]
  split
  · rw [← @named_configMap folderName environment w]
    simp only [commit, Access.commit]
    split
    · rfl
    · rw [Access.World.write]
      split <;> rfl
  · exact named_configMap

theorem gives_passing (ns name : String) (hard : FolderQuota) (c : Access.World Unit) :
    Gives (Access.serve ()) (fun _ => {}) (Access.passing (Access.ask (.createQuota ns name hard)))
      c (.ok ()) (Access.commit () true c (.createQuota ns name hard)).2 := by
  have hask : Gives (Access.serve ()) (fun _ => {}) (Access.ask (.createQuota ns name hard)) c
      (Access.commit () true c (.createQuota ns name hard)).1
      (Access.commit () true c (.createQuota ns name hard)).2 := rfl
  have hmild := mild_serve c (.createQuota ns name hard)
  change Mild _ (Access.commit () true c (.createQuota ns name hard)).1 at hmild
  cases hanswer : (Access.commit () true c (.createQuota ns name hard)).1 with
  | ok _ =>
    rw [hanswer] at hask
    exact hask.tryCatch_ok
  | error e =>
    obtain ⟨status, rfl⟩ := hmild e hanswer
    rw [hanswer] at hask
    exact hask.tryCatch_error .pure

theorem onlyBound_withEnvironment (w : World) (folders : Data) (folderName environment : String)
    (quota : FolderQuota) : OnlyBound (w.placed folderName environment quota).cluster
      (w.withEnvironment folders folderName environment quota).cluster := by
  have hbind := every_fill_bindings folders folderName environment
  rw [World.placed, World.withEnvironment, World.after, fillEnvironment]
  dsimp only
  split
  · have hrange : Every Binds (do
        Access.passing (Access.ask (.createLimitRange (nsName folderName environment)))
        propagateFolderAccess folders folderName (nsName folderName environment)
        reconcileEnvRbac folderName environment
          (((parseAllFolders folders).node folderName).getD {}) : Access.Call Unit).run :=
      Every.bind (Access.every_passing (Access.every_ask trivial)) fun _ => hbind
    exact onlyBound_bind (gives_passing _ _ _ _) hrange
  · exact onlyBound_of_every hbind _

def existsText (folderName environment : String) : String :=
  "Environment '" ++ nsName folderName environment ++ "' already exists"

theorem comes_createNamespace
    (h : w.cluster.namespaces.lookup (nsName folderName environment) = none) :
    Comes (createNamespace folderName environment) w (.ok ()) (w.named folderName environment) := by
  refine Comes.exceptApi_ok ?_
  refine (comes_ask _ w).trans (Prod.ext ?_ rfl)
  simp only [commit, Access.commit, h]

theorem comes_createNamespace_taken
    (h : w.cluster.namespaces.lookup (nsName folderName environment) = some labels) :
    Comes (createNamespace folderName environment) w
      (.error (.http 409 (existsText folderName environment))) w := by
  have hask : Comes (ask (.access .checking (.createNamespace (nsName folderName environment)
      { enabled := some "true"
        managed := some "true"
        folder := some folderName
        environment := some environment }))) w (.error (.api 409)) w := by
    refine (comes_ask _ w).trans ?_
    simp only [commit, Access.commit, h]
  exact hask.exceptApi_api .throw

theorem comes_createEnvironmentNs_refused {e : Failure}
    (h : answerWithin A "this environment" (w.shortage A folders folderName quota) = .error e) :
    Comes (createEnvironmentNs A folders folderName environment quota) w (.error e) w := by
  have hcheck : Comes (assertWithinFolderQuota A folders folderName quota none "this environment")
      w _ w := comes_assertWithinFolderQuota "this environment"
  rw [h] at hcheck
  exact hcheck.bind_error

section Fits

variable (h : answerWithin A "this environment" (w.shortage A folders folderName quota) = .ok ())
include h

theorem comes_createEnvironmentNs_taken
    (htaken : w.cluster.namespaces.lookup (nsName folderName environment) = some labels) :
    Comes (createEnvironmentNs A folders folderName environment quota) w
      (.error (.http 409 (existsText folderName environment))) w := by
  have hcheck : Comes (assertWithinFolderQuota A folders folderName quota none "this environment")
      w _ w := comes_assertWithinFolderQuota "this environment"
  rw [h] at hcheck
  exact hcheck.bind (comes_createNamespace_taken htaken).bind_error

theorem comes_createEnvironmentNs
    (hfree : w.cluster.namespaces.lookup (nsName folderName environment) = none) :
    Comes (createEnvironmentNs A folders folderName environment quota) w
      (.ok ⟨nsName folderName environment, environment, folderName, quota⟩)
      (w.withEnvironment folders folderName environment quota) := by
  have hcheck : Comes (assertWithinFolderQuota A folders folderName quota none "this environment")
      w _ w := comes_assertWithinFolderQuota "this environment"
  rw [h] at hcheck
  have hfill : Comes (lift .making (fillEnvironment folders folderName environment quota))
      (w.named folderName environment) _ _ := comes_lift .making _ _
  have hend := (calm_fillEnvironment folders folderName environment quota).run
    (fun c r => mild_serve c r) (w.named folderName environment).cluster
  cases hx : ((fillEnvironment folders folderName environment quota).run.run (Access.serve ())
      (fun _ => {}) (w.named folderName environment).cluster).1 with
  | ok _ =>
    rw [hx] at hfill
    exact hcheck.bind ((comes_createNamespace hfree).bind (hfill.bind .pure))
  | error e =>
    rw [hx] at hend
    exact hend.elim

end Fits

theorem withinText_ne_existsText (s : Shortage α) (asking : String) :
    s.withinText A asking ≠ existsText folderName environment := by
  intro htext
  have hhead := congrArg (fun t => t.toList.head?) htext
  cases hd : s.dimension with
  | cpu | memory | storage =>
    simp [Shortage.withinText, existsText, hd, Dimension.name] at hhead

/-- A quota is what an environment is refused for if a ceiling is short of room. -/
theorem createEnvironmentNs_refused_iff :
    (∃ s : Shortage α, answerOf (createEnvironmentNs A folders folderName environment quota) w =
      .error (.http 409 (s.withinText A "this environment"))) ↔
      ∃ s, w.shortage A folders folderName quota = some (some s) := by
  cases hshort : w.shortage A folders folderName quota with
  | none =>
    rw [(comes_createEnvironmentNs_refused (by rw [hshort]; rfl)).answerOf]
    simp [recursionError]
  | some short =>
    cases short with
    | some s =>
      rw [(comes_createEnvironmentNs_refused (by rw [hshort]; rfl)).answerOf]
      exact ⟨fun _ => ⟨s, rfl⟩, fun _ => ⟨s, rfl⟩⟩
    | none =>
      have hfits : answerWithin A "this environment"
          (w.shortage A folders folderName quota) = .ok () := by rw [hshort]; rfl
      cases htaken : w.cluster.namespaces.lookup (nsName folderName environment) with
      | some labels =>
        rw [(comes_createEnvironmentNs_taken hfits htaken).answerOf]
        simp [(withinText_ne_existsText _ _).symm]
      | none =>
        rw [(comes_createEnvironmentNs hfits htaken).answerOf]
        simp

end Make

end Quotas
