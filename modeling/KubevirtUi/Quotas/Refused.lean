import KubevirtUi.Quotas.Headroom

/-!
# A folder that is refused

The first environments of a folder are checked against the folder's own ceiling before anything is
written. Each is checked again when it is made, against the nearest ceiling at or above the folder,
and then the folder and the environments before it are there.
-/

namespace Quotas

open Access (Labels asks nsName quotaHard quotaName saveFolderMeta)
open Folders (Data Failure FolderQuota Meta getAncestorChain given parseAllFolders)
open Interference
open Tenant (Dimension dimensions)

variable {α : Type} {A : Arithmetic α}

section Twin

variable {w v : World} {folderName environment : String} {quota : FolderQuota}

theorem Twin.placed (h : Twin w v) :
    Twin (w.placed folderName environment quota) (v.placed folderName environment quota) := by
  obtain ⟨⟨clock, configMap, namespaces, bindings, quotas, log, gone⟩, used⟩ := w
  obtain ⟨⟨clock', configMap', namespaces', bindings', quotas', log', gone'⟩, used'⟩ := v
  obtain ⟨hnamespaces, hquotas, hused⟩ := h
  dsimp only at hnamespaces hquotas hused
  subst hnamespaces hquotas hused
  have hnamed : Twin
      (World.named ⟨⟨clock, configMap, namespaces, bindings, quotas, log, gone⟩, used⟩
        folderName environment)
      (World.named ⟨⟨clock', configMap', namespaces, bindings', quotas, log', gone'⟩, used⟩
        folderName environment) := by
    simp only [World.named, commit, Access.commit]
    cases namespaces.lookup (nsName folderName environment) <;> exact ⟨rfl, rfl, rfl⟩
  rw [World.placed, World.placed]
  split
  · simp only [commit, Access.commit, hnamed.quotas]
    split
    · exact hnamed
    · rw [Access.World.write, Access.World.write, hnamed.namespaces]
      split
      · exact hnamed
      · exact ⟨hnamed.namespaces, by simp [Access.World.setQuota, hnamed.quotas], hnamed.used⟩
  · exact hnamed

theorem twin_withEnvironment (w : World) (folders : Data) :
    Twin (w.withEnvironment folders folderName environment quota)
      (w.placed folderName environment quota) := by
  have hbound := onlyBound_withEnvironment w folders folderName environment quota
  refine ⟨hbound.namespaces, hbound.quotas, ?_⟩
  rw [World.placed]
  split <;> rfl

end Twin

/-- An environment is refused, when those before it are there. -/
def Stumbles (A : Arithmetic α) (folders : Data) (folderName : String) (w : World) :
    List (String × FolderQuota) → Prop
  | [] => False
  | (environment, quota) :: rest =>
    match w.shortage A folders folderName quota with
    | none => False
    | some (some _) => True
    | some none =>
      (w.cluster.namespaces.lookup (nsName folderName environment)).isSome ∨
        Stumbles A folders folderName (w.placed folderName environment quota) rest

theorem stumbles_congr {folders : Data} {folderName : String} {w v : World}
    {envs : List (String × FolderQuota)} (h : Twin w v) :
    Stumbles A folders folderName w envs ↔ Stumbles A folders folderName v envs := by
  induction envs generalizing w v with
  | nil => rfl
  | cons env rest ih =>
    obtain ⟨environment, quota⟩ := env
    rw [Stumbles, Stumbles, World.shortage_congr h.own, h.namespaces, ih h.placed]

theorem stumbles_of_shortage {folders : Data} {folderName environment : String}
    {quota : FolderQuota} {w : World} {rest : List (String × FolderQuota)}
    (h : (w.shortage A folders folderName quota).join.isSome) :
    Stumbles A folders folderName w ((environment, quota) :: rest) := by
  rw [Stumbles]
  cases hshort : w.shortage A folders folderName quota with
  | none =>
    rw [hshort] at h
    cases h
  | some short =>
    cases short with
    | none =>
      rw [hshort] at h
      cases h
    | some s => exact trivial

/-- Why a folder is refused for a quota, or for the namespace of an environment. -/
inductive Refusal (A : Arithmetic α) (folder : FolderCreateRequest) : Failure → Prop
  | exceeds (label child parent : String) :
      Refusal A folder (.http 400 ("Child " ++ label ++ " quota (" ++ child ++
        ") exceeds parent (" ++ parent ++ ")"))
  | child (s : Shortage α) : Refusal A folder (.http 409 (s.childText A folder.name))
  | initial {ceiling : FolderQuota} {totals : Amounts α} {d : Dimension} {text : String} :
      initialShortage A ceiling totals d = some text → Refusal A folder (.http 409 text)
  | within (s : Shortage α) : Refusal A folder (.http 409 (s.withinText A "this environment"))
  | taken (environment : String) :
      Refusal A folder (.http 409 (existsText folder.name environment))

theorem not_refusal_recursionError (folder : FolderCreateRequest) :
    ¬Refusal A folder recursionError := by
  intro h
  rw [recursionError] at h
  cases h

/-- The environments that are asked for, with their quotas. -/
def FolderCreateRequest.asked (folder : FolderCreateRequest) (environments : List String) :
    List (String × FolderQuota) :=
  environments.map fun environment =>
    (environment, (folder.environmentQuotas.lookup environment).getD noQuota)

theorem comes_createEnvironments (folders : Data) (folder : FolderCreateRequest)
    (environments : List String) (w : World) (hmap : w.cluster.configMap.isSome) :
    ∃ x v, Comes (createEnvironments A folders folder environments) w x v ∧
      v.cluster.configMap = w.cluster.configMap ∧
      (Stumbles A folders folder.name w (folder.asked environments) →
        ∃ e, x = .error e ∧ Refusal A folder e) ∧
      (¬Stumbles A folders folder.name w (folder.asked environments) →
        ∀ e, x = .error e → e = recursionError) := by
  induction environments generalizing w with
  | nil => exact ⟨_, _, .pure, rfl, fun h => h.elim, fun _ e he => by cases he⟩
  | cons environment rest ih =>
    rw [FolderCreateRequest.asked, List.map_cons, ← FolderCreateRequest.asked, Stumbles,
      createEnvironments]
    generalize (folder.environmentQuotas.lookup environment).getD noQuota = quota
    have hrefused {e : Failure} (he : answerWithin A "this environment"
        (w.shortage A folders folder.name quota) = .error e) :
        Comes (createEnvironmentNs A folders folder.name environment quota) w (.error e) w :=
      comes_createEnvironmentNs_refused he
    cases hshort : w.shortage A folders folder.name quota with
    | none =>
      refine ⟨_, _, (hrefused (by rw [hshort]; rfl)).bind_error, rfl, fun h => h.elim, ?_⟩
      intro _ e he
      exact (Except.error.inj he).symm
    | some short =>
      cases short with
      | some s =>
        refine ⟨_, _, (hrefused (by rw [hshort]; rfl)).bind_error, rfl, ?_, ?_⟩
        · intro _
          exact ⟨_, rfl, .within s⟩
        · intro hnot
          exact absurd trivial hnot
      | none =>
        have hfits : answerWithin A "this environment"
            (w.shortage A folders folder.name quota) = .ok () := by rw [hshort]; rfl
        cases hlookup : w.cluster.namespaces.lookup (nsName folder.name environment) with
        | some labels =>
          refine ⟨_, _, (comes_createEnvironmentNs_taken hfits hlookup).bind_error, rfl, ?_, ?_⟩
          · intro _
            exact ⟨_, rfl, .taken environment⟩
          · intro hnot
            exact absurd (.inl rfl) hnot
        | none =>
          have hmade := comes_createEnvironmentNs hfits hlookup
          have hkept := onlyBound_withEnvironment w folders folder.name environment quota
          have hmap' := (hkept.configMap (by rwa [placed_configMap])).trans placed_configMap
          obtain ⟨x, v, hx, hv, hstumbles, hnot⟩ := ih
            (w.withEnvironment folders folder.name environment quota) (by rwa [hmap'])
          have hsame : Stumbles A folders folder.name
              (w.withEnvironment folders folder.name environment quota)
              (folder.asked rest) ↔ Stumbles A folders folder.name
              (w.placed folder.name environment quota) (folder.asked rest) :=
            stumbles_congr (twin_withEnvironment w folders)
          rw [hsame] at hstumbles hnot
          cases x with
          | ok envs =>
            refine ⟨_, v, hmade.bind (hx.bind .pure), hv.trans hmap', ?_, ?_⟩
            · rintro (htaken | hlater)
              · cases htaken
              · obtain ⟨e, he, -⟩ := hstumbles hlater
                cases he
            · intro _ e he
              cases he
          | error e =>
            refine ⟨_, v, hmade.bind hx.bind_error, hv.trans hmap', ?_, ?_⟩
            · rintro (htaken | hlater)
              · cases htaken
              · obtain ⟨e', he, hrefusal⟩ := hstumbles hlater
                cases he
                exact ⟨_, rfl, hrefusal⟩
            · intro hfine e' he
              cases he
              exact hnot (fun hlater => hfine (.inr hlater)) _ rfl

section Folder

variable {w : World} {folder : FolderCreateRequest} {email now : String}

/-- The entry of a folder is written. -/
def World.stored (w : World) (name : String) (info : Meta) : World :=
  { w with
    cluster :=
      { w.cluster with
        configMap := some (w.folders.insert name (some info))
        log := w.cluster.log ++ [.entry () name] } }

/-- The checks before the folder is stored let it pass. -/
structure Stored (A : Arithmetic α) (w : World) (folder : FolderCreateRequest) : Prop where
  absent : (parseAllFolders w.folders).node folder.name = none
  parent : answerOf (checkParent A w.folders folder) w.withConfigMap = .ok ()
  initial : answerOf (assertInitialEnvsFit A folder) w.withConfigMap = .ok ()

/-- The folder with its first environments, if the checks before let it pass. -/
def madeFolder (A : Arithmetic α) (folders : Data) (folder : FolderCreateRequest)
    (email now : String) : Call FolderResponse := do
  let environments ← createEnvironments A folders folder folder.environments
  match getAncestorChain (parseAllFolders folders) folder.name with
  | none => throw .hangs
  | some path => return ⟨folder.name, folder.info email now, path, environments⟩

theorem onlyReads_assertInitialEnvsFit (folder : FolderCreateRequest) :
    OnlyReads (assertInitialEnvsFit A folder) := by
  rw [assertInitialEnvsFit]
  split
  · exact .pure _
  · split
    · exact .pure _
    · dsimp only
      split
      · exact .pure _
      · exact .throw _

theorem comes_checkParent : Comes (checkParent A w.folders folder) w.withConfigMap
    (answerOf (checkParent A w.folders folder) w.withConfigMap) w.withConfigMap :=
  comes_iff.mpr ⟨rfl, (onlyReads_checkParent A w.folders folder).leftBy _⟩

theorem comes_assertInitialEnvsFit : Comes (assertInitialEnvsFit A folder) w.withConfigMap
    (answerOf (assertInitialEnvsFit A folder) w.withConfigMap) w.withConfigMap :=
  comes_iff.mpr ⟨rfl, (onlyReads_assertInitialEnvsFit folder).leftBy _⟩

theorem comes_createFolder (h : Stored A w folder) {x : Except Failure FolderResponse} {v : World}
    (hmade : Comes (madeFolder A (w.stored folder.name (folder.info email now)).folders folder
      email now) (w.stored folder.name (folder.info email now)) x v) :
    Comes (createFolder A folder email now) w x v := by
  refine (comes_ensureFoldersConfigmap w).bind ?_
  rw [h.absent]
  have hparent : Comes (checkParent A w.folders folder) w.withConfigMap _ _ := comes_checkParent
  have hinitial : Comes (assertInitialEnvsFit A folder) w.withConfigMap _ _ :=
    comes_assertInitialEnvsFit
  rw [h.parent] at hparent
  rw [h.initial] at hinitial
  have hsave : Comes (lift .checking (saveFolderMeta folder.name (folder.info email now)))
      w.withConfigMap (.ok ()) (w.stored folder.name (folder.info email now)) := rfl
  have hread : Comes ensureFoldersConfigmap (w.stored folder.name (folder.info email now))
      (.ok (w.stored folder.name (folder.info email now)).folders)
      (w.stored folder.name (folder.info email now)) := comes_ensureFoldersConfigmap _
  exact hparent.bind (hinitial.bind (hsave.bind (hread.bind hmade)))

theorem leftBy_createFolder (h : ¬Stored A w folder) :
    leftBy (createFolder A folder email now) w = w.withConfigMap := by
  suffices ∃ x, Comes (createFolder A folder email now) w x w.withConfigMap by
    obtain ⟨x, hx⟩ := this
    exact hx.leftBy
  cases habsent : (parseAllFolders w.folders).node folder.name with
  | some info =>
    refine ⟨.error (.http 409 ("Folder '" ++ folder.name ++ "' already exists")),
      (comes_ensureFoldersConfigmap w).bind ?_⟩
    rw [habsent]
    exact .throw
  | none =>
    have hparent : Comes (checkParent A w.folders folder) w.withConfigMap _ _ := comes_checkParent
    have hinitial : Comes (assertInitialEnvsFit A folder) w.withConfigMap _ _ :=
      comes_assertInitialEnvsFit
    cases hx : answerOf (checkParent A w.folders folder) w.withConfigMap with
    | error e =>
      rw [hx] at hparent
      refine ⟨.error e, (comes_ensureFoldersConfigmap w).bind ?_⟩
      rw [habsent]
      exact hparent.bind_error
    | ok _ =>
      cases hy : answerOf (assertInitialEnvsFit A folder) w.withConfigMap with
      | ok _ => exact absurd ⟨habsent, hx, hy⟩ h
      | error e =>
        rw [hx] at hparent
        rw [hy] at hinitial
        refine ⟨.error e, (comes_ensureFoldersConfigmap w).bind ?_⟩
        rw [habsent]
        exact hparent.bind hinitial.bind_error

/-- A folder that is refused leaves no entry, and no namespace. -/
def LeavesNothing (A : Arithmetic α) (w : World) (folder : FolderCreateRequest)
    (email now : String) : Prop :=
  ∀ e, answerOf (createFolder A folder email now) w = .error e → Refusal A folder e →
    (((parseAllFolders (leftBy (createFolder A folder email now) w).folders).node
        folder.name).isSome → ((parseAllFolders w.folders).node folder.name).isSome) ∧
      ∀ ns, ((leftBy (createFolder A folder email now) w).cluster.namespaces.lookup ns).isSome →
        (w.cluster.namespaces.lookup ns).isSome

/-- What the environments come to is what the folder comes to, once it is stored. -/
theorem createFolder_stored (h : Stored A w folder) :
    ∃ x v, Comes (createFolder A folder email now) w x v ∧
      ((parseAllFolders v.folders).node folder.name).isSome ∧
      (Stumbles A (w.folders.insert folder.name (some (folder.info email now))) folder.name w
          (folder.asked folder.environments) → ∃ e, x = .error e ∧ Refusal A folder e) ∧
      (¬Stumbles A (w.folders.insert folder.name (some (folder.info email now))) folder.name w
          (folder.asked folder.environments) → ∀ e, x = .error e → e = recursionError) := by
  obtain ⟨x, v, hx, hv, hstumbles, hnot⟩ := comes_createEnvironments (A := A)
    (w.stored folder.name (folder.info email now)).folders folder folder.environments
    (w.stored folder.name (folder.info email now)) rfl
  have hsame : Stumbles A (w.stored folder.name (folder.info email now)).folders folder.name
      (w.stored folder.name (folder.info email now)) (folder.asked folder.environments) ↔
      Stumbles A (w.folders.insert folder.name (some (folder.info email now))) folder.name w
        (folder.asked folder.environments) :=
    stumbles_congr ⟨rfl, rfl, rfl⟩
  rw [hsame] at hstumbles hnot
  have hthere : ((parseAllFolders v.folders).node folder.name).isSome := by
    rw [World.folders, hv, Folders.node_parseAllFolders]
    simp [World.stored]
  obtain ⟨path, hpath⟩ := Folders.exists_getAncestorChain
    (parseAllFolders (w.stored folder.name (folder.info email now)).folders) folder.name
  cases x with
  | error e =>
    refine ⟨.error e, v, comes_createFolder h hx.bind_error, hthere, ?_, ?_⟩
    · intro hlater
      obtain ⟨e', he, hrefusal⟩ := hstumbles hlater
      cases he
      exact ⟨e, rfl, hrefusal⟩
    · intro hfine e' he
      cases he
      exact hnot hfine e rfl
  | ok envs =>
    refine ⟨.ok ⟨folder.name, folder.info email now, path, envs⟩, v,
      comes_createFolder h (hx.bind ?_), hthere, ?_, ?_⟩
    · rw [hpath]
      exact .pure
    · intro hlater
      obtain ⟨e, he, -⟩ := hstumbles hlater
      cases he
    · intro _ e he
      cases he

theorem not_leavesNothing (h : Stored A w folder)
    (hstumbles : Stumbles A (w.folders.insert folder.name (some (folder.info email now)))
      folder.name w (folder.asked folder.environments)) : ¬LeavesNothing A w folder email now := by
  obtain ⟨x, v, hx, hthere, hlate, -⟩ := createFolder_stored h
  obtain ⟨e, rfl, hrefusal⟩ := hlate hstumbles
  intro hnothing
  have hleft := (hnothing e hx.answerOf hrefusal).1
  rw [hx.leftBy, h.absent] at hleft
  cases hleft hthere

/-- It leaves nothing if it is refused before it is stored, or no environment is refused. -/
theorem refusal_leavesNothing_iff : LeavesNothing A w folder email now ↔ (Stored A w folder →
      ¬Stumbles A (w.folders.insert folder.name (some (folder.info email now))) folder.name w
        (folder.asked folder.environments)) := by
  constructor
  · intro hnothing h hstumbles
    exact not_leavesNothing h hstumbles hnothing
  · intro h e he hrefusal
    by_cases hstored : Stored A w folder
    · obtain ⟨x, v, hx, -, -, hfine⟩ := createFolder_stored hstored
      rw [hx.answerOf] at he
      rw [hfine (h hstored) e he] at hrefusal
      exact absurd hrefusal (not_refusal_recursionError folder)
    · rw [leftBy_createFolder hstored]
      exact ⟨fun hthere => hthere, fun _ hthere => hthere⟩

end Folder

/-- A folder below one that caps nothing, with an environment of one CPU. -/
def lateFolder : FolderCreateRequest where
  name := "new"
  displayName := "New"
  description := ""
  parentId := some "kid"
  quota := none
  environments := ["b"]
  environmentQuotas := (∅ : AList fun _ : String => FolderQuota).insert "b" ⟨some "1", none, none⟩

/-- The ceiling two folders above has no room, and the folder is there all the same. -/
theorem full_not_leavesNothing : ¬LeavesNothing floats full lateFolder "admin" "now" := by
  have hstored : Stored floats full lateFolder :=
    { absent := by decide +kernel
      parent := rfl
      initial := rfl }
  refine not_leavesNothing hstored ?_
  exact stumbles_of_shortage (by decide +kernel)

end Quotas
