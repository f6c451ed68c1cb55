import KubevirtUi.Folders.Requests
import KubevirtUi.Library.Logs
import KubevirtUi.Library.Raising

/-!
# Whether the folder tree stays a forest

Every request checks the tree that it has read, and not the tree that it writes to. Where nothing
has been saved in between, the tree that it writes to has no more folders than the one that it has
read, and the check is good for both. Two moves that cross are enough for a loop.
-/

namespace Folders

open Interference Option

variable {ι : Type}

/-- No version lies ahead of the clock. -/
def Timely (w : World ι) : Prop := ∀ cm, w.configMap = some cm → cm.version ≤ w.clock

/-- Nothing else is ever stored under the version that was read. -/
def Known (cm : Versioned Data) (w : World ι) : Prop :=
  cm.version ≤ w.clock ∧
    ∀ x, w.configMap = some x → x.version = cm.version → x.value = cm.value

/-- What a deletion relies on: what is known stays known. -/
def Keeps (w v : World ι) : Prop := ∀ cm, Known cm w → Known cm v

/-- What a deletion writes is what is stored, without one folder. -/
def Removes (w : World ι) (r : Request) (_ : World ι) : Prop :=
  ∀ version data, r = .replaceConfigMap version data → ∀ cm, w.configMap = some cm →
    cm.version = version → ∃ name, data = cm.value.erase name

/-- What is stored of the folders, which may be nothing. -/
def World.data (w : World ι) : Data := (w.configMap.map Versioned.value).getD ∅

/-- Every entry is one of the other's. -/
def Within (data data' : Data) : Prop :=
  ∀ name raw, data.lookup name = some raw → data'.lookup name = some raw

def Event.isSave : Event ι → Bool
  | .saved .. => true
  | _ => false

/-- What the client reads in the event. -/
def readBy [DecidableEq ι] (i : ι) : Event ι → Option Data
  | .read j data => if j = i then some data else none
  | _ => none

/-- This is what the client has read, and as long as nothing is saved, no more is stored. -/
def Seen [DecidableEq ι] (i : ι) (data : Data) (w : World ι) : Prop :=
  ∃ more, Logs.since (readBy i) w.log = some (data, more) ∧
    ((∀ e ∈ more, e.isSave = false) → Within w.data data)

/-- The client has read nothing yet. -/
def Unread [DecidableEq ι] (i : ι) (w : World ι) : Prop := Logs.since (readBy i) w.log = none

/-- What a client relies on: others read in their own name, and where they save nothing, they add
no folder. -/
def Lesser [DecidableEq ι] (i : ι) (w v : World ι) : Prop :=
  ∃ more, v.log = w.log ++ more ∧ (∀ e ∈ more, readBy i e = none) ∧
    ((∀ e ∈ more, e.isSave = false) → Within v.data w.data)

/-- The check that lets a folder be saved: a new one is not below itself, and another has the
parent that it had, or one that is not below it. -/
def Passed (data : Data) (name : String) (info : Meta) : Prop :=
  match (parseAllFolders data).node name with
  | none => info.parentId ≠ some name
  | some old => info.parentId = old.parentId ∨
      wouldCreateCycle (parseAllFolders data) name info.parentId = some false

/-- What a client saves has passed the check on what it has read. -/
def Checks [DecidableEq ι] (i : ι) (w : World ι) (r : Request) (v : World ι) : Prop :=
  Removes w r v ∧ ∀ name info, r = .patchConfigMap name info →
    ∃ data, Seen i data w ∧ Passed data name info

variable {cm : Versioned Data} {P : World ι → Prop}

section Steps

variable {w v : World ι} {i : ι} {fault : Fault} {r : Request}

theorem Known.newer (h : Known cm w) (data : Data) (log : List (Event ι)) :
    Known cm ⟨w.clock + 1, some ⟨w.clock + 1, data⟩, log⟩ := by
  refine ⟨Nat.le_succ_of_le h.1, fun _ hx hversion => ?_⟩
  obtain rfl := some.inj hx
  exact absurd hversion.symm (Nat.ne_of_lt (Nat.lt_succ_of_le h.1))

theorem Known.of_eq (h : Known cm w) (hcm : v.configMap = w.configMap)
    (hclock : w.clock ≤ v.clock) : Known cm v :=
  ⟨h.1.trans hclock, by rw [hcm]; exact h.2⟩

theorem keeps_refl (w : World ι) : Keeps w w := fun _ h => h

theorem known_of_timely (h : Timely w) (hcm : w.configMap = some cm) : Known cm w :=
  ⟨h cm hcm, fun _ hx _ => congrArg _ (mem_unique hx hcm)⟩

theorem Effect.timely (h : Effect i fault w r v) (hw : Timely w) : Timely v := by
  cases h with
  | refused _ => exact hw
  | nothing => exact hw
  | read _ => exact hw
  | created _ => exact fun cm hcm => (some.inj hcm) ▸ Nat.le_refl _
  | replaced _ => exact fun cm hcm => (some.inj hcm) ▸ Nat.le_refl _
  | @patched cm name info _ hcm =>
    intro x hx
    obtain rfl := some.inj hx
    rw [Versioned.patch]
    split
    · exact Nat.le_succ_of_le (hw cm hcm)
    · exact Nat.le_refl _

theorem Effect.keeps (h : Effect i fault w r v) : Keeps w v := by
  intro x hx
  cases h with
  | refused _ => exact hx.of_eq rfl (Nat.le_refl _)
  | nothing => exact hx
  | read _ => exact hx.of_eq rfl (Nat.le_refl _)
  | created _ => exact hx.newer ∅ _
  | replaced _ => exact hx.newer _ _
  | @patched cm name info _ hcm =>
    rw [Versioned.patch]
    split
    · exact hx.of_eq hcm.symm (Nat.le_succ _)
    · exact hx.newer _ _

theorem timely_serve (fault : Fault) (w : World ι) (r : Request) (hw : Timely w) :
    Timely (serve i fault w r).2 := (effect_serve i fault w r).timely hw

theorem timely_act (a : Unit) (w : World ι) : Timely (act a w) := by
  intro cm hcm
  obtain ⟨x, -, rfl⟩ := map_eq_some_iff.mp hcm
  exact Nat.le_refl _

theorem keeps_act (a : Unit) : Keeps w (act a w) := by
  intro cm h
  refine ⟨Nat.le_succ_of_le h.1, fun _ hx hversion => ?_⟩
  obtain ⟨y, -, rfl⟩ := map_eq_some_iff.mp hx
  exact absurd hversion.symm (Nat.ne_of_lt (Nat.lt_succ_of_le h.1))

end Steps

section Rules

variable [DecidableEq ι] {i : ι} {α β : Type} {w v : World ι} {data : Data}

theorem Within.refl (data : Data) : Within data data := fun _ _ h => h

theorem Within.trans {data' data'' : Data} (h : Within data data') (h' : Within data' data'') :
    Within data data'' := fun name raw hraw => h' name raw (h name raw hraw)

theorem Lesser.refl (i : ι) (w : World ι) : Lesser i w w :=
  ⟨[], by simp, by simp, fun _ => .refl _⟩

theorem Seen.lesser (h : Seen i data w) (h' : Lesser i w v) : Seen i data v := by
  obtain ⟨more, hsince, hwithin⟩ := h
  obtain ⟨new, hlog, -, hless⟩ := h'
  refine ⟨more ++ new, by rw [hlog, Logs.since_append hsince], fun hnone => ?_⟩
  have hnew := hless fun e he => hnone e (List.mem_append_right _ he)
  exact hnew.trans (hwithin fun e he => hnone e (List.mem_append_left _ he))

theorem Unread.lesser (h : Unread i w) (h' : Lesser i w v) : Unread i v := by
  obtain ⟨new, hlog, hnew, -⟩ := h'
  rw [Unread, hlog, Logs.since_append_of_none h, Logs.since_eq_none_iff]
  exact hnew

omit [DecidableEq ι] in
theorem data_of_configMap {cm : Versioned Data} (h : w.configMap = some cm) :
    w.data = cm.value := by
  rw [World.data, h]
  rfl

theorem lesser_act (i : ι) (a : Unit) (w : World ι) : Lesser i w (act a w) := by
  have hdata : (act a w).data = w.data := by
    cases hcm : w.configMap <;> simp [World.data, act, hcm]
  exact ⟨[], by simp [act], by simp, fun _ => hdata ▸ .refl _⟩

/-- A request is no harm to those who have read, unless it saves a folder. -/
theorem Effect.lesser {j : ι} {fault : Fault} {r : Request} (heffect : Effect i fault w r v)
    (hremoves : Removes w r v) (hread : (∀ data, v.log ≠ w.log ++ [.read i data]) ∨ i ≠ j) :
    Lesser j w v := by
  have hother (hlog : ∃ data, v.log = w.log ++ [.read i data]) :
      ∀ data, readBy j (.read i data) = none := by
    obtain ⟨data, hlog⟩ := hlog
    exact fun _ => if_neg (hread.resolve_left fun h => h data hlog)
  cases heffect with
  | refused _ => exact ⟨[.refused i], rfl, by simp [readBy], fun _ => .refl _⟩
  | nothing => exact .refl j w
  | @read cm hcm =>
    exact ⟨[.read i cm.value], rfl, by simpa using hother ⟨_, rfl⟩ cm.value, fun _ => .refl _⟩
  | created hcm =>
    refine ⟨[.read i ∅], rfl, by simpa using hother ⟨_, rfl⟩ ∅, fun _ => ?_⟩
    exact fun name raw hraw => by simp [World.data] at hraw
  | @patched cm name info _ hcm =>
    exact ⟨[.saved i name info], rfl, by simp [readBy], fun h => by simp [Event.isSave] at h⟩
  | @replaced cm data hcm =>
    refine ⟨[], by simp, by simp, fun _ name raw hraw => ?_⟩
    obtain ⟨gone, rfl⟩ := hremoves _ _ rfl cm hcm rfl
    rw [data_of_configMap hcm]
    have hraw : (cm.value.erase gone).lookup name = some raw := hraw
    by_cases hname : name = gone
    · subst hname
      simp at hraw
    · rwa [AList.lookup_erase_ne hname] at hraw

/-- What is known stays known, and others do no harm. -/
def Relies (i : ι) (w v : World ι) : Prop := Keeps w v ∧ Lesser i w v

/-- A client saves what has passed the check, and removes one folder at a time. -/
abbrev Careful (i : ι) (P : World ι → Prop) (p : Call α) (Q : α → World ι → Prop) : Prop :=
  Attempts (serve i) Timely (Relies i) (Checks i) P p Q fun _ _ => True

/-- A request that writes nothing. -/
def Request.Plain : Request → Prop
  | .patchConfigMap .. | .replaceConfigMap .. => False
  | _ => True

/-- A request that has to do with something else. -/
def Request.IsErrand : Request → Prop
  | .errand _ => True
  | _ => False

omit [DecidableEq ι] in
theorem serve_timely (f : Fault) (w : World ι) (r : Request) (hw : Timely w) :
    Timely (serve i f w r).2 := timely_serve f w r hw

theorem checks_of_plain {r : Request} (h : r.Plain) : Checks i w r v := by
  refine ⟨fun version data hr => ?_, fun name info hr => ?_⟩
  · subst hr
    exact h.elim
  · subst hr
    exact h.elim

theorem lasts_seen (data : Data) : Lasts Timely (Relies i) (Seen i data) :=
  fun _ _ _ _ h hseen => hseen.lesser h.2

theorem lasts_unread : Lasts Timely (Relies i) (Unread i) :=
  fun _ _ _ _ h hunread => hunread.lesser h.2

theorem lasts_known (cm : Versioned Data) : Lasts Timely (Relies i) (Known cm) :=
  fun _ _ _ _ h hknown => h.1 cm hknown

theorem Careful.bind {p : Call α} {f : α → Call β} {Q : α → World ι → Prop}
    {R : β → World ι → Prop} (hp : Careful i P p Q) (hf : ∀ a, Careful i (Q a) (f a) R) :
    Careful i P (p >>= f) R :=
  Attempts.bind serve_timely (fun _ => lasts_const True) hp hf

theorem careful_ask {r : Request} {Q : r.Result → World ι → Prop}
    (hP : Lasts Timely (Relies i) P) (hQ : ∀ a, Lasts Timely (Relies i) (Q a))
    (hchecks : ∀ w v, P w → Checks i w r v)
    (hok : ∀ w answer a, Timely w → P w → (commit i answer w r).1 = .ok a →
      Q a (commit i answer w r).2) : Careful i P (ask r) Q := by
  refine .ask serve_timely hP hQ (fun _ => lasts_const True) fun w fault hw hp =>
    ⟨hchecks w _ hp, ?_⟩
  cases hfailure : fault.failure with
  | some e =>
    simp only [serve, hfailure]
    trivial
  | none =>
    simp only [serve, hfailure]
    cases ha : (commit i fault.answer w r).1 with
    | ok a => exact hok w fault.answer a hw hp ha
    | error e => trivial

theorem careful_refuse {e : Failure} {Q : α → World ι → Prop} :
    Careful i (Seen i data) (throw e) Q :=
  .throw (lasts_seen data) fun _ _ => trivial

theorem careful_of_plain {p : Call α} (h : Every Request.Plain p.run) :
    Careful i P p fun _ _ => True := by
  have hgood : ∀ (f : Fault) (w : World ι) (r : Request), Timely w → r.Plain →
      Checks i w r (serve i f w r).2 := fun _ _ _ _ hr => checks_of_plain hr
  refine Triple.conseq (Triple.of_every hgood h) (fun _ _ hw => hw) fun x w _ _ => ?_
  cases x <;> trivial

theorem careful_of_aside {p : Call α} (hP : ∀ w v, Lesser i w v → P w → P v)
    (h : Every Request.IsErrand p.run) : Careful i P p fun _ => P := by
  refine (Attempts.keeps serve_timely (fun w v _ _ hrely => hP w v hrely.2)
    (fun fault w r _ hr hw => hP w _ ?_ hw) (fun fault w r _ hr => checks_of_plain ?_) h).forget
  · cases r with
    | errand e =>
      refine (effect_serve i fault w (.errand e)).lesser (fun _ _ hno => nomatch hno)
        (.inl fun data hlog => ?_)
      cases hfailure : fault.failure <;> simp [serve, commit, hfailure] at hlog
    | _ => exact hr.elim
  · cases r with
    | errand e => trivial
    | _ => exact hr.elim

theorem seen_of_read (h : Unread i w) (hlog : v.log = w.log ++ [.read i data])
    (hdata : v.data = data) : Seen i data v := by
  refine ⟨[], ?_, fun _ => hdata ▸ .refl _⟩
  rw [hlog, Logs.since_append_of_none h]
  simp [Logs.since, readBy]

end Rules

section Programs

variable [DecidableEq ι] {i : ι} {data : Data} {w v : World ι}

theorem every_plain {r : Request} (h : r.Plain) : Every Request.Plain (ask r).run := Every.ask h

theorem every_isErrand (e : Errand) : Every Request.IsErrand (ask (.errand e)).run :=
    Every.ask trivial

theorem every_ensureFoldersConfigmap : Every Request.Plain ensureFoldersConfigmap.run := by
  refine .tryCatch (Every.bind (every_plain trivial) fun cm => .pure _) fun e => ?_
  split
  · refine .bind (Every.tryCatch (every_plain trivial) fun e => ?_) fun _ => ?_
    · split <;> exact .throw _
    · exact .bind (every_plain trivial) fun _ => .pure _
  · exact .throw _

theorem every_getFolder (name : String) : Every Request.Plain (getFolder name).run := by
  refine .bind every_ensureFoldersConfigmap fun data => ?_
  dsimp only
  split
  · exact .throw _
  · exact .bind (every_plain trivial) fun _ => .pure _

theorem every_checkEmpty (descendants : List String) :
    Every Request.Plain (checkEmpty descendants).run := by
  rw [checkEmpty]
  split
  · exact .throw _
  · refine .bind (every_plain trivial) fun environments => ?_
    split
    · exact .throw _
    · exact .pure _

theorem every_checkQuota (quota : Option FolderQuota) :
    Every Request.IsErrand (checkQuota quota).run := by
  rw [checkQuota]
  split
  · exact .bind (every_isErrand _) fun _ => .pure _
  · exact .pure _

theorem careful_ensureFoldersConfigmap : Careful i (Unread i) ensureFoldersConfigmap (Seen i) := by
  have hlasts (e : Failure) : Lasts Timely (Relies i) (Unread i : World ι → Prop) := lasts_unread
  have hunread {w : World ι} {r : Request} {fault : Fault} (hw : Unread i w)
      (hlog : ∀ data, (serve i fault w r).2.log ≠ w.log ++ [.read i data]) (hr : r.Plain) :
      Unread i (serve i fault w r).2 := by
    have hchecks : Checks i w r (serve i fault w r).2 := checks_of_plain hr
    exact hw.lesser ((effect_serve i fault w r).lesser hchecks.1 (.inl hlog))
  have hread : Attempts (serve i) Timely (Relies i) (Checks i) (Unread i)
      (do return (← ask .readConfigMap).value) (Seen i) fun _ => Unread i := by
    refine .bind serve_timely hlasts (Q := fun cm => Seen i cm.value) ?_
      fun cm => .pure (lasts_seen _) fun _ h => h
    refine .ask serve_timely lasts_unread (fun _ => lasts_seen _) hlasts fun w fault _ hw =>
      ⟨checks_of_plain trivial, ?_⟩
    cases hfailure : fault.failure with
    | some e =>
      have h := @hunread w .readConfigMap fault hw (by simp [serve, hfailure]) trivial
      simp only [serve, hfailure] at h ⊢
      exact h
    | none =>
      cases hcm : w.configMap with
      | none =>
        simp only [serve, hfailure, commit, hcm]
        exact hw
      | some cm =>
        simp only [serve, hfailure, commit, hcm]
        exact seen_of_read hw rfl rfl
  refine .tryCatch serve_timely (fun _ => lasts_seen _) hread fun e => ?_
  split
  · have hsystem : Careful i (Unread i) (tryCatch (ask .readNamespace) fun e =>
        if e = .api 404 then throw (.http 503 ("System namespace '" ++ systemNamespace ++
          "' does not exist. It should be created during cluster bootstrap.")) else throw e)
        fun _ => Unread i := by
      refine .tryCatch serve_timely (fun _ => lasts_unread) (E := fun _ _ => True) ?_ fun e => ?_
      · refine careful_ask lasts_unread (fun _ => lasts_unread)
          (fun _ _ _ => checks_of_plain trivial)
          fun w answer a _ hw _ => ?_
        simpa only [commit] using hw
      · split <;> exact .throw (lasts_const True) fun _ _ => trivial
    refine Careful.bind hsystem fun _ => Careful.bind (Q := fun _ => Seen i ∅) ?_
      fun _ => .pure (lasts_seen _) fun _ h => h
    refine careful_ask lasts_unread (fun _ => lasts_seen _) (fun _ _ _ => checks_of_plain trivial)
      fun w answer a _ hw ha => ?_
    cases hcm : w.configMap with
    | some cm => simp [commit, hcm] at ha
    | none =>
      simp only [commit, hcm]
      exact seen_of_read hw rfl rfl
  · exact .throw lasts_unread fun _ _ => trivial

theorem careful_saveFolderMeta {name : String} {info : Meta} (h : Passed data name info) :
    Careful i (Seen i data) (saveFolderMeta name info) fun _ _ => True := by
  refine careful_ask (lasts_seen data) (fun _ => lasts_const True)
    (fun w v hw => ⟨fun version data hr => by simp at hr, fun name' info' hr => ?_⟩)
    fun _ _ _ _ _ _ => trivial
  cases hr
  exact ⟨data, hw, h⟩

theorem passed_of_same {name : String} {old info : Meta}
    (hold : (parseAllFolders data).node name = some old) (hsame : info.parentId = old.parentId) :
    Passed data name info := by
  rw [Passed, hold]
  exact .inl hsame

theorem careful_checkParent (folder : FolderCreateRequest) :
    Careful i (Seen i data) (checkParent (parseAllFolders data) folder) fun _ w =>
      Seen i data w ∧ ∀ p ∈ given folder.parentId, ((parseAllFolders data).node p).isSome := by
  have hlasts (p : Prop) : Lasts Timely (Relies i) fun w : World ι => Seen i data w ∧ p :=
    (lasts_seen data).and (lasts_const p)
  rw [checkParent]
  split
  · next hnone => exact .pure (lasts_seen data) fun _ hw => ⟨hw, by simp [hnone]⟩
  · next parent hparent =>
    split
    · exact careful_refuse
    · next hthere =>
      have hstored : ∀ p ∈ given folder.parentId, ((parseAllFolders data).node p).isSome := by
        intro p hp
        obtain rfl := mem_unique hparent hp
        simpa [isNone_iff_eq_none, isSome_iff_ne_none] using hthere
      split
      · refine Careful.bind (careful_of_aside (fun _ _ h hw => hw.lesser h) (every_isErrand _))
          fun _ => ?_
        exact .pure (lasts_seen data) fun _ hw => ⟨hw, hstored⟩
      · exact .pure (lasts_seen data) fun _ hw => ⟨hw, hstored⟩

theorem ne_of_given {folder : FolderCreateRequest}
    (hnew : (parseAllFolders data).node folder.name = none)
    (hparent : ∀ p ∈ given folder.parentId, ((parseAllFolders data).node p).isSome) :
    folder.parentId ≠ some folder.name := by
  intro hself
  have hgiven : given folder.parentId = some folder.name := by
    rw [hself, given, if_neg folder.name_ne]
  have hthere := hparent _ hgiven
  rw [hnew] at hthere
  contradiction

theorem careful_createFolder (folder : FolderCreateRequest) (email now : String) :
    Careful i (Unread i) (createFolder folder email now) fun _ _ => True := by
  refine Careful.bind careful_ensureFoldersConfigmap fun data => ?_
  dsimp only
  split
  · exact careful_refuse
  · next hnew =>
    refine Careful.bind (careful_checkParent folder) fun _ => ?_
    refine Careful.bind (careful_of_aside (fun _ _ h hw => ⟨hw.1.lesser h, hw.2⟩)
      (every_isErrand _))
      fun _ => ?_
    refine Careful.bind (Q := fun _ _ => True) (fun w hinv hw => ?_) fun _ => ?_
    · have hnone : (parseAllFolders data).node folder.name = none := by simpa using hnew
      refine careful_saveFolderMeta ?_ w hinv hw.1
      rw [Passed, hnone]
      exact ne_of_given hnone hw.2
    · refine careful_of_plain (.bind every_ensureFoldersConfigmap fun _ => ?_)
      exact .bind (every_plain trivial) fun _ => .pure _

theorem careful_moveFolder (name : String) (newParentId : Option String) :
    Careful i (Unread i) (moveFolder name newParentId) fun _ _ => True := by
  refine Careful.bind careful_ensureFoldersConfigmap fun data => ?_
  dsimp only
  split
  · exact careful_refuse
  · next info hinfo =>
    split
    · exact careful_refuse
    · split
      · exact careful_refuse
      · exact careful_refuse
      · next hcheck =>
        refine Careful.bind (careful_saveFolderMeta ?_) fun _ =>
          careful_of_plain (every_getFolder name)
        rw [Passed, hinfo]
        exact .inr hcheck

theorem careful_updateFolder (name : String) (request : FolderUpdateRequest) :
    Careful i (Unread i) (updateFolder name request) fun _ _ => True := by
  refine Careful.bind careful_ensureFoldersConfigmap fun data => ?_
  dsimp only
  split
  · exact careful_refuse
  · next info hinfo =>
    refine Careful.bind (careful_of_aside (fun _ _ h hw => hw.lesser h) (every_checkQuota _))
      fun _ => ?_
    exact Careful.bind (careful_saveFolderMeta (passed_of_same hinfo rfl)) fun _ =>
      careful_of_plain (every_getFolder name)

theorem parentId_apply (access : AddFolderAccessRequest) (info : Meta) :
    (access.apply info).parentId = info.parentId := by
  rw [AddFolderAccessRequest.apply]
  split <;> rfl

theorem careful_addFolderAccess (name : String) (access : AddFolderAccessRequest) :
    Careful i (Unread i) (addFolderAccess name access) fun _ _ => True := by
  refine Careful.bind careful_ensureFoldersConfigmap fun data => ?_
  dsimp only
  split
  · exact careful_refuse
  · next info hinfo =>
    split
    · split
      · exact careful_refuse
      · exact careful_of_plain (.bind (every_plain trivial) fun _ => .pure _)
    · refine Careful.bind (Q := fun _ _ => True) ?_ fun _ => ?_
      · rw [saveEntry]
        split
        · exact .pure (lasts_seen data) fun _ _ => trivial
        · exact careful_saveFolderMeta (passed_of_same hinfo (parentId_apply access info))
      · split
        · exact .throw (lasts_const True) fun _ _ => trivial
        · exact .pure (lasts_const True) fun _ _ => trivial

theorem careful_patchFolderAccess (name : String) (patch : FolderAccessPatchRequest) :
    Careful i (Unread i) (patchFolderAccess name patch) fun _ _ => True := by
  refine Careful.bind careful_ensureFoldersConfigmap fun data => ?_
  dsimp only
  split
  · exact careful_refuse
  · next info hinfo =>
    refine Careful.bind (careful_saveFolderMeta (passed_of_same hinfo rfl)) fun _ => ?_
    exact careful_of_plain (.bind (every_plain trivial) fun _ => .pure _)

theorem careful_removeFolderAccess (name bindingId : String) :
    Careful i (Unread i) (removeFolderAccess name bindingId) fun _ _ => True := by
  refine Careful.bind careful_ensureFoldersConfigmap fun data => ?_
  have hfound (deleted : Nat) : Careful i (Seen i data) (if deleted = 0
      then throw (.http 404 "Access entry not found")
      else pure () : Call Unit) fun _ _ => True := by
    split
    · exact careful_refuse
    · exact .pure (lasts_seen data) fun _ _ => trivial
  dsimp only
  split
  · exact careful_refuse
  · refine Careful.bind (careful_of_aside (fun _ _ h hw => hw.lesser h) (every_isErrand _))
      fun deleted => ?_
    split
    · next info hinfo =>
      split
      · exact careful_saveFolderMeta (passed_of_same hinfo rfl)
      · exact hfound deleted
    · exact hfound deleted

theorem careful_readConfigMap :
    Careful i (fun _ => True) (ask .readConfigMap) fun cm w => Known cm w := by
  refine careful_ask (lasts_const True) lasts_known (fun _ _ _ => checks_of_plain trivial)
    fun w answer a hw _ ha => ?_
  cases hcm : w.configMap with
  | none => simp [commit, hcm] at ha
  | some cm =>
    simp only [commit, hcm, Except.ok.injEq] at ha ⊢
    subst ha
    exact (known_of_timely hw hcm).of_eq hcm.symm (Nat.le_refl _)

theorem careful_deleteFolderMeta (name : String) :
    Careful i (fun _ => True) (deleteFolderMeta name) fun _ _ => True := by
  refine Careful.bind careful_readConfigMap fun cm => ?_
  refine careful_ask (lasts_known cm) (fun _ => lasts_const True)
    (fun w v hknown => ⟨?_, fun name info hr => by simp at hr⟩) fun _ _ _ _ _ _ => trivial
  intro version data hreplace x hx hversion
  cases hreplace
  exact ⟨name, by rw [hknown.2 x hx hversion]⟩

theorem careful_deleteAll (names : List String) :
    Careful i (fun _ => True) (deleteAll names) fun _ _ => True := by
  induction names with
  | nil => exact careful_of_plain (Every.pure ())
  | cons name names ih => exact Careful.bind (careful_deleteFolderMeta name) fun _ => ih

theorem careful_deleteFolder (name : String) (cascade : Bool) :
    Careful i (fun _ => True) (deleteFolder name cascade) fun _ _ => True := by
  refine Careful.bind (careful_of_plain every_ensureFoldersConfigmap) fun data => ?_
  dsimp only
  split
  · exact careful_of_plain (Every.throw _)
  · split
    · exact careful_of_plain (Every.throw _)
    · next descendants _ =>
      have hcheck : Every Request.Plain
          (if cascade then pure () else checkEmpty descendants : Call Unit).run := by
        split
        · exact .pure _
        · exact every_checkEmpty descendants
      exact Careful.bind (careful_of_plain hcheck) fun _ => careful_deleteAll _

theorem careful_program (op : Op) : Careful i (Unread i) op.program fun _ _ => True := by
  cases op with
  | create folder email now => exact careful_createFolder folder email now
  | move name newParentId => exact careful_moveFolder name newParentId
  | delete name cascade =>
    exact Attempts.pre (careful_deleteFolder name cascade) fun _ _ => trivial
  | edit e =>
    cases e with
    | update name request => exact careful_updateFolder name request
    | grant name access => exact careful_addFolderAccess name access
    | patchAccess name patch => exact careful_patchFolderAccess name patch
    | revoke name bindingId => exact careful_removeFolderAccess name bindingId

end Programs

section Runs

variable [DecidableEq ι]

/-- Whenever a folder is saved, nothing has been saved since the request has read; and a folder that
was not there then is not made the parent of one that is stored. -/
def Apart (t : Crowd (World ι) Request Request.Response ι (Except Failure Unit)) :
    Turn Unit Fault ι → Prop
  | .act _ => True
  | .call i fault =>
    match (t.rest i).request? with
    | some (.patchConfigMap name _) => fault.failure = none →
      ∀ seen ∈ Logs.since (readBy i) t.world.log, (∀ e ∈ seen.2, e.isSave = false) ∧
        ((parseAllFolders seen.1).node name = none →
          ∀ e ∈ t.world.data.entries, (e.2.getD {}).parentId ≠ some name)
    | _ => True

instance (t : Crowd (World ι) Request Request.Response ι (Except Failure Unit)) :
    DecidablePred (Apart t) := fun turn => by
  unfold Apart
  split
  · infer_instance
  · split <;> infer_instance

/-- Nothing that is stored is above itself, and nothing was that has been read. -/
structure Forested (w : World ι) : Prop where
  stored : w.data.Acyclic
  read : ∀ i data, .read i data ∈ w.log → data.Acyclic

omit [DecidableEq ι] in
theorem transGen_within {data data' : Data} (h : Within data data') {f g : String}
    (hpath : Relation.TransGen data.Child f g) : Relation.TransGen data'.Child f g := by
  refine Relation.TransGen.mono (fun c p hc => ?_) f g hpath
  obtain ⟨raw, hraw, hparent⟩ := child_iff.mp hc
  exact child_iff.mpr ⟨raw, h c raw hraw, hparent⟩

omit [DecidableEq ι] in
/-- What has passed the check on a forest, passes it on what is left of that. -/
theorem acyclic_of_passed {data data' : Data} {name : String} {info : Meta} (h : data.Acyclic)
    (hread : data'.Acyclic) (hwithin : Within data data') (hpassed : Passed data' name info)
    (hnew : (parseAllFolders data').node name = none →
      ∀ e ∈ data.entries, (e.2.getD {}).parentId ≠ some name) :
    Data.Acyclic (data.insert name (some info)) := by
  refine (acyclic_insert_iff h).mpr ((wouldCreateCycle_eq_some_false_iff h _).mpr ?_)
  intro p hp hbelow
  have hpath : p = name ∨ Relation.TransGen data.Child p name :=
    (Relation.reflTransGen_iff_eq_or_transGen.mp hbelow).imp_left Eq.symm
  rw [Passed] at hpassed
  split at hpassed
  · next hnone =>
    -- a new folder: nothing is below it
    obtain rfl | hpath := hpath
    · exact hpassed hp
    · obtain ⟨c, -, hc⟩ := Relation.TransGen.tail'_iff.mp hpath
      obtain ⟨raw, hraw, hparent⟩ := child_iff.mp hc
      exact hnew hnone ⟨c, raw⟩ (AList.mem_lookup_iff.mp hraw) hparent
  · next old hold =>
    obtain hsame | hcheck := hpassed
    · -- the parent that it had
      have hchild : data'.Child name p := ⟨old, hold, hsame.symm.trans hp⟩
      obtain rfl | hpath := hpath
      · exact hread p (.single hchild)
      · exact hread name (Relation.TransGen.head hchild (transGen_within hwithin hpath))
    · have hnot := (wouldCreateCycle_eq_some_false_iff hread _).mp hcheck p hp
      refine hnot (Relation.reflTransGen_iff_eq_or_transGen.mpr ?_)
      exact hpath.imp Eq.symm fun hpath => transGen_within hwithin hpath

omit [DecidableEq ι] in
theorem Forested.act {w : World ι} (h : Forested w) (a : Unit) : Forested (act a w) := by
  have hdata : (Folders.act a w).data = w.data := by
    cases hcm : w.configMap <;> simp [World.data, Folders.act, hcm]
  exact ⟨hdata ▸ h.stored, h.read⟩

/-- A request keeps the forest if it removes a folder, or saves what has passed the check on what is
no more than that. -/
theorem Forested.effect {i : ι} {fault : Fault} {w v : World ι} {r : Request}
    (h : Forested w) (heffect : Effect i fault w r v) (hchecks : Checks i w r v)
    (hapart : ∀ name info data more, fault.failure = none → r = .patchConfigMap name info →
      Logs.since (readBy i) w.log = some (data, more) → (∀ e ∈ more, e.isSave = false) ∧
        ((parseAllFolders data).node name = none →
          ∀ e ∈ w.data.entries, (e.2.getD {}).parentId ≠ some name)) : Forested v := by
  have hread {e : Event ι} (he : ∀ j data, e = .read j data → data.Acyclic) (j : ι) (data : Data)
      (hmem : .read j data ∈ w.log ++ [e]) : data.Acyclic := by
    obtain hmem | hmem := List.mem_append.mp hmem
    · exact h.read j data hmem
    · exact he j data (List.mem_singleton.mp hmem).symm
  cases heffect with
  | refused _ => exact ⟨h.stored, hread fun _ _ hno => by simp at hno⟩
  | nothing => exact h
  | @read cm hcm =>
    refine ⟨h.stored, hread fun j data hj => ?_⟩
    obtain ⟨-, rfl⟩ := Event.read.inj hj
    exact data_of_configMap hcm ▸ h.stored
  | created _ =>
    refine ⟨acyclic_empty, hread fun j data hj => ?_⟩
    obtain ⟨-, rfl⟩ := Event.read.inj hj
    exact acyclic_empty
  | @patched cm name info hfailure hcm =>
    refine ⟨?_, hread fun _ _ hno => by simp at hno⟩
    obtain ⟨data, ⟨more, hsince, hwithin⟩, hpassed⟩ := hchecks.2 name info rfl
    obtain ⟨hsaves, hnew⟩ := hapart name info data more hfailure rfl hsince
    obtain ⟨e, he, hmark⟩ := Logs.exists_mem_of_since hsince
    have hacyclic : data.Acyclic := by
      cases e with
      | read j found =>
        simp only [readBy, ite_none_right_eq_some, some.injEq] at hmark
        exact hmark.2 ▸ h.read j found he
      | saved _ _ _ | refused _ => simp [readBy] at hmark
    have hinsert := acyclic_of_passed h.stored hacyclic (hwithin hsaves) hpassed hnew
    have hstored := h.stored
    rw [data_of_configMap hcm] at hinsert hstored
    change (Versioned.patch cm (w.clock + 1) name info).value.Acyclic
    rw [Versioned.patch]
    split
    · exact hstored
    · exact hinsert
  | @replaced cm data hcm =>
    refine ⟨?_, h.read⟩
    obtain ⟨name, rfl⟩ := hchecks.1 _ _ rfl cm hcm rfl
    exact acyclic_erase (data_of_configMap hcm ▸ h.stored) name

/-- Where nothing is saved between a request's reading and its saving, and no folder comes back
above what was below it, the folders stay a forest, whatever the requests and their order, and
every walk up or down ends. -/
theorem stays_forest (s : Snapshot) (ops : ι → Op)
    (hforest : ∀ cm, s.configMap = some cm → cm.value.Acyclic)
    {t : Crowd (World ι) Request Request.Response ι (Except Failure Unit)}
    (h : Crowd.Run serve act Apart (start s ops) t) (cm : Versioned Data)
    (hcm : t.world.configMap = some cm) : cm.value.Acyclic ∧ ∀ f,
      (∃ names, getDescendantNames (parseAllFolders cm.value) f = some names) ∧
        ∃ chain, getAncestorChain (parseAllFolders cm.value) f = some chain := by
  have hlegal : Crowd.Legal Timely Relies Checks
      (fun _ => outcome (fun _ _ => True) fun _ _ => True) serve (start s ops) :=
    ⟨s.timely, fun i => careful_program (ops i) s.world s.timely rfl⟩
  have hstart : Forested (start s ops).world := by
    refine ⟨?_, fun _ _ hread => absurd hread List.not_mem_nil⟩
    change Data.Acyclic ((s.configMap.map Versioned.value).getD ∅)
    cases hnone : s.configMap with
    | none => exact acyclic_empty
    | some cm => exact hforest cm hnone
  obtain ⟨-, hforested⟩ := Crowd.Run.invariant (P := Forested)
    (fun i w => ⟨keeps_refl w, Lesser.refl i w⟩)
    (fun i f w r hw => serve_timely f w r hw)
    (fun t a _ _ hP => ⟨timely_act a t.world,
      fun i => ⟨keeps_act a, lesser_act i a t.world⟩, hP.act a⟩)
    (fun t i fault r k hcond hrest _ hP hchecks => by
      have heffect := effect_serve i fault t.world r
      refine ⟨fun j hji => ⟨heffect.keeps, heffect.lesser hchecks.1 (.inr (Ne.symm hji))⟩,
        hP.effect heffect hchecks ?_⟩
      rintro name info data more hfailure rfl hsince
      simp only [Apart, hrest, Program.request?] at hcond
      exact hcond hfailure _ hsince) hlegal hstart h
  have hacyclic := data_of_configMap hcm ▸ hforested.stored
  exact ⟨hacyclic, fun f => ⟨exists_getDescendantNames hacyclic f, exists_getAncestorChain _ f⟩⟩

/-- Two folders at the root. -/
def roots : Snapshot where
  clock := 1
  configMap := some ⟨1, AList.insert "a" (some {}) (AList.insert "b" (some {}) ∅)⟩
  timely := fun _ hcm => (some.inj hcm) ▸ Nat.le_refl 1

/-- Each is to be moved below the other. -/
def crossing (second : Bool) : Op :=
  if second then .move "b" (some "a") else .move "a" (some "b")

theorem acyclic_roots (cm : Versioned Data) (hcm : roots.configMap = some cm) :
    cm.value.Acyclic := by
  obtain rfl := some.inj hcm
  exact Hierarchy.acyclic_of_rank (fun _ => 0) (by decide)

/-- Both read before either saves. -/
def crossed : List (Turn Unit Fault Bool) :=
  [.call false {}, .call true {}, .call false {}, .call true {}]

/-- What is stored when both have been saved. -/
def looped : Data :=
  AList.insert "b" (some { parentId := some "a" })
    (AList.insert "a" (some { parentId := some "b" }) ∅)

/-- One folder is moved below the other, a third is made below both, and the first is deleted with
what is below it. -/
def growing : ℕ → Op
  | 0 => .move "a" (some "b")
  | 1 => .create ⟨"c", "C", "", some "a", none, by decide⟩ "ann@shop" "now"
  | _ => .delete "a" true

/-- The deletion reads the folders before the third is saved, and so leaves that out. -/
def overlapping : List (Turn Unit Fault ℕ) :=
  [.call 0 {}, .call 0 {}, .call 1 {}, .call 2 {}, .call 1 {}, .act (), .call 1 {}, .call 2 {},
    .call 2 {}]

/-- The third folder has lost its parent then, and is not above itself. -/
theorem stays_forest_growing : ∃ t : Crowd (World ℕ) Request Request.Response ℕ
      (Except Failure Unit), t.world.data.keys = ["c", "b"] ∧
    ∀ cm, t.world.configMap = some cm → cm.value.Acyclic := by
  have hplay : (Crowd.playWhile serve act Apart (start roots growing) overlapping).any
      (fun t => t.world.data.keys = ["c", "b"]) = true := by decide +kernel
  obtain ⟨t, hrun, ht⟩ := Crowd.exists_run_of_playWhile _ hplay
  exact ⟨t, of_decide_eq_true ht, fun cm hcm =>
    (stays_forest roots growing acyclic_roots hrun cm hcm).1⟩

theorem not_stays_forest : (∀ cm, roots.configMap = some cm → cm.value.Acyclic) ∧
    (∃ t, Crowd.play serve act (start roots crossing) crossed = some t ∧
      t.world.configMap = some ⟨3, looped⟩) ∧
    ¬ looped.Acyclic ∧ getDescendantNames (parseAllFolders looped) "a" = none := by
  have hnone : getDescendantNames (parseAllFolders looped) "a" = none := by decide
  refine ⟨acyclic_roots, ⟨_, rfl, rfl⟩, fun hacyclic => ?_, hnone⟩
  obtain ⟨names, hnames⟩ := exists_getDescendantNames hacyclic "a"
  simp [hnone] at hnames

end Runs

end Folders
