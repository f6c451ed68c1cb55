import KubevirtUi.Folders.Requests
import KubevirtUi.Library.Logs
import KubevirtUi.Library.Raising

/-!
# Whether an update of a folder is lost

A request that edits a folder writes back the whole of what it has read, edited. Where
what is stored then is still what it read, and nothing goes wrong once it has saved, the
requests that succeed take effect one after the other. Two grants that cross are enough
to lose one.
-/

namespace Folders

open Interference Logs

variable {ι α : Type}

/-- The metadata of the folders that are there. -/
abbrev Metas := String → Option Meta

def World.metas (w : World ι) : Metas :=
  fun name => w.configMap.bind fun cm => (parseAllFolders cm.value).node name

namespace Edit

def name : Edit → String
  | .update name _ => name
  | .grant name _ => name
  | .patchAccess name _ => name
  | .revoke name _ => name

/-- What an edit makes of the metadata. A grant in one environment is no part of it. -/
def apply : Edit → Meta → Meta
  | .update _ request => request.apply
  | .grant _ access =>
    match access.scope with
    | .folder => access.apply
    | .environment _ => id
  | .patchAccess _ patch => patch.apply
  | .revoke _ bindingId => withoutBinding bindingId

/-- An edit of the folder that it names, if that is there. -/
def on (e : Edit) (metas : Metas) : Metas :=
  Function.update metas e.name ((metas e.name).map e.apply)

end Edit

/-- The client that read or saved. -/
def Event.deed? : Event ι → Option ι
  | .read i _ => some i
  | .saved i _ _ => some i
  | .refused _ => none

/-- What an event makes of the folders. -/
def store (metas : Metas) : Event ι → Metas
  | .saved _ name info => Function.update metas name (some info)
  | _ => metas

/-- What the client has read and saved. -/
def Own [DecidableEq ι] (i : ι) (deeds : List (Event ι)) (w : World ι) : Prop :=
  mine Event.deed? i w.log = deeds

def Saved (i : ι) (w : World ι) : Prop := ∃ name info, .saved i name info ∈ w.log

/-- Something went wrong for the client after it had saved. -/
def Harmed (i : ι) (w : World ι) : Prop :=
  ∃ before more, w.log = before ++ .refused i :: more ∧ ∃ name info, .saved i name info ∈ before

def There (name : String) (w : World ι) : Prop := (w.metas name).isSome

/-- What a client relies on: what the others do is not done in its name, and no folder
goes away. -/
def Undisturbed (i : ι) (w v : World ι) : Prop :=
  Extends Event.deed? i w.log v.log ∧ ∀ name, There name w → There name v

/-- What a client writes is its edit of what it has read, and it has written nothing yet. -/
def Writes [DecidableEq ι] (e : Edit) (i : ι) (w : World ι) (r : Request) (_ : World ι) : Prop :=
  (∀ version data, r ≠ .replaceConfigMap version data) ∧
    ∀ name info, r = .patchConfigMap name info → ∃ data, Own i [.read i data] w ∧
      name = e.name ∧ ((parseAllFolders data).node name).map e.apply = some info

/-- The client is done, and has saved, or its edit changes nothing of what it has read. -/
def Acknowledged [DecidableEq ι] (e : Edit) (i : ι) (w : World ι) : Prop :=
  Saved i w ∨ ∃ data, Own i [.read i data] w ∧
    ((parseAllFolders data).node e.name).map e.apply = (parseAllFolders data).node e.name

/-- The client has failed before it saved, unless something went wrong afterwards. -/
def Failed (i : ι) (x : Failure) (w : World ι) : Prop :=
  x = .hangs ∨ ¬ Saved i w ∨ Harmed i w

variable {name : String} {info : Meta} {r : Request} {access : AddFolderAccessRequest}

theorem metas_patched {w : World ι} {cm : Versioned Data} {clock : Nat} {log : List (Event ι)}
    (hcm : w.configMap = some cm) :
    World.metas ⟨clock, some (Versioned.patch cm clock name info), log⟩ =
      Function.update w.metas name (some info) := by
  funext other
  have hw : w.metas other = (cm.value.lookup other).map fun raw => raw.getD {} := by
    rw [World.metas, hcm, Option.bind_some, node_parseAllFolders]
  simp only [World.metas, Option.bind_some, node_parseAllFolders, Versioned.patch]
  by_cases hother : other = name
  · subst hother
    split <;> simp [*]
  · rw [Function.update_of_ne hother, hw]
    split <;> simp [hother, AList.lookup_insert_ne]

section Lasting

variable {i : ι} {w v : World ι}

theorem saved_iff_of_extends (h : Extends Event.deed? i w.log v.log) : Saved i v ↔ Saved i w := by
  constructor
  · rintro ⟨name, info, hmem⟩
    exact ⟨name, info, (h.mem_iff rfl).mp hmem⟩
  · rintro ⟨name, info, hmem⟩
    exact ⟨name, info, h.mem hmem⟩

/-- What only looks back in the log. -/
def Backward (P : World ι → Prop) : Prop :=
  ∀ w v, (∃ more, v.log = w.log ++ more) → P w → P v

theorem backward_saved (i : ι) : Backward (Saved i) := by
  rintro w v ⟨more, hlog⟩ ⟨name, info, hmem⟩
  exact ⟨name, info, hlog ▸ List.mem_append_left more hmem⟩

theorem backward_harmed (i : ι) : Backward (Harmed i) := by
  rintro w v ⟨more, hlog⟩ ⟨before, after, hw, hsaved⟩
  exact ⟨before, after ++ more, by rw [hlog, hw]; simp, hsaved⟩

theorem Harmed.saved (h : Harmed i w) : Saved i w := by
  obtain ⟨before, more, hlog, name, info, hmem⟩ := h
  exact ⟨name, info, hlog ▸ List.mem_append_left _ hmem⟩

theorem harmed_of_refused (h : Saved i w) (hlog : v.log = w.log ++ [.refused i]) : Harmed i v :=
  ⟨w.log, [], hlog, h⟩

theorem Backward.lasts {P : World ι → Prop} (h : Backward P) :
    Lasts (fun _ => True) (Undisturbed i) P := by
  rintro w v - - ⟨⟨more, hlog, -⟩, -⟩ hP
  exact h w v ⟨more, hlog⟩ hP

theorem lasts_there (name : String) : Lasts (fun _ => True) (Undisturbed i) (There name) :=
  fun _ _ _ _ h => h.2 name

theorem lasts_failed (x : Failure) : Lasts (fun _ => True) (Undisturbed i) (Failed i x) := by
  rintro w v - - h (hx | hunsaved | hharmed)
  · exact .inl hx
  · exact .inr (.inl ((saved_iff_of_extends h.1).not.mpr hunsaved))
  · exact .inr (.inr ((backward_harmed i).lasts w v trivial trivial h hharmed))

variable [DecidableEq ι]

theorem lasts_own (deeds : List (Event ι)) : Lasts (fun _ => True) (Undisturbed i) (Own i deeds) :=
  fun _ _ _ _ h hw => h.1.mine.trans hw

theorem lasts_acknowledged (e : Edit) :
    Lasts (fun _ => True) (Undisturbed i) (Acknowledged e i) := by
  rintro w v - - h (hsaved | ⟨data, hown, hsame⟩)
  · exact .inl ((saved_iff_of_extends h.1).mpr hsaved)
  · exact .inr ⟨data, lasts_own _ w v trivial trivial h hown, hsame⟩

theorem unsaved_of_own {deeds : List (Event ι)} (h : Own i deeds w)
    (hdeeds : ∀ name info, .saved i name info ∉ deeds) : ¬ Saved i w := by
  rintro ⟨name, info, hmem⟩
  exact hdeeds name info (h ▸ mem_mine.mpr ⟨hmem, rfl⟩)

theorem failed_of_nil (x : Failure) (h : Own i [] w) : Failed i x w :=
  .inr (.inl (unsaved_of_own h (by simp)))

theorem failed_of_read {data : Data} (x : Failure) (h : Own i [.read i data] w) : Failed i x w :=
  .inr (.inl (unsaved_of_own h (by simp)))

end Lasting

section Rules

variable [DecidableEq ι] {e : Edit} {i : ι} {P : World ι → Prop} {deeds : List (Event ι)}

/-- A request, or a part of it, that writes nothing but its edit, and what it achieves. -/
abbrev Edits (e : Edit) (i : ι) (P : World ι → Prop) (p : Call α) (Q : α → World ι → Prop)
    (E : Failure → World ι → Prop) : Prop :=
  Attempts (serve i) (fun _ => True) (Undisturbed i) (Writes e i) P p Q E

/-- A request that neither patches nor replaces. -/
def Request.Harmless : Request → Prop
  | .patchConfigMap .. => False
  | .replaceConfigMap .. => False
  | _ => True

theorem writes_of_harmless (h : r.Harmless) (w v : World ι) : Writes e i w r v := by
  constructor
  · rintro version data rfl
    exact h
  · rintro name info rfl
    exact h.elim

theorem Edits.bind {β : Type} {p : Call α} {f : α → Call β} {Q : α → World ι → Prop}
    {R : β → World ι → Prop} {E : Failure → World ι → Prop}
    (hE : ∀ x, Lasts (fun _ => True) (Undisturbed i) (E x)) (hp : Edits e i P p Q E)
    (hf : ∀ a, Edits e i (Q a) (f a) R E) : Edits e i P (p >>= f) R E :=
  Attempts.bind (fun _ _ _ _ => trivial) hE hp hf

/-- What looks back in the log stays so when the client reads, or runs an errand. -/
theorem edits_keep (hP : Backward P) (hr : r.Harmless) :
    Edits e i P (ask r) (fun _ => P) fun _ => P := by
  refine .ask (fun _ _ _ _ => trivial) hP.lasts (fun _ => hP.lasts) (fun _ => hP.lasts)
    fun w fault _ hw => ⟨writes_of_harmless hr _ _, ?_⟩
  have hlog : ∃ more, (serve i fault w r).2.log = w.log ++ more := by
    have heffect := effect_serve i fault w r
    generalize (serve i fault w r).2 = v at heffect
    cases heffect with
    | refused _ => exact ⟨_, rfl⟩
    | nothing => exact ⟨[], by simp⟩
    | read _ => exact ⟨_, rfl⟩
    | created _ => exact ⟨_, rfl⟩
    | patched _ _ => exact ⟨_, rfl⟩
    | replaced _ => exact ⟨[], by simp⟩
  cases (serve i fault w r).1 <;> exact hP w _ hlog hw

omit e in
theorem own_concat {w v : World ι} {d : Event ι} (hlog : v.log = w.log ++ [d])
    (hd : d.deed? = some i) (h : Own i deeds w) : Own i (deeds ++ [d]) v := by
  rw [Own, hlog, mine_concat_self hd, h]

theorem own_refused (w : World ι) (h : Own i deeds w) :
    Own i deeds { w with log := w.log ++ [.refused i] } :=
  (mine_concat_of_ne (by simp [Event.deed?])).trans h

theorem edits_ask {Q : r.Result → World ι → Prop} {E : Failure → World ι → Prop} (hr : r.Harmless)
    (hP : Lasts (fun _ => True) (Undisturbed i) P)
    (hQ : ∀ a, Lasts (fun _ => True) (Undisturbed i) (Q a))
    (hE : ∀ x, Lasts (fun _ => True) (Undisturbed i) (E x))
    (hrefused : ∀ x w, P w → E x { w with log := w.log ++ [.refused i] })
    (hdone : ∀ answer w, P w → outcome Q E (commit i answer w r).1 (commit i answer w r).2) :
    Edits e i P (ask r) Q E := by
  refine .ask (fun _ _ _ _ => trivial) hP hQ hE fun w fault _ hw => ⟨writes_of_harmless hr _ _, ?_⟩
  cases hfailure : fault.failure with
  | some x =>
    simp only [serve, hfailure]
    exact hrefused x w hw
  | none =>
    simp only [serve, hfailure]
    exact hdone _ w hw

theorem edits_readConfigMap : Edits e i (Own i deeds) (ask .readConfigMap)
    (fun cm => Own i (deeds ++ [.read i cm.value])) fun _ => Own i deeds := by
  refine edits_ask trivial (lasts_own _) (fun _ => lasts_own _) (fun _ => lasts_own _)
    (fun _ w => own_refused w) fun _ w hw => ?_
  cases hcm : w.configMap with
  | none =>
    simp only [commit, hcm]
    exact hw
  | some cm =>
    simp only [commit, hcm]
    exact own_concat rfl rfl hw

theorem edits_createConfigMap : Edits e i (Own i deeds) (ask .createConfigMap)
    (fun _ => Own i (deeds ++ [.read i ∅])) fun _ => Own i deeds := by
  refine edits_ask trivial (lasts_own _) (fun _ => lasts_own _) (fun _ => lasts_own _)
    (fun _ w => own_refused w) fun _ w hw => ?_
  cases hcm : w.configMap with
  | none =>
    simp only [commit, hcm]
    exact own_concat rfl rfl hw
  | some cm =>
    simp only [commit, hcm]
    exact hw

/-- A request that is about neither the ConfigMap nor what is written to it. -/
def Request.Aside : Request → Prop
  | .readNamespace => True
  | .errand _ => True
  | _ => False

theorem edits_aside (hr : r.Aside) :
    Edits e i (Own i deeds) (ask r) (fun _ => Own i deeds) fun _ => Own i deeds := by
  refine edits_ask (by cases r <;> trivial) (lasts_own _) (fun _ => lasts_own _)
    (fun _ => lasts_own _) (fun _ w => own_refused w) fun _ w hw => ?_
  cases r with
  | readNamespace | errand _ => exact hw
  | readConfigMap | createConfigMap | patchConfigMap _ _ | replaceConfigMap _ _ => exact hr.elim

theorem edits_ensureFoldersConfigmap : Edits e i (Own i []) ensureFoldersConfigmap
    (fun data => Own i [.read i data]) (Failed i) := by
  have hfail (x : Failure) : Edits e i (Own i []) (throw x : Call Data)
      (fun data => Own i [.read i data]) (Failed i) :=
    Attempts.throw (lasts_own _) fun w hw => failed_of_nil x hw
  refine .tryCatch (fun _ _ _ _ => trivial) (fun _ => lasts_own _)
    (E := fun _ => Own i []) ?_ fun x => ?_
  · refine Edits.bind (fun _ => lasts_own _) edits_readConfigMap fun cm => ?_
    exact .pure (lasts_own _) fun _ hw => hw
  · split
    · refine Edits.bind (Q := fun _ => Own i []) lasts_failed ?_ fun _ => ?_
      · refine .tryCatch (fun _ _ _ _ => trivial) (fun _ => lasts_own _)
          (edits_aside (r := .readNamespace) trivial) fun y => ?_
        split
        · exact .throw (lasts_own _) fun w hw => failed_of_nil _ hw
        · exact .throw (lasts_own _) fun w hw => failed_of_nil _ hw
      · refine .bind (Q := fun _ => Own i [.read i ∅]) lasts_failed ?_ fun _ => ?_
        · exact .weaken edits_createConfigMap (fun _ hw => hw) (fun _ _ hw => hw)
            fun x w hw => failed_of_nil x hw
        · exact .pure (lasts_own _) fun _ hw => hw
    · exact hfail x

theorem edits_errand {data : Data} (errand : Errand) :
    Edits e i (Own i [.read i data]) (ask (.errand errand)) (fun _ => Own i [.read i data])
      (Failed i) :=
  Attempts.weaken (edits_aside (r := .errand errand) trivial) (fun _ hw => hw)
    (fun _ _ hw => hw) fun x _ hw => failed_of_read x hw

theorem edits_saveFolderMeta {data : Data}
    (hinfo : ((parseAllFolders data).node e.name).map e.apply = some info) :
    Edits e i (Own i [.read i data]) (saveFolderMeta e.name info)
      (fun _ w => Saved i w ∧ There e.name w) (Failed i) := by
  refine .ask (fun _ _ _ _ => trivial) (lasts_own _)
    (fun _ => (backward_saved i).lasts.and (lasts_there e.name)) lasts_failed
    fun w fault _ hw => ⟨⟨by simp, fun _ _ h => ?_⟩, ?_⟩
  · simp only [Request.patchConfigMap.injEq] at h
    obtain ⟨rfl, rfl⟩ := h
    exact ⟨data, hw, rfl, hinfo⟩
  · cases hfailure : fault.failure with
    | some x =>
      simp only [serve, hfailure]
      exact failed_of_read x (own_refused w hw)
    | none =>
      cases hcm : w.configMap with
      | none =>
        simp only [serve, hfailure, commit, hcm]
        exact failed_of_read _ hw
      | some cm =>
        simp only [serve, hfailure, commit, hcm]
        refine ⟨⟨e.name, info, by simp⟩, ?_⟩
        rw [There, metas_patched hcm]
        simp

theorem edits_errand_saved (errand : Errand) :
    Edits e i (Saved i) (ask (.errand errand)) (fun _ => Saved i) (Failed i) :=
  edits_ask trivial (backward_saved i).lasts (fun _ => (backward_saved i).lasts) lasts_failed
    (fun _ _ hw => .inr (.inr (harmed_of_refused hw rfl))) fun _ _ hw => hw

theorem edits_readConfigMap_saved (name : String) :
    Edits e i (fun w => Saved i w ∧ There name w) (ask .readConfigMap)
      (fun cm w => Saved i w ∧ ((parseAllFolders cm.value).node name).isSome)
      fun _ => Harmed i := by
  refine edits_ask trivial ((backward_saved i).lasts.and (lasts_there name))
    (fun _ => (backward_saved i).lasts.and (lasts_const _)) (fun _ => (backward_harmed i).lasts)
    (fun _ _ hw => harmed_of_refused hw.1 rfl) fun _ w ⟨hsaved, hthere⟩ => ?_
  cases hcm : w.configMap with
  | none => simp [There, World.metas, hcm] at hthere
  | some cm =>
    simp only [commit, hcm]
    refine ⟨backward_saved i w _ ⟨_, rfl⟩ hsaved, ?_⟩
    simpa [There, World.metas, hcm] using hthere

theorem edits_ensureFoldersConfigmap_saved (name : String) :
    Edits e i (fun w => Saved i w ∧ There name w) ensureFoldersConfigmap
      (fun data w => Saved i w ∧ (((parseAllFolders data).node name).isSome ∨ Harmed i w))
      fun _ => Harmed i := by
  have hlasts (data : Data) : Lasts (fun _ => True) (Undisturbed i) fun w : World ι =>
      Saved i w ∧ (((parseAllFolders data).node name).isSome ∨ Harmed i w) := by
    rintro w v - - h ⟨hsaved, hfound | hharmed⟩
    · exact ⟨(backward_saved i).lasts w v trivial trivial h hsaved, .inl hfound⟩
    · exact ⟨(backward_saved i).lasts w v trivial trivial h hsaved,
        .inr ((backward_harmed i).lasts w v trivial trivial h hharmed)⟩
  have hthrow (x : Failure) : Edits e i (Harmed i) (throw x : Call Unit) (fun _ => Harmed i)
      fun _ => Harmed i := Attempts.throw (backward_harmed i).lasts fun _ hw => hw
  refine .tryCatch (fun _ _ _ _ => trivial) hlasts (E := fun _ => Harmed i) ?_ fun x => ?_
  · refine Edits.bind (fun _ => (backward_harmed i).lasts) (edits_readConfigMap_saved name)
      fun cm => ?_
    exact .pure ((backward_saved i).lasts.and (lasts_const _)) fun _ hw =>
      ⟨hw.1, .inl hw.2⟩
  · split
    · refine Edits.bind (fun _ => (backward_harmed i).lasts) (Q := fun _ => Harmed i) ?_ fun _ => ?_
      · refine .tryCatch (fun _ _ _ _ => trivial) (fun _ => (backward_harmed i).lasts)
          (edits_keep (backward_harmed i) (r := .readNamespace) trivial) fun y => ?_
        split <;> exact hthrow _
      · refine .bind (fun _ => (backward_harmed i).lasts)
          (edits_keep (backward_harmed i) (r := .createConfigMap) trivial) fun _ => ?_
        exact .pure (backward_harmed i).lasts fun _ hw => ⟨hw.saved, .inr hw⟩
    · exact .throw (backward_harmed i).lasts fun _ hw => hw

theorem edits_getFolder (name : String) :
    Edits e i (fun w => Saved i w ∧ There name w) (getFolder name) (fun _ => Saved i)
      (Failed i) := by
  refine .bind lasts_failed (Attempts.weaken (edits_ensureFoldersConfigmap_saved name)
    (fun _ hw => hw) (fun _ _ hw => hw) fun x _ hw => .inr (.inr hw)) fun data => ?_
  dsimp only
  split
  · next hnone =>
    refine .weaken (P := Harmed i) ?_ (fun w hw => ?_) (fun _ _ hw => hw) fun _ _ hw => hw
    · exact .throw (backward_harmed i).lasts fun _ hw => .inr (.inr hw)
    · refine hw.2.resolve_left fun hsome => ?_
      rw [Option.isNone_iff_eq_none] at hnone
      simp [hnone] at hsome
  · refine .bind lasts_failed (Attempts.weaken (edits_errand_saved .response)
      (fun _ hw => hw.1) (fun _ _ hw => hw) fun _ _ hw => hw) fun _ => ?_
    exact .pure (backward_saved i).lasts fun _ hw => hw

end Rules

section Programs

variable [DecidableEq ι] {e : Edit} {i : ι} {data : Data}

theorem edits_notFound (x : Failure) :
    Edits e i (Own i [.read i data]) (throw x : Call Unit) (fun _ => Acknowledged e i)
      (Failed i) :=
  Attempts.throw (lasts_own _) fun _ hw => failed_of_read x hw

theorem edits_nothing (hsame : ((parseAllFolders data).node e.name).map e.apply =
    (parseAllFolders data).node e.name) :
    Edits e i (Own i [.read i data]) (pure () : Call Unit) (fun _ => Acknowledged e i)
      (Failed i) :=
  Attempts.pure (lasts_own _) fun _ hw => .inr ⟨data, hw, hsame⟩

theorem edits_checkQuota (quota : Option FolderQuota) :
    Edits e i (Own i [.read i data]) (checkQuota quota) (fun _ => Own i [.read i data])
      (Failed i) := by
  rw [checkQuota]
  split
  · refine .bind lasts_failed (edits_errand .quota) fun _ => ?_
    exact .pure (lasts_own _) fun _ hw => hw
  · exact .pure (lasts_own _) fun _ hw => hw

theorem edits_updateFolder (name : String) (request : FolderUpdateRequest) :
    Edits (.update name request) i (Own i []) (updateFolder name request)
      (fun _ => Acknowledged (.update name request) i) (Failed i) := by
  refine .bind lasts_failed edits_ensureFoldersConfigmap fun data => ?_
  dsimp only
  split
  · exact edits_notFound _
  · next info hinfo =>
    refine .bind lasts_failed (edits_checkQuota request.quota) fun _ => ?_
    refine .bind lasts_failed (edits_saveFolderMeta (e := .update name request) ?_) fun _ => ?_
    · rw [Edit.name, hinfo]
      rfl
    · exact .weaken (edits_getFolder name) (fun _ hw => hw) (fun _ _ hw => .inl hw) fun _ _ hw => hw

theorem edits_patchFolderAccess (name : String) (patch : FolderAccessPatchRequest) :
    Edits (.patchAccess name patch) i (Own i []) (patchFolderAccess name patch)
      (fun _ => Acknowledged (.patchAccess name patch) i) (Failed i) := by
  refine .bind lasts_failed edits_ensureFoldersConfigmap fun data => ?_
  dsimp only
  split
  · exact edits_notFound _
  · next info hinfo =>
    refine .bind lasts_failed (edits_saveFolderMeta (e := .patchAccess name patch) ?_) fun _ => ?_
    · rw [Edit.name, hinfo]
      rfl
    · refine .bind lasts_failed (Attempts.weaken (edits_errand_saved .bindings)
        (fun _ hw => hw.1) (fun _ _ hw => hw) fun _ _ hw => hw) fun _ => ?_
      exact .pure (backward_saved i).lasts fun _ hw => .inl hw

theorem apply_eq_self
    (h : info.accessEntries.any (fun e => e.bindingName = access.bindingName) = true) :
    access.apply info = info := by
  rw [AddFolderAccessRequest.apply, if_pos h]

theorem edits_saveEntry (hscope : access.scope = .folder)
    (hinfo : (parseAllFolders data).node name = some info) :
    Edits (.grant name access) i (Own i [.read i data]) (saveEntry name access info)
      (fun _ => Acknowledged (.grant name access) i) (Failed i) := by
  have hnode : ((parseAllFolders data).node name).map (Edit.grant name access).apply =
      some (access.apply info) := by
    rw [hinfo, Option.map_some, Edit.apply, hscope]
  rw [saveEntry]
  split
  · next hany =>
    refine edits_nothing (hnode.trans ?_)
    rw [apply_eq_self hany]
    exact hinfo.symm
  · exact .weaken (edits_saveFolderMeta (e := .grant name access) hnode)
      (fun _ hw => hw) (fun _ _ hw => .inl hw.1) fun _ _ hw => hw

theorem edits_addFolderAccess (name : String) (access : AddFolderAccessRequest) :
    Edits (.grant name access) i (Own i []) (addFolderAccess name access)
      (fun _ => Acknowledged (.grant name access) i) (Failed i) := by
  refine .bind lasts_failed edits_ensureFoldersConfigmap fun data => ?_
  dsimp only
  split
  · exact edits_notFound _
  · next info hinfo =>
    split
    · next env hscope =>
      split
      · exact edits_notFound _
      · refine .bind lasts_failed (edits_errand .bindings) fun _ => edits_nothing ?_
        rw [Edit.name, hinfo, Option.map_some, Edit.apply, hscope]
        rfl
    · next hscope =>
      refine .bind lasts_failed (edits_saveEntry hscope hinfo) fun _ => ?_
      split
      · exact .throw (lasts_acknowledged _) fun _ _ => .inl rfl
      · exact .pure (lasts_acknowledged _) fun _ hw => hw

theorem withoutBinding_eq_self {bindingId : String}
    (h : (withoutBinding bindingId info).accessEntries.length = info.accessEntries.length) :
    withoutBinding bindingId info = info := by
  have hsame : info.accessEntries.filter (fun e => e.bindingName ≠ bindingId) =
      info.accessEntries := List.filter_sublist.eq_of_length h
  rw [withoutBinding, hsame]

theorem edits_removeFolderAccess (name bindingId : String) :
    Edits (.revoke name bindingId) i (Own i []) (removeFolderAccess name bindingId)
      (fun _ => Acknowledged (.revoke name bindingId) i) (Failed i) := by
  refine .bind lasts_failed edits_ensureFoldersConfigmap fun data => ?_
  dsimp only
  split
  · exact edits_notFound _
  · refine .bind lasts_failed (edits_errand .bindings) fun deleted => ?_
    split
    · next info hinfo =>
      have hnode : ((parseAllFolders data).node name).map (Edit.revoke name bindingId).apply =
          some (withoutBinding bindingId info) := by
        rw [hinfo]
        rfl
      split
      · exact .weaken (edits_saveFolderMeta (e := .revoke name bindingId) hnode)
          (fun _ hw => hw) (fun _ _ hw => .inl hw.1) fun _ _ hw => hw
      · next hlength =>
        have hsame := withoutBinding_eq_self (Decidable.of_not_not hlength)
        split
        · exact edits_notFound _
        · refine edits_nothing (hnode.trans ?_)
          rw [hsame]
          exact hinfo.symm
    · next hnone =>
      split
      · exact edits_notFound _
      · refine edits_nothing ?_
        rw [Edit.name, hnone]
        rfl

theorem edits_program (e : Edit) :
    Edits e i (Own i []) e.program (fun _ => Acknowledged e i) (Failed i) := by
  cases e with
  | update name request => exact edits_updateFolder name request
  | grant name access => exact edits_addFolderAccess name access
  | patchAccess name patch => exact edits_patchFolderAccess name patch
  | revoke name bindingId => exact edits_removeFolderAccess name bindingId

end Programs

end Folders
