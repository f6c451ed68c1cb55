import KubevirtUi.Folders.Updates

/-!
# The order in which updates take effect

Of a request that has saved, the save is the point at which it takes effect, and of one
that had nothing to save, the read. Where every save finds what its request has read, the
folders are what the edits make of them in the order of these points.
-/

namespace Folders

open Interference Logs List Option

variable {ι : Type}

/-- What a log makes of the folders. -/
def replay (init : Metas) (log : List (Event ι)) : Metas := log.foldl store init

/-- This is what the client read last. -/
def LastRead (i : ι) (data : Data) (log : List (Event ι)) : Prop :=
  ∃ before more, log = before ++ .read i data :: more ∧ ∀ d, .read i d ∉ more

/-- Everything saved is the client's edit of what is stored, and its first; everything
read is what is stored; and nothing goes wrong for a client that has saved. -/
structure Orderly (init : Metas) (edits : ι → Edit) (log : List (Event ι)) : Prop where
  earned : ∀ before i name info, before ++ [.saved i name info] <+: log →
    (∀ n m, .saved i n m ∉ before) ∧ name = (edits i).name ∧
      (replay init before name).map (edits i).apply = some info
  seen : ∀ before i data, before ++ [.read i data] <+: log →
    (parseAllFolders data).node = replay init before
  unharmed : ∀ before i, before ++ [.refused i] <+: log → ∀ n m, .saved i n m ∉ before

/-- The log is orderly, and says what is stored. -/
def Recorded (init : Metas) (edits : ι → Edit) (w : World ι) : Prop :=
  Orderly init edits w.log ∧ w.metas = replay init w.log

variable {init : Metas}

section Orderly

variable {edits : ι → Edit} {log : List (Event ι)} {w v : World ι} {i : ι}

theorem orderly_nil : Orderly init edits [] where
  earned _ _ _ _ h := absurd (prefix_nil.mp h) (by simp)
  seen _ _ _ h := absurd (prefix_nil.mp h) (by simp)
  unharmed _ _ h := absurd (prefix_nil.mp h) (by simp)

theorem Orderly.concat (h : Orderly init edits log) {e : Event ι}
    (hearned : ∀ i name info, e = .saved i name info → (∀ n m, .saved i n m ∉ log) ∧
      name = (edits i).name ∧ (replay init log name).map (edits i).apply = some info)
    (hseen : ∀ i data, e = .read i data → (parseAllFolders data).node = replay init log)
    (hunharmed : ∀ i, e = .refused i → ∀ n m, .saved i n m ∉ log) :
    Orderly init edits (log ++ [e]) where
  earned before i name info hpre := by
    obtain ⟨rfl, hlast⟩ | hpre := Logs.last_or_before hpre
    · exact hearned i name info hlast.symm
    · exact h.earned before i name info hpre
  seen before i data hpre := by
    obtain ⟨rfl, hlast⟩ | hpre := Logs.last_or_before hpre
    · exact hseen i data hlast.symm
    · exact h.seen before i data hpre
  unharmed before i hpre := by
    obtain ⟨rfl, hlast⟩ | hpre := Logs.last_or_before hpre
    · exact hunharmed i hlast.symm
    · exact h.unharmed before i hpre

theorem Orderly.of_prefix (h : Orderly init edits log) {before : List (Event ι)}
    (hpre : before <+: log) : Orderly init edits before where
  earned _ _ _ _ hp := h.earned _ _ _ _ (hp.trans hpre)
  seen _ _ _ hp := h.seen _ _ _ (hp.trans hpre)
  unharmed _ _ hp := h.unharmed _ _ (hp.trans hpre)

theorem replay_concat (e : Event ι) : replay init (log ++ [e]) = store (replay init log) e := by
  simp [replay]

theorem metas_act (a : Unit) (w : World ι) : (act a w).metas = w.metas := by
  funext name
  simp only [World.metas, Folders.act]
  cases w.configMap <;> rfl

theorem Recorded.act (h : Recorded init edits w) (a : Unit) : Recorded init edits (act a w) := by
  exact ⟨h.1, (metas_act a w).trans h.2⟩

theorem undisturbed_act (i : ι) (a : Unit) (w : World ι) : Undisturbed i w (act a w) :=
  ⟨Extends.refl i w.log, fun name hw => by rwa [There, metas_act]⟩

theorem Effect.undisturbed [DecidableEq ι] {e : Edit} {fault : Fault} {r : Request} {j : ι}
    (heffect : Effect i fault w r v) (hwrites : Writes e i w r v) (hji : j ≠ i) :
    Undisturbed j w v := by
  have hij : ∀ k, some i = some k → k ≠ j := fun k hk => by
    obtain rfl := some.inj hk
    exact Ne.symm hji
  have hother : some i ≠ some j := fun h => hji (some.inj h).symm
  cases heffect with
  | nothing => exact ⟨Extends.refl j w.log, fun _ hw => hw⟩
  | refused _ => exact ⟨extends_concat (by simp [Event.deed?]), fun _ hw => hw⟩
  | read _ => exact ⟨extends_concat hother, fun _ hw => hw⟩
  | created hcm =>
    refine ⟨extends_concat hother, fun name hw => ?_⟩
    simp [There, World.metas, hcm] at hw
  | @patched cm name info _ hcm =>
    refine ⟨extends_concat hother, fun other hw => ?_⟩
    rw [There, metas_patched hcm]
    by_cases h : other = name
    · subst h
      simp
    · rwa [Function.update_of_ne h]
  | @replaced cm data _ => exact absurd rfl (hwrites.1 _ _)

/-- What a client saves is its edit of what is stored, if that is what it read last. -/
theorem Recorded.effect [DecidableEq ι] (h : Recorded init edits w) {fault : Fault} {r : Request}
    (heffect : Effect i fault w r v) (hwrites : Writes (edits i) i w r v)
    (hunharmed : Saved i w → fault.failure = none)
    (hcurrent : ∀ name info data, fault.failure = none → r = .patchConfigMap name info →
      LastRead i data w.log → (parseAllFolders data).node name = w.metas name) :
    Recorded init edits v := by
  cases heffect with
  | nothing => exact h
  | refused hfailure =>
    refine ⟨h.1.concat (by simp) (by simp) fun j hj n m hmem => ?_, ?_⟩
    · simp only [Event.refused.injEq] at hj
      subst hj
      exact hfailure (hunharmed ⟨n, m, hmem⟩)
    · rw [replay_concat]
      exact h.2
  | @read cm hcm =>
    refine ⟨h.1.concat (by simp) (fun j data hj => ?_) (by simp), ?_⟩
    · simp only [Event.read.injEq] at hj
      obtain ⟨-, rfl⟩ := hj
      rw [← h.2]
      funext name
      simp [World.metas, hcm]
    · rw [replay_concat]
      exact h.2
  | created hcm =>
    have hempty : (parseAllFolders ∅).node = w.metas := by
      funext name
      simp [World.metas, hcm, node_parseAllFolders]
    refine ⟨h.1.concat (by simp) (fun j data hj => ?_) (by simp), ?_⟩
    · simp only [Event.read.injEq] at hj
      obtain ⟨-, rfl⟩ := hj
      exact hempty.trans h.2
    · rw [replay_concat]
      exact hempty.trans h.2
  | @patched cm name info hfailure hcm =>
    obtain ⟨data, hown, hname, hinfo⟩ := hwrites.2 name info rfl
    have hlast : LastRead i data w.log := by
      obtain ⟨before, more, hlog, -, -, hmore⟩ := filter_eq_cons_iff.mp hown
      refine ⟨before, more, hlog, fun d hd => ?_⟩
      have hnone := filter_eq_nil_iff.mp hmore _ hd
      simp [Event.deed?] at hnone
    have hunsaved := unsaved_of_own hown (by simp)
    refine ⟨h.1.concat (fun j n m hj => ?_) (by simp) (by simp), ?_⟩
    · simp only [Event.saved.injEq] at hj
      obtain ⟨rfl, rfl, rfl⟩ := hj
      refine ⟨fun n m hmem => hunsaved ⟨n, m, hmem⟩, hname, ?_⟩
      rw [← h.2, ← hcurrent name info data hfailure rfl hlast]
      exact hinfo
    · rw [replay_concat, ← h.2]
      exact metas_patched hcm
  | @replaced cm data _ => exact absurd rfl (hwrites.1 _ _)

end Orderly

section Runs

variable [DecidableEq ι]

abbrev Requests (ι : Type) := Crowd (World ι) Request Request.Response ι (Except Failure Unit)

/-- The metadata of a folder, whenever it is saved, is what the request read last, and
nothing goes wrong for a request that has saved. -/
def Current (t : Requests ι) : Turn Unit Fault ι → Prop
  | .act _ => True
  | .call i fault =>
    (Saved i t.world → fault.failure = none) ∧
      ∀ name info data, fault.failure = none →
        (t.rest i).request? = some (.patchConfigMap name info) → LastRead i data t.world.log →
          (parseAllFolders data).node name = t.world.metas name

/-- The folders are what the successful requests make of them one after the other. One
that has saved and is not done may be among these, but none that has failed. -/
structure Serial (init : Metas) (edits : ι → Edit) (t : Requests ι) (order : List ι) :
    Prop where
  nodup : order.Nodup
  succeeded : ∀ i, t.rest i = .pure (.ok ()) → i ∈ order
  unfailed : ∀ i x, i ∈ order → t.rest i = .pure (.error x) → x = .hangs
  result : t.world.metas = order.foldl (fun metas i => (edits i).on metas) init

variable {edits : ι → Edit} {t : Requests ι}

open Classical in
/-- A save stands for its client, and so does the read of one that has nothing to save. -/
noncomputable def point (t : Requests ι) : Event ι → Option ι
  | .saved i _ _ => some i
  | .read i _ => if t.rest i = .pure (.ok ()) ∧ ¬ Saved i t.world then some i else none
  | .refused _ => none

omit [DecidableEq ι] in
theorem deed_of_point {e : Event ι} {i : ι} (h : point t e = some i) : e.deed? = some i := by
  cases e with
  | saved j name info => exact h
  | refused j => simp [point] at h
  | read j data =>
    simp only [point] at h
    split at h
    · exact h
    · simp at h

theorem points_le_one {log : List (Event ι)} (h : Orderly init edits log) {i : ι}
    (hread : ∀ data, point t (.read i data) = none) :
    ((mine Event.deed? i log).filterMap (point t)).length ≤ 1 := by
  induction log using List.reverseRecOn with
  | nil => exact Nat.zero_le 1
  | append_singleton log e ih =>
    have hlog := ih (h.of_prefix (prefix_append log [e]))
    by_cases he : e.deed? = some i
    · rw [mine_concat_self he, filterMap_append]
      cases e with
      | refused j => simp [Event.deed?] at he
      | read j data =>
        obtain rfl := some.inj he
        simpa [hread data] using hlog
      | saved j name info =>
        obtain rfl := some.inj he
        have hnone : (mine Event.deed? j log).filterMap (point t) = [] := by
          refine filterMap_eq_nil_iff.mpr fun d hd => ?_
          obtain ⟨hmem, hdeed⟩ := mem_mine.mp hd
          cases d with
          | refused k => rfl
          | read k data =>
            obtain rfl := some.inj hdeed
            exact hread data
          | saved k n m =>
            obtain rfl := some.inj hdeed
            exact absurd hmem ((h.earned log k name info (prefix_refl _)).1 n m)
        rw [hnone]
        simp [point]
    · rwa [mine_concat_of_ne he]

/-- Where the log is orderly, and every client that is done has achieved what it promised,
the points of the log are the order in which the requests take effect. -/
theorem serial_points (h : Recorded init edits t.world)
    (hok : ∀ i, t.rest i = .pure (.ok ()) → Acknowledged (edits i) i t.world)
    (herror : ∀ i x, t.rest i = .pure (.error x) → Failed i x t.world) :
    Serial init edits t (t.world.log.filterMap (point t)) where
  nodup := by
    refine nodup_points (fun e i => deed_of_point) fun i => ?_
    by_cases hidle : t.rest i = .pure (.ok ()) ∧ ¬ Saved i t.world
    · obtain ⟨data, hown, -⟩ := (hok i hidle.1).resolve_left hidle.2
      rw [show mine Event.deed? i t.world.log = [.read i data] from hown]
      exact length_filterMap_le _ _
    · exact points_le_one h.1 fun data => by simp [point, hidle]
  succeeded i hi := by
    by_cases hsaved : Saved i t.world
    · obtain ⟨name, info, hmem⟩ := hsaved
      exact mem_filterMap.mpr ⟨_, hmem, rfl⟩
    · obtain ⟨data, hown, -⟩ := (hok i hi).resolve_left hsaved
      have hmem : Event.read i data ∈ mine Event.deed? i t.world.log := by
        rw [show mine Event.deed? i t.world.log = [.read i data] from hown]
        exact mem_singleton_self _
      exact mem_filterMap.mpr ⟨_, (mem_mine.mp hmem).1, by simp [point, hi, hsaved]⟩
  unfailed i x hi hx := by
    obtain ⟨e, hmem, he⟩ := mem_filterMap.mp hi
    cases e with
    | refused j => simp [point] at he
    | read j data =>
      obtain rfl := some.inj (deed_of_point he)
      simp [point, hx] at he
    | saved j name info =>
      obtain rfl := some.inj he
      obtain hhangs | hunsaved | ⟨before, more, hlog, n, m, hbefore⟩ := herror j x hx
      · exact hhangs
      · exact absurd ⟨name, info, hmem⟩ hunsaved
      · have hpre : before ++ [.refused j] <+: t.world.log := ⟨more, by rw [hlog]; simp⟩
        exact absurd hbefore (h.1.unharmed before j hpre n m)
  result := by
    rw [h.2, replay]
    refine foldl_eq_edits fun before e hpre => ?_
    cases e with
    | refused i => rfl
    | saved i name info =>
      obtain ⟨-, rfl, hinfo⟩ := h.1.earned before i _ info hpre
      simp only [point, Option.elim, Edit.on, store]
      exact congrArg (Function.update _ _) hinfo.symm
    | read i data =>
      have hseen := h.1.seen before i data hpre
      simp only [point, store]
      split
      · next hidle =>
        obtain ⟨data', hown, hsame⟩ := (hok i hidle.1).resolve_left hidle.2
        have hmem : Event.read i data ∈ mine Event.deed? i t.world.log :=
          mem_mine.mpr ⟨hpre.subset (by simp), rfl⟩
        rw [show mine Event.deed? i t.world.log = [.read i data'] from hown,
          mem_singleton, Event.read.injEq] at hmem
        obtain ⟨-, rfl⟩ := hmem
        rw [hseen] at hsame
        have hon : (edits i).on (replay init before) = replay init before := by
          rw [Edit.on, hsame, Function.update_eq_self]
        exact hon.symm
      · rfl

end Runs

/-- A grant of that name is kept. -/
def Meta.Holds (info : Meta) (bindingId : String) : Prop :=
  ∃ entry ∈ info.accessEntries, entry.bindingName = bindingId

/-- The folder is there, and keeps a grant of that name. -/
def HasGrant (metas : Metas) (name bindingId : String) : Prop :=
  ∃ info, metas name = some info ∧ info.Holds bindingId

/-- The request grants access to the whole folder, under that name. -/
def Edit.Grants (e : Edit) (name bindingId : String) : Prop :=
  ∃ access, e = .grant name access ∧ access.scope = .folder ∧ access.bindingName = bindingId

section Grants

variable {e : Edit} {metas : Metas} {name bindingId : String} {info : Meta}

theorem holds_grant (access : AddFolderAccessRequest) : (access.apply info).Holds bindingId ↔
      info.Holds bindingId ∨ access.bindingName = bindingId := by
  rw [AddFolderAccessRequest.apply]
  split
  · next hany =>
    refine ⟨.inl, fun h => h.elim id ?_⟩
    rintro rfl
    simpa [Meta.Holds] using hany
  · simp only [Meta.Holds, mem_append, mem_singleton, or_and_right, exists_or, exists_eq_left]
    rfl

theorem holds_withoutBinding (removed : String) : (withoutBinding removed info).Holds bindingId ↔
      info.Holds bindingId ∧ removed ≠ bindingId := by
  simp only [Meta.Holds, withoutBinding, mem_filter, decide_eq_true_eq]
  constructor
  · rintro ⟨entry, ⟨hmem, hne⟩, rfl⟩
    exact ⟨⟨entry, hmem, rfl⟩, Ne.symm hne⟩
  · rintro ⟨⟨entry, hmem, rfl⟩, hne⟩
    exact ⟨entry, ⟨hmem, Ne.symm hne⟩, rfl⟩

theorem holds_apply : (e.apply info).Holds bindingId ↔
    info.Holds bindingId ∧ e ≠ .revoke e.name bindingId ∨ e.Grants e.name bindingId := by
  cases e with
  | update name request => simp [Edit.apply, Edit.Grants, FolderUpdateRequest.apply, Meta.Holds]
  | patchAccess name patch =>
    simp [Edit.apply, Edit.Grants, FolderAccessPatchRequest.apply, Meta.Holds]
  | revoke name removed =>
    simp [Edit.apply, Edit.Grants, Edit.name, holds_withoutBinding]
  | grant name access =>
    cases hscope : access.scope with
    | folder => simp [Edit.apply, Edit.Grants, Edit.name, hscope, holds_grant]
    | environment env => simp [Edit.apply, Edit.Grants, Edit.name, hscope]

theorem isSome_on : (e.on metas name).isSome = (metas name).isSome := by
  by_cases h : name = e.name
  · subst h
    rw [Edit.on, Function.update_self, isSome_map]
  · rw [Edit.on, Function.update_of_ne h]

theorem hasGrant_on : HasGrant (e.on metas) name bindingId ↔
    HasGrant metas name bindingId ∧ e ≠ .revoke name bindingId ∨
      e.Grants name bindingId ∧ (metas name).isSome := by
  by_cases h : name = e.name
  · subst h
    rw [HasGrant, Edit.on, Function.update_self]
    cases hinfo : metas e.name with
    | none => simp [HasGrant, hinfo]
    | some info => simp [HasGrant, hinfo, holds_apply]
  · have hrevoke : e ≠ .revoke name bindingId := by
      rintro rfl
      exact h rfl
    have hgrants : ¬ e.Grants name bindingId := by
      rintro ⟨access, rfl, -⟩
      exact h rfl
    rw [HasGrant, Edit.on, Function.update_of_ne h]
    simp [HasGrant, hrevoke, hgrants]

variable {ι : Type} {edits : ι → Edit} {pre post : List ι} {i : ι}

/-- What the edits make of the folders. -/
abbrev inOrder (edits : ι → Edit) (metas : Metas) (order : List ι) : Metas :=
  order.foldl (fun metas i => (edits i).on metas) metas

theorem isSome_inOrder (order : List ι) :
    (inOrder edits metas order name).isSome = (metas name).isSome := by
  induction order generalizing metas with
  | nil => rfl
  | cons i order ih => exact ih.trans isSome_on

theorem hasGrant_inOrder (hi : (edits i).Grants name bindingId) (hthere : (metas name).isSome)
    (hpost : ∀ j ∈ post, edits j ≠ .revoke name bindingId) :
    HasGrant (inOrder edits metas (pre ++ i :: post)) name bindingId := by
  have hkeep (m : Metas) (hm : HasGrant m name bindingId) :
      HasGrant (inOrder edits m post) name bindingId := by
    induction post generalizing m with
    | nil => exact hm
    | cons j post ih =>
      refine ih (fun k hk => hpost k (mem_cons_of_mem j hk)) _ ?_
      exact hasGrant_on.mpr (.inl ⟨hm, hpost j mem_cons_self⟩)
  rw [inOrder, foldl_append]
  refine hkeep _ (hasGrant_on.mpr (.inr ⟨hi, ?_⟩))
  exact (isSome_inOrder pre).trans hthere

theorem not_hasGrant_inOrder (hi : edits i = .revoke name bindingId)
    (hpost : ∀ j ∈ post, ¬ (edits j).Grants name bindingId) :
    ¬ HasGrant (inOrder edits metas (pre ++ i :: post)) name bindingId := by
  have hkeep (m : Metas) (hm : ¬ HasGrant m name bindingId) :
      ¬ HasGrant (inOrder edits m post) name bindingId := by
    induction post generalizing m with
    | nil => exact hm
    | cons j post ih =>
      refine ih (fun k hk => hpost k (mem_cons_of_mem j hk)) _ fun h => ?_
      obtain ⟨h, -⟩ | ⟨h, -⟩ := hasGrant_on.mp h
      · exact hm h
      · exact hpost j mem_cons_self h
  rw [inOrder, foldl_append]
  refine hkeep _ fun h => ?_
  obtain ⟨-, h⟩ | ⟨⟨access, h, -⟩, -⟩ := hasGrant_on.mp h
  · exact h hi
  · rw [hi] at h
    exact absurd h (by simp)

end Grants

section Runs

variable [DecidableEq ι]

/-- Where every save finds what its request has read, and nothing goes wrong for a request
that has saved, the requests that succeed take effect one after the other: no grant is
lost, and none comes back. -/
theorem no_lost_update (s : Snapshot) (edits : ι → Edit) {t : Requests ι}
    (h : Crowd.Run serve act Current (start s fun i => .edit (edits i)) t) :
    ∃ order, Serial (s.world : World ι).metas edits t order ∧
      (∀ pre i post name bindingId, order = pre ++ i :: post →
        (edits i).Grants name bindingId → ((s.world : World ι).metas name).isSome →
        (∀ j ∈ post, edits j ≠ .revoke name bindingId) →
          HasGrant t.world.metas name bindingId) ∧
      ∀ pre i post name bindingId, order = pre ++ i :: post →
        edits i = .revoke name bindingId → (∀ j ∈ post, ¬ (edits j).Grants name bindingId) →
          ¬ HasGrant t.world.metas name bindingId := by
  have hlegal : Crowd.Legal (fun _ => True) Undisturbed (fun i => Writes (edits i) i)
      (fun i => outcome (fun _ => Acknowledged (edits i) i) (Failed i)) serve
      (start s fun i => .edit (edits i)) :=
    ⟨trivial, fun i => edits_program (edits i) s.world trivial rfl⟩
  obtain ⟨hlegal, hrecorded⟩ := Crowd.Run.invariant
    (P := Recorded (s.world : World ι).metas edits)
    (fun i w => ⟨Extends.refl i w.log, fun _ hw => hw⟩) (fun _ _ _ _ _ => trivial)
    (fun t a _ _ hP => ⟨trivial, fun i => undisturbed_act i a t.world, hP.act a⟩)
    (fun t i fault r k hcond hrest _ hP hwrites => by
      have heffect := effect_serve i fault t.world r
      refine ⟨fun j hji => heffect.undisturbed hwrites hji, hP.effect heffect hwrites hcond.1 ?_⟩
      rintro name info data hfailure rfl hlast
      exact hcond.2 name info data hfailure (by rw [hrest]; rfl) hlast)
    hlegal ⟨orderly_nil, rfl⟩ h
  have hserial := serial_points hrecorded (fun i hi => hlegal.returned hi)
    fun i x hi => hlegal.returned hi
  refine ⟨_, hserial, ?_, ?_⟩
  · intro pre i post name bindingId horder hi hthere hpost
    rw [hserial.result, horder]
    exact hasGrant_inOrder hi hthere hpost
  · intro pre i post name bindingId horder hi hpost
    rw [hserial.result, horder]
    exact not_hasGrant_inOrder hi hpost

/-- A folder at the root. -/
def single : Snapshot where
  clock := 1
  configMap := some ⟨1, AList.insert "a" (some {}) ∅⟩
  timely := fun _ hcm => (some.inj hcm) ▸ Nat.le_refl 1

def viewer (name : String) : AddFolderAccessRequest := ⟨"user", name, "viewer", .folder⟩

/-- Two users are granted access to it. -/
def both (second : Bool) : Edit := .grant "a" (viewer (if second then "bob" else "alice"))

omit [DecidableEq ι] in
theorem lastRead_concat {i : ι} {data found : Data} {log : List (Event ι)}
    (h : LastRead i data (log ++ [.read i found])) : data = found := by
  obtain ⟨before, more, heq, hmore⟩ := h
  obtain rfl | ⟨rest, e, rfl⟩ := eq_nil_or_concat more
  · obtain ⟨-, hlast⟩ := append_inj' heq rfl
    exact (Event.read.inj (List.cons.inj hlast).1).2.symm
  · rw [concat_eq_append, ← cons_append, ← append_assoc] at heq
    obtain ⟨-, hlast⟩ := append_inj' heq rfl
    exact absurd (by simp [← List.cons.inj hlast]) (hmore found)

omit [DecidableEq ι] in
theorem current_of_read {t : Requests ι} {i : ι}
    (h : (t.rest i).request? = some .readConfigMap) : Current t (.call i {}) := by
  refine ⟨fun _ => rfl, fun name info data _ hrequest _ => ?_⟩
  rw [h] at hrequest
  exact absurd (some.inj hrequest) (by simp)

/-- One reads and saves after the other has, with a write by others in between. -/
def grantsInTurn : List (Turn Unit Fault Bool) :=
  [.call false {}, .act (), .call false {}, .call true {}, .call true {}]

theorem no_lost_update_both : ∃ t,
    Crowd.play serve act (start single fun i => .edit (both i)) grantsInTurn = some t ∧
      (∀ i, t.rest i = .pure (.ok ())) ∧ HasGrant t.world.metas "a" "user-alice-viewer" ∧
        HasGrant t.world.metas "a" "user-bob-viewer" := by
  obtain ⟨t, hplay, hrun, hdone⟩ : ∃ t, Crowd.play serve act
      (start single fun i => .edit (both i)) grantsInTurn = some t ∧
        Crowd.Run serve act Current (start single fun i => .edit (both i)) t ∧
          ∀ i, t.rest i = .pure (.ok ()) := by
    have hread : Crowd.Run serve act Current (start single fun i => .edit (both i)) _ :=
      .step .refl (current_of_read rfl) (rfl : Crowd.next serve act _ (.call false {}) = some _)
    have htouched := hread.step (show Current _ (.act ()) from trivial)
      (rfl : Crowd.next serve act _ (.act ()) = some _)
    have hsaved := htouched.step (by
      refine ⟨fun _ => rfl, fun name info data _ hrequest hlast => ?_⟩
      cases some.inj hrequest
      obtain rfl := lastRead_concat (show LastRead _ _ ([] ++ _) from hlast)
      rfl) (rfl : Crowd.next serve act _ (.call false {}) = some _)
    have hread' := hsaved.step (current_of_read rfl)
      (rfl : Crowd.next serve act _ (.call true {}) = some _)
    have hsaved' := hread'.step (by
      refine ⟨fun _ => rfl, fun name info data _ hrequest hlast => ?_⟩
      cases some.inj hrequest
      obtain rfl := lastRead_concat (show LastRead _ _ ([_, _] ++ _) from hlast)
      rfl) (rfl : Crowd.next serve act _ (.call true {}) = some _)
    exact ⟨_, rfl, hsaved', fun i => by cases i <;> rfl⟩
  obtain ⟨order, hserial, hgrant, -⟩ := no_lost_update single both hrun
  have hstands (i : Bool) (bindingId : String) (hi : (both i).Grants "a" bindingId) :
      HasGrant t.world.metas "a" bindingId := by
    obtain ⟨pre, post, horder⟩ := mem_iff_append.mp (hserial.succeeded i (hdone i))
    exact hgrant pre i post "a" bindingId horder hi rfl fun j _ => by simp [both]
  exact ⟨t, hplay, hdone, hstands false _ ⟨_, rfl, rfl, rfl⟩, hstands true _ ⟨_, rfl, rfl, rfl⟩⟩

/-- Both read before either saves. -/
def crossedGrants : List (Turn Unit Fault Bool) :=
  [.call false {}, .call true {}, .call false {}, .call true {}]

theorem not_no_lost_update : ∃ t,
    Crowd.play serve act (start single fun i => .edit (both i)) crossedGrants = some t ∧
      (∀ i, t.rest i = .pure (.ok ())) ∧
      ∀ order, ¬ Serial (single.world : World Bool).metas both t order := by
  obtain ⟨t, hplay, hdone, hmetas⟩ : ∃ t, Crowd.play serve act
      (start single fun i => .edit (both i)) crossedGrants = some t ∧
        (∀ i, t.rest i = .pure (.ok ())) ∧
          t.world.metas "a" = some { accessEntries := [(viewer "bob").entry] } :=
    ⟨_, rfl, fun i => by cases i <;> rfl, rfl⟩
  refine ⟨t, hplay, hdone, fun order hserial => ?_⟩
  obtain ⟨pre, post, rfl⟩ := mem_iff_append.mp (hserial.succeeded false (hdone false))
  have hgrant : HasGrant t.world.metas "a" "user-alice-viewer" := by
    rw [hserial.result]
    exact hasGrant_inOrder ⟨_, rfl, rfl, rfl⟩ rfl fun j _ => by simp [both]
  obtain ⟨info, hinfo, entry, hentry, hname⟩ := hgrant
  obtain rfl := mem_unique hmetas hinfo
  obtain rfl := mem_singleton.mp hentry
  exact absurd hname (by decide)

end Runs

end Folders
