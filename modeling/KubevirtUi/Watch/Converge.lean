import KubevirtUi.Library.Machine
import KubevirtUi.Watch.Cache
import Mathlib.Data.List.Induction

/-!
# Where the cache converges

The entries show a version of the server: under each key the projection of the object that
has it, where there is one. A stream that starts from the version of the cache carries them
from each version to the next.

Two things break this: a LIST that does not answer once the version is given up, for the
next watch starts from whatever is there and does not tell what is gone; and a projection
that raises for an object that has an entry.
-/

namespace Watch

open List AList
open Option hiding map_map

variable {β τ : Type} {keyFunc : KeyFunc} {project : Resource β → Option τ}

section Entries

variable (keyFunc project) in
/-- Under each key stands the projection of the object that has it. -/
def Shows (entries : AList fun _ : String => τ) (objects : Objects β) : Prop :=
  ∀ key value, entries.lookup key = some value ↔
    ∃ id obj, objects.lookup id = some obj ∧ keyFunc.key id = key ∧ project obj = some value

/-- What is held under an identity has it. -/
def Objects.Named (objects : Objects β) : Prop :=
  ∀ id obj, objects.lookup id = some obj → obj.id = id

variable {entries : AList fun _ : String => τ} {objects : Objects β} {obj : Resource β}

theorem lookup_enter (entries : AList fun _ : String => τ) (obj : Resource β) (key : String) :
    (enter keyFunc project entries obj).lookup key =
      if keyFunc.key obj.id = key then (project obj).or (entries.lookup key)
      else entries.lookup key := by
  unfold enter
  cases hproject : project obj with
  | none => simp
  | some value =>
    by_cases hkey : keyFunc.key obj.id = key
    · subst hkey
      simp
    · rw [if_neg hkey]
      exact lookup_insert_ne (Ne.symm hkey)

theorem lookup_foldl_enter {items : List (Resource β)} (hnodup : (items.map Resource.id).Nodup)
    (key : String) (value : τ) : (items.foldl (enter keyFunc project) ∅).lookup key = some value ↔
      ∃ obj ∈ items, keyFunc.key obj.id = key ∧ project obj = some value := by
  induction items using List.reverseRecOn generalizing value with
  | nil => simp
  | append_singleton items last ih =>
    rw [map_append, nodup_append] at hnodup
    obtain ⟨hitems, -, hlast⟩ := hnodup
    rw [foldl_append, foldl_cons, foldl_nil, lookup_enter]
    by_cases hkey : keyFunc.key last.id = key
    · have hfirst : ∀ obj ∈ items, keyFunc.key obj.id ≠ key := fun obj hobj heq =>
        hlast obj.id (mem_map_of_mem hobj) last.id (by simp)
          (keyFunc.injective (heq.trans hkey.symm))
      have hnone : (items.foldl (enter keyFunc project) ∅).lookup key = none := by
        rw [eq_none_iff_forall_ne_some]
        intro other hother
        obtain ⟨obj, hobj, heq, -⟩ := (ih hitems other).mp hother
        exact hfirst obj hobj heq
      rw [if_pos hkey, hnone, or_none]
      constructor
      · exact fun h => ⟨last, by simp, hkey, h⟩
      · rintro ⟨obj, hobj, heq, h⟩
        obtain hobj | hobj := mem_append.mp hobj
        · exact absurd heq (hfirst obj hobj)
        · rwa [← mem_singleton.mp hobj]
    · rw [if_neg hkey, ih hitems]
      constructor
      · rintro ⟨obj, hobj, heq, h⟩
        exact ⟨obj, mem_append_left _ hobj, heq, h⟩
      · rintro ⟨obj, hobj, heq, h⟩
        obtain hobj | hobj := mem_append.mp hobj
        · exact ⟨obj, hobj, heq, h⟩
        · exact absurd (mem_singleton.mp hobj ▸ heq) hkey

theorem mem_items : obj ∈ objects.items ↔ ∃ id, objects.lookup id = some obj := by
  simp only [Objects.items, List.mem_map, Sigma.exists, exists_eq_right]
  exact exists_congr fun id => mem_lookup_iff.symm

theorem Objects.Named.nodup (h : objects.Named) : (objects.items.map Resource.id).Nodup := by
  have hkeys : objects.items.map Resource.id = objects.keys := by
    rw [Objects.items, map_map, AList.keys, List.keys]
    refine map_congr_left fun entry hentry => ?_
    exact h entry.1 entry.2 (mem_lookup_iff.mpr hentry)
  rw [hkeys]
  exact objects.keys_nodup

theorem shows_initialList (h : objects.Named) :
    Shows keyFunc project (objects.items.foldl (enter keyFunc project) ∅) objects := by
  intro key value
  rw [lookup_foldl_enter h.nodup]
  constructor
  · rintro ⟨obj, hobj, hkey, hvalue⟩
    obtain ⟨id, hid⟩ := mem_items.mp hobj
    exact ⟨id, obj, hid, h id obj hid ▸ hkey, hvalue⟩
  · rintro ⟨id, obj, hid, hkey, hvalue⟩
    exact ⟨obj, mem_items.mpr ⟨id, hid⟩, (h id obj hid).symm ▸ hkey, hvalue⟩

theorem Shows.entered (h : Shows keyFunc project entries objects)
    (hraise : project obj = none → keyFunc.key obj.id ∉ entries) :
    Shows keyFunc project (enter keyFunc project entries obj)
      (objects.insert obj.id obj) := by
  intro key value
  rw [lookup_enter]
  by_cases hkey : keyFunc.key obj.id = key
  · have hself : (∃ id obj', (objects.insert obj.id obj).lookup id = some obj' ∧
        keyFunc.key id = key ∧ project obj' = some value) ↔ project obj = some value := by
      constructor
      · rintro ⟨id, obj', hid, hkey', hvalue⟩
        obtain rfl := keyFunc.injective (hkey'.trans hkey.symm)
        rw [lookup_insert] at hid
        cases hid
        exact hvalue
      · exact fun hvalue => ⟨obj.id, obj, lookup_insert objects, hkey, hvalue⟩
    rw [if_pos hkey, hself]
    cases hproject : project obj with
    | none =>
      have hnone : entries.lookup key = none :=
        lookup_eq_none.mpr (hkey ▸ hraise hproject)
      simp [hnone]
    | some other => simp
  · rw [if_neg hkey, h key value]
    refine exists_congr fun id => exists_congr fun obj' => ?_
    by_cases hid : id = obj.id
    · subst hid
      simp [hkey]
    · rw [lookup_insert_ne hid]

theorem Shows.erased (h : Shows keyFunc project entries objects) (id : Identity) :
    Shows keyFunc project (entries.erase (keyFunc.key id)) (objects.erase id) := by
  intro key value
  by_cases hkey : keyFunc.key id = key
  · subst hkey
    rw [lookup_erase]
    constructor
    · intro hvalue
      contradiction
    · rintro ⟨other, obj, hother, hkey, -⟩
      obtain rfl := keyFunc.injective hkey
      rw [lookup_erase] at hother
      contradiction
  · rw [lookup_erase_ne (Ne.symm hkey), h key value]
    refine exists_congr fun other => exists_congr fun obj => ?_
    by_cases hother : other = id
    · subst hother
      simp [hkey]
    · rw [lookup_erase_ne hother]

end Entries

section Events

variable {objects : Objects β} {history : History β} {change : Change β} {cache : Cache τ}
  {event : Event β} {version : Nat}

theorem Objects.Named.apply (h : objects.Named) (version : Nat) (change : Change β) :
    (change.apply version objects).Named := by
  intro other obj hobj
  cases change with
  | put id rest =>
    by_cases hid : other = id
    · subst hid
      rw [Change.apply, lookup_insert] at hobj
      cases hobj
      rfl
    · rw [Change.apply, lookup_insert_ne hid] at hobj
      exact h other obj hobj
  | delete id =>
    by_cases hid : other = id
    · subst hid
      rw [Change.apply, lookup_erase] at hobj
      contradiction
    · rw [Change.apply, lookup_erase_ne hid] at hobj
      exact h other obj hobj
  | other => exact h other obj hobj

theorem named_objectsAt (history : History β) (version : Nat) :
    (history.objectsAt version).Named := by
  induction version with
  | zero =>
    intro id obj hobj
    contradiction
  | succ version ih =>
    cases hentry : history[version]? with
    | none =>
      have hsame : history.objectsAt (version + 1) = history.objectsAt version := by
        rw [History.objectsAt, Replay.upto, hentry]
        rfl
      rwa [hsame]
    | some change =>
      have hnext : history.objectsAt (version + 1) =
          change.apply (version + 1) (history.objectsAt version) := Replay.upto_succ hentry
      rw [hnext]
      exact ih.apply (version + 1) change

theorem apply_of_event?_eq_none (h : change.event? version objects = none) :
    change.apply version objects = objects := by
  cases change with
  | put id rest =>
    rw [Change.event?] at h
    split at h <;> contradiction
  | delete id =>
    have hnone : objects.lookup id = none := map_eq_none_iff.mp h
    refine AList.ext ?_
    exact kerase_of_notMem_keys (lookup_eq_none.mp hnone)
  | other => rfl

variable (keyFunc project) in
/-- The projection raises for an object that has an entry. -/
def Event.isStuck (entries : AList fun _ : String => τ) : Event β → Bool
  | .added obj => (project obj).isNone && (entries.lookup (keyFunc.key obj.id)).isSome
  | .modified obj => (project obj).isNone && (entries.lookup (keyFunc.key obj.id)).isSome
  | _ => false

theorem resourceVersion_consume (h : change.event? version objects = some event) :
    (cache.consume keyFunc project event).resourceVersion = some version := by
  cases change with
  | put id rest =>
    rw [Change.event?] at h
    split at h <;> cases h <;> rfl
  | delete id =>
    obtain ⟨obj, -, rfl⟩ := map_eq_some_iff.mp h
    rfl
  | other => contradiction

theorem Shows.consumed (h : Shows keyFunc project cache.entries objects) (hnamed : objects.Named)
    (hevent : change.event? version objects = some event)
    (hstuck : event.isStuck keyFunc project cache.entries = false) :
    Shows keyFunc project (cache.consume keyFunc project event).entries
      (change.apply version objects) := by
  cases change with
  | put id rest =>
    have hentered (hraise : ((project ⟨id, some version, rest⟩).isNone &&
        (cache.entries.lookup (keyFunc.key id)).isSome) = false) :
        Shows keyFunc project (enter keyFunc project cache.entries ⟨id, some version, rest⟩)
          (objects.insert id ⟨id, some version, rest⟩) := by
      refine h.entered fun hnone => ?_
      rw [hnone] at hraise
      exact lookup_eq_none.mp (by simpa using hraise)
    rw [Change.event?] at hevent
    split at hevent <;> cases hevent <;> exact hentered hstuck
  | delete id =>
    obtain ⟨obj, hobj, rfl⟩ := map_eq_some_iff.mp hevent
    obtain rfl := hnamed id obj hobj
    exact h.erased obj.id
  | other => contradiction

end Events

section Runs

variable {s t : System β τ}

/-- No change from the version on is an event. -/
def Quiet (history : History β) (version : Nat) : Prop :=
  ∀ i change, version ≤ i → history[i]? = some change →
    change.event? (i + 1) (history.objectsAt i) = none

/-- Every event there is has been consumed: of the stream that is open, or of the one that
would be opened from the version of the cache. -/
def Consumed (s : System β τ) : Prop :=
  match s.phase with
  | .streaming stream => stream.backlog = [] ∧ Quiet s.history stream.position
  | _ => ∃ version, s.cache.resourceVersion = some version ∧ Quiet s.history version

theorem quiet_of_length_le {history : History β} {version : Nat} (h : history.length ≤ version) :
    Quiet history version := fun i change hi hchange => by
  have hlt := (List.getElem?_eq_some_iff.mp hchange).1
  omega

theorem objectsAt_of_quiet {history : History β} {version : Nat} (h : Quiet history version)
    (hle : version ≤ history.length) :
    history.objectsAt history.length = history.objectsAt version :=
  Replay.upto_eq_of_idle hle fun i change hi hchange =>
    apply_of_event?_eq_none (h i change hi hchange)

variable (keyFunc project) in
/-- No LIST that is owed fails, and no projection raises for an object that has an entry. -/
def smooth (s : System β τ) : Action β → Bool
  | .deliver =>
    match s.phase with
    | .streaming stream => !(stream.next s.history).any fun (event, _) =>
      event.any (·.isStuck keyFunc project s.cache.entries)
    | _ => true
  | .relist answer => answer.isOk
  | _ => true

variable (keyFunc project) in
/-- The entries show a version, and the version of the cache is as good. -/
structure Tracks (s : System β τ) (version : Nat) : Prop where
  le : version ≤ s.history.length
  shows : Shows keyFunc project s.cache.entries (s.history.objectsAt version)
  resumes : ∃ v ≤ version, s.cache.resourceVersion = some v ∧
    s.history.objectsAt v = s.history.objectsAt version

variable (keyFunc project) in
/-- What holds in each phase. -/
def Inv (s : System β τ) : Prop :=
  match s.phase with
  | .idle => s.cache.ready = false
  | .connecting => s.owesList = false ∧ ∃ version, Tracks keyFunc project s version
  | .finished => s.owesList = false ∧ ∃ version, Tracks keyFunc project s version
  | .streaming stream =>
    s.owesList = false ∧ stream.backlog = [] ∧ Tracks keyFunc project s stream.position
  | .relisting => s.cache.resourceVersion = none

theorem Tracks.change {version : Nat} (h : Tracks keyFunc project s version) (change : Change β) :
    Tracks keyFunc project { s with history := s.history ++ [change] } version := by
  obtain ⟨v, hle, hversion, hsame⟩ := h.resumes
  have hkeep {n : Nat} (hn : n ≤ version) :
      History.objectsAt (s.history ++ [change]) n = s.history.objectsAt n :=
    Replay.upto_append (Nat.le_trans hn h.le) [change]
  refine ⟨?_, ?_, v, hle, hversion, ?_⟩
  · exact Nat.le_trans h.le (by simp)
  · rw [hkeep (Nat.le_refl version)]
    exact h.shows
  · rw [hkeep hle, hkeep (Nat.le_refl version)]
    exact hsame

theorem Tracks.resume {version : Nat} (h : Tracks keyFunc project s version) :
    ∃ v, s.cache.resourceVersion = some v ∧ Tracks keyFunc project s v := by
  obtain ⟨v, hle, hversion, hsame⟩ := h.resumes
  refine ⟨v, hversion, Nat.le_trans hle h.le, ?_, v, Nat.le_refl v, hversion, rfl⟩
  rw [hsame]
  exact h.shows

theorem tracks_listed {version : Nat} (phase : Phase β) (h : version ≤ s.history.length) :
    Tracks keyFunc project (s.listed keyFunc project version phase) version :=
  ⟨h, shows_initialList (named_objectsAt s.history version), version, Nat.le_refl version, rfl, rfl⟩

theorem Tracks.deliver {position : Nat} {change : Change β}
    (h : Tracks keyFunc project s position) (hchange : s.history[position]? = some change)
    (hstuck : (change.event? (position + 1) (s.history.objectsAt position)).any
      (·.isStuck keyFunc project s.cache.entries) = false) (phase : Phase β) :
    Tracks keyFunc project
      { s with
        cache := (change.event? (position + 1) (s.history.objectsAt position)).elim s.cache
          (s.cache.consume keyFunc project ·)
        phase } (position + 1) := by
  have hlt : position < s.history.length := (List.getElem?_eq_some_iff.mp hchange).1
  have hnext : s.history.objectsAt (position + 1) =
      change.apply (position + 1) (s.history.objectsAt position) := Replay.upto_succ hchange
  cases hevent : change.event? (position + 1) (s.history.objectsAt position) with
  | none =>
    rw [apply_of_event?_eq_none hevent] at hnext
    obtain ⟨v, hle, hversion, hsame⟩ := h.resumes
    refine ⟨hlt, ?_, v, Nat.le_succ_of_le hle, hversion, hsame.trans hnext.symm⟩
    change Shows keyFunc project s.cache.entries (s.history.objectsAt (position + 1))
    rw [hnext]
    exact h.shows
  | some event =>
    rw [hevent] at hstuck
    refine ⟨hlt, ?_, position + 1, Nat.le_refl _, resourceVersion_consume hevent, rfl⟩
    change Shows keyFunc project (s.cache.consume keyFunc project event).entries
      (s.history.objectsAt (position + 1))
    rw [hnext]
    exact h.shows.consumed (named_objectsAt s.history position) hevent hstuck

theorem inv_except {version : Nat} (h : Tracks keyFunc project s version)
    (howes : s.owesList = false) (failure : Failure) : Inv keyFunc project (s.except failure) := by
  cases failure with
  | api status reason =>
    by_cases hstatus : status = 410
    · simp [System.except, hstatus, Inv]
    · rw [System.except, if_neg hstatus]
      exact ⟨howes, version, h.le, h.shows, h.resumes⟩
  | other repr => exact ⟨howes, version, h.le, h.shows, h.resumes⟩

theorem Inv.step {action : Action β} (h : Inv keyFunc project s)
    (hsmooth : smooth keyFunc project s action = true)
    (hstep : s.step keyFunc project action = some t) : Inv keyFunc project t := by
  obtain ⟨history, cache, phase, stopped, backoff, owesList⟩ := s
  cases action with
  | change change =>
    cases hstep
    cases phase with
    | idle => exact h
    | connecting =>
      obtain ⟨howes, version, htracks⟩ := h
      exact ⟨howes, version, htracks.change change⟩
    | streaming stream =>
      obtain ⟨howes, hbacklog, htracks⟩ := h
      exact ⟨howes, hbacklog, htracks.change change⟩
    | relisting => exact h
    | finished =>
      obtain ⟨howes, version, htracks⟩ := h
      exact ⟨howes, version, htracks.change change⟩
  | start answer =>
    cases phase with
    | idle =>
      cases answer with
      | error text =>
        cases hstep
        exact h
      | ok version =>
        obtain ⟨hle, hstep⟩ := ite_none_right_eq_some.mp hstep
        cases hstep
        cases stopped with
        | false => exact ⟨rfl, version, tracks_listed .connecting hle⟩
        | true => exact ⟨rfl, version, tracks_listed .finished hle⟩
    | _ =>
      cases hstep
      exact h
  | stop =>
    cases hstep
    rfl
  | connect =>
    cases phase with
    | connecting =>
      cases hstep
      obtain ⟨howes, version, htracks⟩ := h
      obtain ⟨v, hversion, hopened⟩ := htracks.resume
      have hversion : cache.resourceVersion = some v := hversion
      change owesList = false ∧ (watch history cache.resourceVersion).backlog = [] ∧
        Tracks keyFunc project _ (watch history cache.resourceVersion).position
      rw [hversion]
      exact ⟨howes, rfl, hopened.le, hopened.shows, hopened.resumes⟩
    | _ => contradiction
  | deliver =>
    cases phase with
    | streaming stream =>
      obtain ⟨howes, hbacklog, htracks⟩ := h
      obtain ⟨backlog, position⟩ := stream
      obtain rfl : backlog = [] := hbacklog
      obtain ⟨⟨event, rest⟩, hnext, hresult⟩ := map_eq_some_iff.mp hstep
      obtain ⟨change, hchange, hpair⟩ := map_eq_some_iff.mp hnext
      cases hpair
      cases hresult
      refine ⟨howes, rfl, htracks.deliver hchange ?_ _⟩
      simpa [smooth, hnext] using hsmooth
    | _ => contradiction
  | bookmark =>
    cases phase with
    | streaming stream =>
      obtain ⟨howes, hbacklog, htracks⟩ := h
      obtain ⟨backlog, position⟩ := stream
      obtain rfl : backlog = [] := hbacklog
      cases hstep
      exact ⟨howes, rfl, htracks.le, htracks.shows, position, Nat.le_refl position, rfl, rfl⟩
    | _ => contradiction
  | error code reason =>
    cases phase with
    | streaming stream =>
      obtain ⟨howes, hbacklog, htracks⟩ := h
      cases hstep
      exact inv_except htracks howes (.api code reason)
    | _ => contradiction
  | ending =>
    cases phase with
    | streaming stream =>
      obtain ⟨howes, hbacklog, htracks⟩ := h
      cases hstep
      exact ⟨howes, stream.position, htracks.le, htracks.shows, htracks.resumes⟩
    | _ => contradiction
  | fail failure =>
    cases phase with
    | connecting =>
      obtain ⟨howes, version, htracks⟩ := h
      cases hstep
      exact inv_except htracks howes failure
    | streaming stream =>
      obtain ⟨howes, hbacklog, htracks⟩ := h
      cases hstep
      exact inv_except htracks howes failure
    | _ => contradiction
  | relist answer =>
    cases phase with
    | relisting =>
      cases answer with
      | error text => simp [smooth, Except.isOk, Except.toBool] at hsmooth
      | ok version =>
        obtain ⟨hle, hstep⟩ := ite_none_right_eq_some.mp hstep
        cases hstep
        exact ⟨rfl, version, tracks_listed .connecting hle⟩
    | _ => contradiction

theorem Inv.of_run (h : Machine.Run (System.step keyFunc project)
    (fun s action => smooth keyFunc project s action = true) {} s) : Inv keyFunc project s := by
  have hstart : Inv keyFunc project ({} : System β τ) := rfl
  exact h.invariant hstart fun hinv hsmooth hstep => hinv.step hsmooth hstep

theorem Tracks.converged {version : Nat} (h : Tracks keyFunc project s version)
    (hquiet : Quiet s.history version) :
    Shows keyFunc project s.cache.entries (s.history.objectsAt s.history.length) := by
  rw [objectsAt_of_quiet hquiet h.le]
  exact h.shows

theorem Tracks.converged_of_version {version : Nat} (h : Tracks keyFunc project s version)
    (hconsumed : ∃ v, s.cache.resourceVersion = some v ∧ Quiet s.history v) :
    Shows keyFunc project s.cache.entries (s.history.objectsAt s.history.length) := by
  obtain ⟨v, hversion, hquiet⟩ := hconsumed
  obtain ⟨v', hversion', htracks⟩ := h.resume
  obtain rfl : v = v' := mem_unique hversion hversion'
  exact htracks.converged hquiet

theorem Inv.converged (h : Inv keyFunc project s) (hready : s.cache.ready = true)
    (hconsumed : Consumed s) :
    Shows keyFunc project s.cache.entries (s.history.objectsAt s.history.length) := by
  obtain ⟨history, cache, phase, stopped, backoff, owesList⟩ := s
  cases phase with
  | idle =>
    have hnot : cache.ready = false := h
    simp [hnot] at hready
  | connecting =>
    obtain ⟨-, version, htracks⟩ := h
    exact htracks.converged_of_version hconsumed
  | streaming stream =>
    obtain ⟨-, -, htracks⟩ := h
    exact htracks.converged hconsumed.2
  | relisting =>
    have hnone : cache.resourceVersion = none := h
    obtain ⟨v, hversion, -⟩ := hconsumed
    simp [hnone] at hversion
  | finished =>
    obtain ⟨-, version, htracks⟩ := h
    exact htracks.converged_of_version hconsumed

/-- Whenever a cache that is ready has consumed what there is, its entries are the
projections of the objects that are held, and no watch is made while a LIST is owed. -/
theorem watch_converges (keyFunc : KeyFunc) (project : Resource β → Option τ) {s : System β τ}
    (h : Machine.Run (System.step keyFunc project)
      (fun s action => smooth keyFunc project s action = true) {} s) :
    (s.cache.ready = true → Consumed s → ∀ key value, s.cache.entries.lookup key = some value ↔
      ∃ id obj, (s.history.objectsAt s.history.length).lookup id = some obj ∧
        keyFunc.key id = key ∧ project obj = some value) ∧
    ∀ stream, s.phase = .streaming stream → s.owesList = false := by
  have hinv := Inv.of_run h
  refine ⟨hinv.converged, fun stream hphase => ?_⟩
  rw [Inv, hphase] at hinv
  exact hinv.1

variable (keyFunc project) in
/-- What is read from the cache is some version of the server. -/
def Snapshot (s : System β τ) : Prop :=
  s.cache.ready = true → ∃ version ≤ s.history.length,
    Shows keyFunc project s.cache.entries (s.history.objectsAt version)

/-- While a LIST is owed, nobody changes the entries. -/
theorem kept_of_relisting {action : Action β} (hstep : s.step keyFunc project action = some t)
    (hphase : t.phase = .relisting) : t.cache.entries = s.cache.entries ∧
      t.cache.ready = s.cache.ready ∧ s.history <+: t.history := by
  cases action <;> simp only [System.step, System.listed, System.except] at hstep <;>
    grind [map_eq_some_iff, prefix_append]

theorem Inv.tracks (h : Inv keyFunc project s) (hphase : s.phase ≠ .relisting)
    (hready : s.cache.ready = true) : ∃ version, Tracks keyFunc project s version := by
  rw [Inv] at h
  split at h
  · simp [h] at hready
  · exact h.2
  · exact h.2
  · exact ⟨_, h.2.2⟩
  · contradiction

theorem Inv.snapshot {action : Action β} (h : Inv keyFunc project t)
    (hbefore : Snapshot keyFunc project s) (hstep : s.step keyFunc project action = some t) :
    Snapshot keyFunc project t := by
  intro hready
  by_cases hphase : t.phase = .relisting
  · obtain ⟨hentries, hsame, more, hhistory⟩ := kept_of_relisting hstep hphase
    obtain ⟨version, hle, hshows⟩ := hbefore (hsame ▸ hready)
    rw [hentries, ← hhistory]
    refine ⟨version, by rw [length_append]; omega, ?_⟩
    rwa [History.objectsAt, Replay.upto_append hle]
  · obtain ⟨version, htracks⟩ := h.tracks hphase hready
    exact ⟨version, htracks.le, htracks.shows⟩

/-- A cache that is ready always shows a single version of the server, never parts of several, and
while no LIST is owed the next watch starts from that version. -/
theorem watch_snapshots (keyFunc : KeyFunc) (project : Resource β → Option τ) {s : System β τ}
    (h : Machine.Run (System.step keyFunc project)
      (fun s action => smooth keyFunc project s action = true) {} s)
    (hready : s.cache.ready = true) : (∃ version ≤ s.history.length,
      Shows keyFunc project s.cache.entries (s.history.objectsAt version)) ∧
    (s.phase ≠ .relisting → ∃ version ≤ s.history.length,
      Shows keyFunc project s.cache.entries (s.history.objectsAt version) ∧
        s.cache.resourceVersion = some version) := by
  obtain ⟨hinv, hsnapshot⟩ : Inv keyFunc project s ∧ Snapshot keyFunc project s := by
    apply h.invariant (P := fun s => Inv keyFunc project s ∧ Snapshot keyFunc project s)
    · exact ⟨rfl, fun hready => by contradiction⟩
    · intro t u action ht hsmooth hstep
      have hinv := ht.1.step hsmooth hstep
      exact ⟨hinv, hinv.snapshot ht.2 hstep⟩
  refine ⟨hsnapshot hready, fun hphase => ?_⟩
  obtain ⟨_, htracks⟩ := hinv.tracks hphase hready
  obtain ⟨version, hversion, hresumed⟩ := htracks.resume
  exact ⟨version, hresumed.le, hresumed.shows, hversion⟩

end Runs

section Histories

/-- An object of a namespace. -/
def machine (name : Name) : Identity := ⟨⟨"vms", by decide⟩, name⟩

def left : Identity := machine ⟨"a", by decide⟩
def right : Identity := machine ⟨"b", by decide⟩

/-- A cache of numbers. -/
def number (obj : Resource Nat) : Option Nat := some obj.rest

/-- One object is written, the watch is told 410 by an event, and another LIST answers. -/
def renewed : List (Action Nat) :=
  [.change (.put left 1), .start (.ok 1), .connect, .error 410 "Expired: too old",
    .change (.delete left), .relist (.ok 2), .connect, .change (.put right 2), .deliver]

/-- The watch is refused with 410, and the LIST fails. -/
def ghost : List (Action Nat) :=
  [.change (.put left 1), .start (.ok 1), .connect, .fail (.api 410 "Gone"),
    .change (.delete left), .relist (.error "timed out"), .connect, .change (.put right 2),
    .deliver]

theorem watch_converges_renewed : ∃ s, Machine.play (System.step defaultKeyFunc number)
    (fun s action => smooth defaultKeyFunc number s action = true) {} renewed = some s ∧
      s.cache.entries.lookup "vms/a" = none ∧ s.cache.entries.lookup "vms/b" = some 2 := by
  obtain ⟨s, hplay, hready, hphase, hhistory⟩ : ∃ s,
      Machine.play (System.step defaultKeyFunc number)
        (fun s action => smooth defaultKeyFunc number s action = true) {} renewed = some s ∧
      s.cache.ready = true ∧ s.phase = .streaming ⟨[], 3⟩ ∧
        s.history = [.put left 1, .delete left, .put right 2] := ⟨_, rfl, rfl, rfl, rfl⟩
  have hconsumed : Consumed s := by
    rw [Consumed, hphase]
    exact ⟨rfl, quiet_of_length_le (by rw [hhistory]; decide)⟩
  have hshows := (watch_converges defaultKeyFunc number (Machine.run_of_play .refl hplay)).1 hready
    hconsumed
  rw [hhistory] at hshows
  refine ⟨s, hplay, eq_none_iff_forall_ne_some.mpr fun value hvalue => ?_, ?_⟩
  · obtain ⟨id, obj, hobj, hkey, -⟩ := (hshows "vms/a" value).mp hvalue
    obtain rfl : id = left := defaultKey_injective hkey
    contradiction
  · exact (hshows "vms/b" 2).mpr ⟨right, _, rfl, rfl, rfl⟩

theorem watch_snapshots_renewed : ∃ s, Machine.play (System.step defaultKeyFunc number)
    (fun s action => smooth defaultKeyFunc number s action = true) {} renewed = some s ∧
      ∃ version, Shows defaultKeyFunc number s.cache.entries (s.history.objectsAt version) ∧
        s.cache.resourceVersion = some version := by
  obtain ⟨s, hplay, hready, hphase⟩ : ∃ s, Machine.play (System.step defaultKeyFunc number)
      (fun s action => smooth defaultKeyFunc number s action = true) {} renewed = some s ∧
      s.cache.ready = true ∧ s.phase = .streaming ⟨[], 3⟩ := ⟨_, rfl, rfl, rfl⟩
  obtain ⟨-, hresumes⟩ := watch_snapshots defaultKeyFunc number
    (Machine.run_of_play .refl hplay) hready
  obtain ⟨version, -, hshows, hversion⟩ := hresumes (by simp [hphase])
  exact ⟨s, hplay, version, hshows, hversion⟩

theorem not_watch_converges :
    (¬∀ s, Machine.Run (System.step defaultKeyFunc number) (fun _ _ => True) {} s →
      s.cache.ready = true → Consumed s → ∀ key value, s.cache.entries.lookup key = some value ↔
        ∃ id obj, (s.history.objectsAt s.history.length).lookup id = some obj ∧
          defaultKeyFunc.key id = key ∧ number obj = some value) ∧
    ¬∀ s, Machine.Run (System.step defaultKeyFunc number) (fun _ _ => True) {} s →
      ∀ stream, s.phase = .streaming stream → s.owesList = false := by
  constructor
  · intro h
    obtain ⟨s, hplay, hready, hphase, hhistory, hvalue⟩ : ∃ s,
        Machine.play (System.step defaultKeyFunc number) (fun _ _ => True) {} ghost = some s ∧
        s.cache.ready = true ∧ s.phase = .streaming ⟨[], 3⟩ ∧
          s.history = [.put left 1, .delete left, .put right 2] ∧
            s.cache.entries.lookup "vms/a" = some 1 := ⟨_, rfl, rfl, rfl, rfl, rfl⟩
    have hconsumed : Consumed s := by
      rw [Consumed, hphase]
      exact ⟨rfl, quiet_of_length_le (by rw [hhistory]; decide)⟩
    have hshows := h s (Machine.run_of_play .refl hplay) hready hconsumed
    rw [hhistory] at hshows
    obtain ⟨id, obj, hobj, hkey, -⟩ := (hshows "vms/a" 1).mp hvalue
    obtain rfl : id = left := defaultKey_injective hkey
    contradiction
  · intro h
    obtain ⟨s, hplay, hphase, howes⟩ : ∃ s,
        Machine.play (System.step defaultKeyFunc number) (fun _ _ => True) {} ghost = some s ∧
        s.phase = .streaming ⟨[], 3⟩ ∧ s.owesList = true := ⟨_, rfl, rfl, rfl⟩
    have hnot := h s (Machine.run_of_play .refl hplay) _ hphase
    simp [howes] at hnot

end Histories

end Watch
