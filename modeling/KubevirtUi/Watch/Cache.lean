import KubevirtUi.Library.Replay
import Mathlib.Data.List.AList

/-!
# The watch cache

The cache is filled by a LIST and kept by a watch. The loop of the watch has many ways
out, and each leaves the entries and the version to go on from as they are, but for 410
Gone, which asks for another LIST. For an ERROR event the client raises an exception with
the event's code, so that the loop's own branch for such events is never reached.

The server is a history of changes, its versions the positions in it. A change of another
resource is a version too.
-/

namespace Watch

/-- A name of the API server, which has no slash. -/
structure Name where
  text : String
  noSlash : '/' ∉ text.toList

theorem Name.ext_iff {a b : Name} : a.text = b.text ↔ a = b := by
  obtain ⟨text, hslash⟩ := a
  obtain ⟨text', hslash'⟩ := b
  exact ⟨fun h => by obtain rfl : text = text' := h; rfl, congrArg Name.text⟩

instance : DecidableEq Name := fun _ _ => decidable_of_iff _ Name.ext_iff

/-- What an object is known by. Objects of the whole cluster have no namespace. -/
@[ext]
structure Identity where
  ns : Name
  name : Name
  deriving DecidableEq

/-- A raw object: the metadata that is read, and the rest. -/
structure Resource (β : Type) where
  id : Identity
  resourceVersion : Option Nat
  rest : β

def defaultKey (id : Identity) : String :=
  if id.ns.text ≠ "" then id.ns.text ++ "/" ++ id.name.text else id.name.text

/-- A function to derive keys with, which tells objects apart. -/
structure KeyFunc where
  key : Identity → String
  injective : Function.Injective key

section DefaultKey

theorem Name.ext {a b : Name} (h : a.text.toList = b.text.toList) : a = b :=
  Name.ext_iff.mp (String.toList_injective h)

theorem toList_defaultKey (id : Identity) : (defaultKey id).toList =
    if id.ns.text ≠ "" then id.ns.text.toList ++ '/' :: id.name.text.toList
    else id.name.text.toList := by
  have hslash : "/".toList = ['/'] := by decide
  unfold defaultKey
  split <;> simp [String.toList_append, hslash]

theorem append_slash_inj {a b : Name} {s t : List Char}
    (h : a.text.toList ++ '/' :: s = b.text.toList ++ '/' :: t) : a = b ∧ s = t := by
  have hword (n : Name) : ∀ c ∈ n.text.toList, (c ≠ '/' : Bool) := fun c hc => by
    simpa using fun heq : c = '/' => n.noSlash (heq ▸ hc)
  have hbefore (n : Name) (u : List Char) :
      (n.text.toList ++ '/' :: u).takeWhile (· ≠ '/') = n.text.toList := by
    rw [List.takeWhile_append_of_pos (hword n)]
    simp
  have hlist : a.text.toList = b.text.toList := by rw [← hbefore a s, h, hbefore b t]
  refine ⟨Name.ext hlist, ?_⟩
  rw [hlist] at h
  simpa using h

theorem defaultKey_injective : Function.Injective defaultKey := by
  have hnot {a b : Identity} (ha : a.ns.text ≠ "") (hb : b.ns.text = "") :
      (defaultKey a).toList ≠ (defaultKey b).toList := fun h => by
    rw [toList_defaultKey, toList_defaultKey, if_pos ha, if_neg (not_not.mpr hb)] at h
    exact b.name.noSlash (h ▸ List.mem_append_right _ List.mem_cons_self)
  intro a b h
  have hlist := congrArg String.toList h
  by_cases ha : a.ns.text = ""
  · by_cases hb : b.ns.text = ""
    · rw [toList_defaultKey, toList_defaultKey, if_neg (not_not.mpr ha),
        if_neg (not_not.mpr hb)] at hlist
      exact Identity.ext (Name.ext (by rw [ha, hb])) (Name.ext hlist)
    · exact absurd hlist.symm (hnot hb ha)
  · by_cases hb : b.ns.text = ""
    · exact absurd hlist (hnot ha hb)
    · rw [toList_defaultKey, toList_defaultKey, if_pos ha, if_pos hb] at hlist
      obtain ⟨hns, hname⟩ := append_slash_inj hlist
      exact Identity.ext hns (Name.ext hname)

def defaultKeyFunc : KeyFunc := ⟨defaultKey, defaultKey_injective⟩

end DefaultKey

/-- The attributes of the cache, `ready` for the event that is set. -/
structure Cache (τ : Type) where
  entries : AList fun _ : String => τ := ∅
  resourceVersion : Option Nat := none
  ready : Bool := false
  lastError : Option String := none

/-- An event of the stream. -/
inductive Event (β : Type) where
  | added (obj : Resource β)
  | modified (obj : Resource β)
  | deleted (obj : Resource β)
  | bookmark (resourceVersion : Option Nat)

variable {β τ : Type} (keyFunc : KeyFunc) (project : Resource β → Option τ)

/-- Enter the projection of an object. Where it raises, the entries are left alone. -/
def enter (entries : AList fun _ : String => τ) (obj : Resource β) : AList fun _ : String => τ :=
  match project obj with
  | some value => entries.insert (keyFunc.key obj.id) value
  | none => entries

/-- What a LIST that answers makes of the cache. -/
def Cache.initialList (cache : Cache τ) (items : List (Resource β))
    (resourceVersion : Option Nat) : Cache τ :=
  { cache with
    entries := items.foldl (enter keyFunc project) ∅
    resourceVersion
    ready := true }

def Cache.applyEvent (cache : Cache τ) : Event β → Cache τ
  | .added obj => { cache with entries := enter keyFunc project cache.entries obj }
  | .modified obj => { cache with entries := enter keyFunc project cache.entries obj }
  | .deleted obj => { cache with entries := cache.entries.erase (keyFunc.key obj.id) }
  | .bookmark _ => cache

/-- The version that an event carries. -/
def Event.resourceVersion? : Event β → Option Nat
  | .added obj => obj.resourceVersion
  | .modified obj => obj.resourceVersion
  | .deleted obj => obj.resourceVersion
  | .bookmark resourceVersion => resourceVersion

/-- One event of the stream. -/
def Cache.consume (cache : Cache τ) (event : Event β) : Cache τ :=
  { cache.applyEvent keyFunc project event with
    resourceVersion := event.resourceVersion?.or cache.resourceVersion }

/-- One version: an object is written or deleted, or something else happens. -/
inductive Change (β : Type) where
  | put (id : Identity) (rest : β)
  | delete (id : Identity)
  | other

/-- The objects that a server holds. -/
abbrev Objects (β : Type) := AList fun _ : Identity => Resource β

/-- The versions of a server, each one change. -/
abbrev History (β : Type) := List (Change β)

def Change.apply (version : Nat) (objects : Objects β) : Change β → Objects β
  | .put id rest => objects.insert id ⟨id, some version, rest⟩
  | .delete id => objects.erase id
  | .other => objects

def History.objectsAt (history : History β) (version : Nat) : Objects β :=
  Replay.upto Change.apply ∅ history version

/-- What a LIST answers at a version. -/
def Objects.items (objects : Objects β) : List (Resource β) := objects.entries.map Sigma.snd

/-- What a watch is told of a change, if it is of its resource. -/
def Change.event? (version : Nat) (objects : Objects β) : Change β → Option (Event β)
  | .put id rest =>
    if id ∈ objects then some (.modified ⟨id, some version, rest⟩)
    else some (.added ⟨id, some version, rest⟩)
  | .delete id =>
    (objects.lookup id).map fun obj => .deleted { obj with resourceVersion := some version }
  | .other => none

/-- What is left of a stream: objects that are listed first where no version was asked for,
and the changes from a position on. -/
structure Stream (β : Type) where
  backlog : List (Resource β)
  position : Nat

/-- The stream of a watch from a version, or from the state that is there. -/
def watch (history : History β) : Option Nat → Stream β
  | some version => ⟨[], version⟩
  | none => ⟨(history.objectsAt history.length).items, history.length⟩

/-- What comes next, a change of another resource being no event. -/
def Stream.next (history : History β) (stream : Stream β) : Option (Option (Event β) × Stream β) :=
  match stream.backlog with
  | obj :: backlog => some (some (.added obj), ⟨backlog, stream.position⟩)
  | [] => history[stream.position]?.map fun change =>
    (change.event? (stream.position + 1) (history.objectsAt stream.position),
      ⟨[], stream.position + 1⟩)

/-- An exception, with the text that is kept of it. -/
inductive Failure where
  | api (status : Nat) (reason : String)
  | other (repr : String)

/-- Where the cache is in its life. -/
inductive Phase (β : Type) where
  | idle
  | connecting
  | streaming (stream : Stream β)
  | relisting
  | finished

/-- The server, the cache and its loop. Only proofs read `owesList`, which says that the
watch was told 410 and no LIST has answered since. -/
structure System (β τ : Type) where
  history : History β := []
  cache : Cache τ := {}
  phase : Phase β := .idle
  stopped : Bool := false
  backoff : Nat := 1
  owesList : Bool := false

/-- What happens next. A LIST answers with the objects at some version that there was. -/
inductive Action (β : Type) where
  | change (change : Change β)
  | start (answer : Except String Nat)
  | stop
  | connect
  | deliver
  | bookmark
  | error (code : Nat) (reason : String)
  | ending
  | fail (failure : Failure)
  | relist (answer : Except String Nat)

def backoffInitial : Nat := 1
def backoffMax : Nat := 30

/-- The `except` clauses of the loop. -/
def System.except (s : System β τ) : Failure → System β τ
  | .api status reason =>
    if status = 410 then
      { s with
        cache := { s.cache with resourceVersion := none }
        phase := .relisting
        owesList := true }
    else
      { s with
        cache := { s.cache with
          lastError := some ("ApiException(" ++ toString status ++ "): " ++ reason) }
        phase := .connecting
        backoff := min (s.backoff * 2) backoffMax }
  | .other repr =>
    { s with
      cache := { s.cache with lastError := some repr }
      phase := .connecting
      backoff := min (s.backoff * 2) backoffMax }

/-- The cache after a LIST at a version. -/
def System.listed (s : System β τ) (version : Nat) (phase : Phase β) : System β τ :=
  { s with
    cache := s.cache.initialList keyFunc project (s.history.objectsAt version).items (some version)
    phase
    backoff := backoffInitial
    owesList := false }

def System.step (s : System β τ) : Action β → Option (System β τ)
  | .change change => some { s with history := s.history ++ [change] }
  | .start answer =>
    match s.phase, answer with
    | .idle, .ok version =>
      if version ≤ s.history.length then
        some (s.listed keyFunc project version (if s.stopped then .finished else .connecting))
      else none
    | _, _ => some s
  | .stop => some { s with
      cache := { s.cache with entries := ∅, ready := false }
      phase := .idle
      stopped := true }
  | .connect =>
    match s.phase with
    | .connecting =>
      some { s with phase := .streaming (watch s.history s.cache.resourceVersion) }
    | _ => none
  | .deliver =>
    match s.phase with
    | .streaming stream => (stream.next s.history).map fun (event, rest) =>
      { s with
        cache := event.elim s.cache (s.cache.consume keyFunc project ·)
        phase := .streaming rest }
    | _ => none
  | .bookmark =>
    match s.phase with
    | .streaming ⟨[], position⟩ =>
      some { s with cache := s.cache.consume keyFunc project (.bookmark (some position)) }
    | _ => none
  | .error code reason =>
    match s.phase with
    | .streaming _ => some (s.except (.api code reason))
    | _ => none
  | .ending =>
    match s.phase with
    | .streaming _ => some { s with phase := .connecting, backoff := backoffInitial }
    | _ => none
  | .fail failure =>
    match s.phase with
    | .connecting => some (s.except failure)
    | .streaming _ => some (s.except failure)
    | _ => none
  | .relist answer =>
    match s.phase, answer with
    | .relisting, .ok version =>
      if version ≤ s.history.length then some (s.listed keyFunc project version .connecting)
      else none
    | .relisting, .error text => some { s with
        cache := { s.cache with lastError := some text }
        phase := .connecting
        backoff := min (s.backoff * 2) backoffMax }
    | _, _ => none

end Watch
