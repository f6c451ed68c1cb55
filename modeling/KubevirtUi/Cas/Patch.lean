import KubevirtUi.Library.Crowd
import KubevirtUi.Library.Json
import KubevirtUi.Library.Store

/-!
# Compare-and-set writes of shared specs

Several flows append to lists inside one spec, and a merge patch replaces a list as a
whole. Each flow therefore reads the object, computes a patch from what it has read,
and sends it with the version of its read: the API server refuses a patch whose version
is no longer the object's. A refused flow reads again, a few times.

The world keeps a record of everything that has been done to the objects, which no
program sees.

Nobody's read is older than the version it carries, and a version is never used twice.
A patch that is merged was therefore computed from the very spec it is merged into:
what the objects are is what the history makes of what they were, each merged patch
being what its client's function returns for the spec at that point.
-/

namespace Cas

open Interference

variable {ι : Type}

/-- What has been done: an object was put in place by somebody else, or deleted; a client
merged a patch into it, or found that there is none. -/
inductive Event (ι : Type) where
  | put (key : String) (spec : Json)
  | deleted (key : String)
  | merged (client : ι) (key : String) (patch : Json)
  | missed (client : ι) (key : String)

/-- The objects, by collection and name, each with its spec. -/
structure World (ι : Type) where
  clock : Nat
  objects : Store Json
  history : List (Event ι)

def keyOf (plural name : String) : String := plural ++ "/" ++ name

inductive Request where
  | get (key : String)
  | patch (key : String) (version : Nat) (patch : Json)

@[reducible] def Request.Result : Request → Type
  | .get _ => Versioned Json
  | .patch .. => Unit

/-- An answer, or the status that the API server refuses with. -/
abbrev Request.Response (r : Request) : Type := Except Nat r.Result

/-- A request may be refused for a reason that has nothing to do with the object. -/
abbrev Fault := Option { status : Nat // status ≠ 404 }

/-- What a request that is not refused does. -/
def commit (i : ι) (w : World ι) : (r : Request) → r.Response × World ι
  | .get key =>
    match w.objects.lookup key with
    | none => (.error 404, { w with history := w.history ++ [.missed i key] })
    | some item => (.ok item, w)
  | .patch key version patch =>
    match w.objects.lookup key with
    | none => (.error 404, w)
    | some item =>
      if item.version = version then
        (.ok (),
          { clock := w.clock + 1
            objects := w.objects.insert key ⟨w.clock + 1, item.value.mergePatch patch⟩
            history := w.history ++ [.merged i key patch] })
      else (.error 409, w)

def serve (i : ι) (fault : Fault) (w : World ι) (r : Request) : r.Response × World ι :=
  match fault with
  | none => commit i w r
  | some status => (.error status.1, w)

/-- What others do: they put an object in place, delete one, or change something about it
that is not in its spec. -/
inductive Action where
  | put (key : String) (spec : Json)
  | delete (key : String)
  | touch (key : String)

def act (a : Action) (w : World ι) : World ι :=
  match a with
  | .put key spec =>
    { clock := w.clock + 1
      objects := w.objects.insert key ⟨w.clock + 1, spec⟩
      history := w.history ++ [.put key spec] }
  | .delete key =>
    { w with
      objects := w.objects.erase key
      history := w.history ++ [.deleted key] }
  | .touch key =>
    match w.objects.lookup key with
    | none => w
    | some item =>
      { w with
        clock := w.clock + 1
        objects := w.objects.insert key ⟨w.clock + 1, item.value⟩ }

/-- A failed request, or an object that has to be there and is not as it has to be. -/
inductive Failure where
  | api (status : Nat)
  | lookup (text : String)
  deriving DecidableEq

/-- A program of the backend; what it returns it may also raise. -/
abbrev Call (α : Type) := Program Request Request.Response α

def ask (r : Request) : Call r.Response := Program.ask r

def defaultRetries : Nat := 5

/-- `item.get("spec", {}) or {}` -/
def specOf (spec : Json) : Json := if spec.truthy then spec else .obj []

/-- Read, compute and write, as many times as are left. -/
def attempts (key : String) (mutate : Json → Option Json) : Nat → Call (Except Failure Bool)
  | 0 => pure (.ok false)
  | left + 1 => do
    match ← ask (.get key) with
    | .error 404 => pure (.ok false)
    | .error status => pure (.error (.api status))
    | .ok item =>
      match mutate (specOf item.value) with
      | none => pure (.ok false)
      | some patch =>
        match ← ask (.patch key item.version patch) with
        | .ok () => pure (.ok true)
        | .error status =>
          if status = 409 ∧ 0 < left then attempts key mutate left
          else pure (.error (.api status))

/-- Whether a patch was written. -/
def patchSpecWithRetry (plural name : String) (mutate : Json → Option Json) (retries : Nat) :
    Call (Except Failure Bool) :=
  attempts (keyOf plural name) mutate retries

/-- Replace the element whose key matches the entry's, else append. -/
def upsert (items : List Json) (entry : Json) (key : String) : List Json :=
  items.filter (fun i => i.get key ≠ entry.get key) ++ [entry]

/-- An object, or nothing where there is none. -/
def getObject (plural name : String) : Call (Except Failure (Option Json)) := do
  match ← ask (.get (keyOf plural name)) with
  | .error 404 => pure (.ok none)
  | .error status => pure (.error (.api status))
  | .ok item => pure (.ok (some item.value))

def peeringEntry (remoteVpc localConnectIp : String) : Json :=
  .obj [("remoteVpc", .str remoteVpc), ("localConnectIP", .str localConnectIp)]

/-- The entry for a remote VPC with this address is in the spec. -/
def holdsPeering (remoteVpc localConnectIp : String) (spec : Json) : Bool :=
  (spec.get "vpcPeerings").items.any fun p =>
    p.get "remoteVpc" = .str remoteVpc ∧ p.get "localConnectIP" = .str localConnectIp

def ensureMutate (remoteVpc localConnectIp : String) (spec : Json) : Option Json :=
  if holdsPeering remoteVpc localConnectIp spec then none
  else some (.obj [("vpcPeerings", .arr (upsert (spec.get "vpcPeerings").items
    (peeringEntry remoteVpc localConnectIp) "remoteVpc"))])

def ensureVpcPeering (vpcName remoteVpc localConnectIp : String) :
    Call (Except Failure (Option Bool)) := do
  match ← patchSpecWithRetry "vpcs" vpcName (ensureMutate remoteVpc localConnectIp)
      defaultRetries with
  | .error e => pure (.error e)
  | .ok true => pure (.ok (some true))
  | .ok false =>
    match ← getObject "vpcs" vpcName with
    | .error e => pure (.error e)
    | .ok vpc => pure (.ok (some vpc.isSome))

def removeMutate (remoteVpc : String) (spec : Json) : Option Json :=
  let peerings := (spec.get "vpcPeerings").items
  let remaining := peerings.filter fun p => p.get "remoteVpc" ≠ .str remoteVpc
  if remaining.length = peerings.length then none
  else some (.obj [("vpcPeerings", .arr remaining)])

/-- A flow that returns nothing. -/
def discard (c : Call (Except Failure Bool)) : Call (Except Failure (Option Bool)) := do
  match ← c with
  | .error e => pure (.error e)
  | .ok _ => pure (.ok none)

def removeVpcPeering (vpcName remoteVpc : String) : Call (Except Failure (Option Bool)) :=
  discard (patchSpecWithRetry "vpcs" vpcName (removeMutate remoteVpc) defaultRetries)

def cpGuardPriority : Int := 30000

def attachMutate (transitSubnet transitCidr : String) (spec : Json) : Option Json :=
  let externals := (spec.get "extraExternalSubnets").items
  let policies := (spec.get "policyRoutes").items
  let match_ := Json.str ("ip4.dst == " ++ transitCidr)
  let wantExternal := Json.str transitSubnet ∉ externals
  let wantGuard := ¬ policies.any fun p =>
    p.get "priority" = .num cpGuardPriority ∧ p.get "match" = match_
  if ¬ wantExternal ∧ ¬ wantGuard ∧ (spec.get "enableExternal").truthy then none
  else some (.obj
    [("enableExternal", .bool true),
      ("extraExternalSubnets", .arr (if wantExternal then externals ++ [.str transitSubnet]
        else externals)),
      ("policyRoutes", .arr (if wantGuard then
        policies ++ [.obj [("priority", .num cpGuardPriority), ("action", .str "allow"),
          ("match", match_)]]
        else policies))])

def attachVpcToTransit (vpcName transitSubnet : String) : Call (Except Failure (Option Bool)) := do
  match ← getObject "subnets" transitSubnet with
  | .error e => pure (.error e)
  | .ok none =>
    pure (.error (.lookup ("transit subnet '" ++ transitSubnet ++ "' does not exist")))
  | .ok (some spec) =>
    match (specOf spec).get "cidrBlock" with
    | .str cidr =>
      if cidr = "" then
        pure (.error (.lookup ("transit subnet '" ++ transitSubnet ++ "' has no cidrBlock")))
      else discard (patchSpecWithRetry "vpcs" vpcName (attachMutate transitSubnet cidr)
        defaultRetries)
    | _ => pure (.error (.lookup ("transit subnet '" ++ transitSubnet ++ "' has no cidrBlock")))

/-- What the transit rules are made of and told apart by. -/
structure RuleText where
  allowSource : Json → Option String
  deny : String → List Json → Json

def transitAllowPriority : Int := 3200

def transitDenyPriority : Int := 3000

/-- One tenant's allows and the baseline, laid over the rules that are still wanted. The
addresses are those that were read before; `none` is that they could not be. -/
def aclsMutate (T : RuleText) (wanted : List Json) (live : Option (List String)) (spec : Json) :
    Option Json :=
  let before := (spec.get "acls").items
  let kept := match live with
    | none => before
    | some addresses => before.filter fun a =>
      a.get "priority" ≠ .num transitAllowPriority ∨
        (T.allowSource (a.get "match")).getD "" ∈ addresses
  let guarded := match spec.get "cidrBlock" with
    | .str cidr =>
      if cidr ≠ "" ∧ ¬ kept.any (fun a =>
          a.get "action" = .str "drop" ∧ a.get "priority" = .num transitDenyPriority) then
        kept ++ [T.deny cidr (spec.get "excludeIps").items]
      else kept
    | _ => kept
  let acls := guarded ++ wanted.filter fun a => a ∉ guarded
  if acls = before then none else some (.obj [("acls", .arr acls)])

def ensureTransitAcls (T : RuleText) (transitSubnet eip : String) (wanted : List Json)
    (live : Option (List String)) : Call (Except Failure (Option Bool)) :=
  if wanted.isEmpty then pure (.ok none)
  else discard (patchSpecWithRetry "subnets" transitSubnet
    (aclsMutate T wanted (live.map fun l => l ++ [eip])) defaultRetries)

variable {ι : Type}

/-- What an event makes of the specs. -/
def Event.apply (specs : String → Option Json) : Event ι → String → Option Json
  | .put key spec => Function.update specs key (some spec)
  | .deleted key => Function.update specs key none
  | .merged _ key patch =>
    Function.update specs key ((specs key).map fun spec => spec.mergePatch patch)
  | .missed .. => specs

/-- What a history makes of the specs. -/
def replay (init : String → Option Json) (history : List (Event ι)) : String → Option Json :=
  history.foldl Event.apply init

@[simp] theorem replay_concat (init : String → Option Json) (history : List (Event ι))
    (e : Event ι) : replay init (history ++ [e]) = e.apply (replay init history) := by
  simp [replay]

/-- Versions are timely, and the specs are what the history makes of the first ones. -/
def Sound (init : String → Option Json) (w : World ι) : Prop :=
  w.objects.Timely w.clock ∧ ∀ key, (w.objects.lookup key).map (·.value) = replay init w.history key

/-- How often a client has written. -/
def writes [DecidableEq ι] (i : ι) (history : List (Event ι)) : Nat :=
  history.countP fun
    | .merged j .. => j = i
    | _ => false

/-- What any one step does: the clock does not go back, what is known of an object stays
known, and the history goes on. -/
structure Passes (w v : World ι) : Prop where
  clock : w.clock ≤ v.clock
  known : ∀ key x, w.objects.Known w.clock key x → v.objects.Known v.clock key x
  history : w.history <+: v.history

theorem Passes.refl (w : World ι) : Passes w w := ⟨le_rfl, fun _ _ h => h, List.prefix_rfl⟩

section Steps

variable {init : String → Option Json} {w : World ι} {i : ι}

theorem Sound.insert (h : Sound init w) (key : String) (spec : Json) (e : Event ι)
    (he : e.apply (replay init w.history) =
      Function.update (replay init w.history) key (some spec)) : Sound init
      { clock := w.clock + 1
        objects := w.objects.insert key ⟨w.clock + 1, spec⟩
        history := w.history ++ [e] } := by
  refine ⟨h.1.insert spec, fun other => ?_⟩
  rw [replay_concat, he]
  by_cases hother : other = key
  · subst hother
    simp
  · simp [hother, h.2 other]

/-- The world after a patch has been merged. -/
def afterMerge (i : ι) (w : World ι) (key : String) (spec patch : Json) : World ι where
  clock := w.clock + 1
  objects := w.objects.insert key ⟨w.clock + 1, spec.mergePatch patch⟩
  history := w.history ++ [.merged i key patch]

/-- What a request does to the world: nothing, or it finds that there is no object, or it
merges its patch into the object that has its version. -/
theorem serve_cases (fault : Fault) (w : World ι) (r : Request) : (serve i fault w r).2 = w ∨
    (∃ key, r = .get key ∧ w.objects.lookup key = none ∧
      (serve i fault w r).2 = { w with history := w.history ++ [.missed i key] }) ∨
    ∃ key patch item, r = .patch key item.version patch ∧ w.objects.lookup key = some item ∧
      (serve i fault w r).2 = afterMerge i w key item.value patch := by
  cases fault with
  | some status => exact .inl rfl
  | none =>
    cases r with
    | get key =>
      cases hlookup : w.objects.lookup key with
      | none => exact .inr (.inl ⟨key, rfl, hlookup, by simp [serve, commit, hlookup]⟩)
      | some item => exact .inl (by simp [serve, commit, hlookup])
    | patch key version patch =>
      cases hlookup : w.objects.lookup key with
      | none => exact .inl (by simp [serve, commit, hlookup])
      | some item =>
        by_cases hversion : item.version = version
        · subst hversion
          exact .inr (.inr ⟨key, patch, item, rfl, hlookup, by
            simp [serve, commit, hlookup, afterMerge]⟩)
        · exact .inl (by simp [serve, commit, hlookup, hversion])

theorem Sound.serve (h : Sound init w) (fault : Fault) (r : Request) :
    Sound init (serve i fault w r).2 := by
  obtain hsame | ⟨key, -, -, hmissed⟩ | ⟨key, patch, item, -, hlookup, hmerged⟩ :=
    serve_cases (i := i) fault w r
  · rw [hsame]
    exact h
  · rw [hmissed]
    refine ⟨h.1, fun other => ?_⟩
    rw [replay_concat]
    exact h.2 other
  · rw [hmerged]
    refine h.insert key _ _ ?_
    rw [Event.apply, ← h.2 key, hlookup]
    rfl

theorem Sound.act (h : Sound init w) (a : Action) : Sound init (act a w) := by
  cases a with
  | put key spec => exact h.insert key spec _ rfl
  | delete key =>
    refine ⟨h.1.erase, fun other => ?_⟩
    simp only [Cas.act, replay_concat, Event.apply]
    by_cases hother : other = key
    · subst hother
      simp
    · simp [hother, h.2 other]
  | touch key =>
    simp only [Cas.act]
    split
    · exact h
    · rename_i item hlookup
      refine ⟨h.1.insert item.value, fun other => ?_⟩
      by_cases hother : other = key
      · subst hother
        rw [AList.lookup_insert, Option.map_some, ← h.2 other, hlookup]
        rfl
      · rw [AList.lookup_insert_ne hother, h.2 other]

theorem passes_insert (key : String) (spec : Json) (events : List (Event ι)) : Passes w
      { clock := w.clock + 1
        objects := w.objects.insert key ⟨w.clock + 1, spec⟩
        history := w.history ++ events } :=
  ⟨Nat.le_succ _, fun _ _ h => h.insert spec, List.prefix_append _ _⟩

theorem passes_serve (fault : Fault) (r : Request) : Passes w (Cas.serve i fault w r).2 := by
  obtain hsame | ⟨key, -, -, hmissed⟩ | ⟨key, patch, item, -, -, hmerged⟩ :=
    serve_cases (i := i) fault w r
  · rw [hsame]
    exact Passes.refl w
  · rw [hmissed]
    exact ⟨le_rfl, fun _ _ h => h, List.prefix_append _ _⟩
  · rw [hmerged]
    exact passes_insert key _ _

theorem passes_act (a : Action) : Passes w (Cas.act a w) := by
  cases a with
  | put key spec => exact passes_insert key spec _
  | delete key => exact ⟨le_rfl, fun _ _ h => h.erase, List.prefix_append _ _⟩
  | touch key =>
    simp only [Cas.act]
    split
    · exact Passes.refl w
    · exact ⟨Nat.le_succ _, fun _ _ h => h.insert _, List.prefix_rfl⟩

end Steps

section Writes

variable [DecidableEq ι] {w : World ι} {i j : ι}

theorem writes_append (i : ι) (xs ys : List (Event ι)) :
    writes i (xs ++ ys) = writes i xs + writes i ys := List.countP_append

theorem writes_serve_of_ne (h : j ≠ i) (fault : Fault) (r : Request) :
    writes j (serve i fault w r).2.history = writes j w.history := by
  obtain hsame | ⟨key, -, -, hmissed⟩ | ⟨key, patch, item, -, -, hmerged⟩ :=
    serve_cases (i := i) fault w r
  · rw [hsame]
  · rw [hmissed, writes_append]
    rfl
  · rw [hmerged, afterMerge, writes_append]
    simp [writes, Ne.symm h]

theorem writes_act (a : Action) : writes i (act a w).history = writes i w.history := by
  cases a with
  | put key spec =>
    simp only [act, writes_append]
    rfl
  | delete key =>
    simp only [act, writes_append]
    rfl
  | touch key =>
    simp only [act]
    split <;> rfl

end Writes

end Cas
