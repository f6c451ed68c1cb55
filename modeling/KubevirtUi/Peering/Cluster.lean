import KubevirtUi.Library.Store
import KubevirtUi.Peering.Router
import KubevirtUi.Peering.Traffic

/-!
# The cluster a peering is reconciled in

The peering objects, the routers and the subnets, behind an API server that takes
a write only under the version it was read at. A request may fail, and it may also
be carried out and be reported failed. Everybody else may do everything the API
allows, with one exception: status belongs to the reconciler, and so does the
finalizer it has set.

Two histories are kept beside the state, for the statements about runs; nothing
that is computed depends on them.
-/

namespace Peering

/-- `PeeringLeg`: one end of the link, and whether it has been written. -/
structure Leg where
  network : String
  connectIP : String
  applied : Bool := false
  deriving DecidableEq

/-- A condition of the status, with the generation it was observed at. -/
structure StatusCondition extends Condition where
  observedGeneration : Nat
  deriving DecidableEq

/-- `ManagedNetworkPeeringStatus`. -/
structure Status where
  observedGeneration : Nat := 0
  linkCIDR : String := ""
  legs : List Leg := []
  accepted : Option StatusCondition := none
  established : Option StatusCondition := none
  trafficAllowed : Option StatusCondition := none
  deriving DecidableEq

/-- `ManagedNetworkPeering`: the two networks and the pinned link of its spec, the
annotations the reconciler reads, and its status. -/
structure PeeringObject where
  a : String
  b : String
  linkCIDR : String := ""
  adopt : Bool := false
  paused : Bool := false
  finalizer : Bool := false
  deleting : Bool := false
  generation : Nat := 1
  status : Status := {}
  deriving DecidableEq

/-- `Vpc`. -/
structure Vpc where
  spec : Option VpcSpec := none
  deleting : Bool := false
  deriving DecidableEq

/-- Something in a router's spec that a peering may write. -/
inductive Item where
  | entry (entry : PeeringEntry)
  | route (route : StaticRoute)
  | policy (policy : PolicyRoute)
  deriving DecidableEq

/-- Everything of that kind in a spec. -/
def VpcSpec.contents (spec : VpcSpec) : List Item :=
  (items spec.vpcPeerings).map .entry ++ (items spec.staticRoutes).map .route ++
    (items spec.policyRoutes).map .policy

/-- What a side consists of. -/
def Side.contents (side : Side) : List Item :=
  .entry side.peering :: (side.routes.map .route ++ side.policies.map .policy)

def Vpc.contents (vpc : Vpc) : List Item := (vpc.spec.getD {}).contents

/-- The spec has an entry towards the network. -/
def VpcSpec.names (spec : VpcSpec) (remote : String) : Bool :=
  (items spec.vpcPeerings).any (·.remote = remote)

def Vpc.names (vpc : Vpc) (remote : String) : Bool := (vpc.spec.getD {}).names remote

/-- The end of a peering object on a router. -/
structure WrittenEnd where
  owner : String
  router : String
  remote : String
  deriving DecidableEq

structure World where
  peerings : Store PeeringObject := ∅
  routers : Store Vpc := ∅
  subnets : List Subnet := []
  clock : Nat := 0
  /-- The ends that objects have written and that still stand. -/
  ends : List WrittenEnd := []
  /-- Everything that some object has written or adopted, by router. -/
  claimed : List (String × Item) := []

/-- What the API server says when it refuses. -/
inductive ApiError where
  | notFound
  | conflict
  | failed (text : String)
  deriving DecidableEq

def ApiError.text : ApiError → String
  | .notFound => "not found"
  | .conflict => "the object has been modified"
  | .failed text => text

/-- What a write of a router is about; the server does not look at it. -/
inductive Purpose where
  | apply (owner remote : String) (side : Side)
  | remove (owner remote : String)
  deriving DecidableEq

inductive Request where
  | getPeering (name : String)
  | updatePeering (name : String) (link : Versioned PeeringObject)
  | updateStatus (name : String) (link : Versioned PeeringObject)
  | listPeerings
  | getVpc (name : String)
  | updateVpc (name : String) (vpc : Versioned Vpc) (purpose : Purpose)
  | listVpcs
  | listSubnets

/-- What a request that succeeds returns. -/
@[reducible] def Request.Result : Request → Type
  | .getPeering _ => Versioned PeeringObject
  | .updatePeering _ _ => Versioned PeeringObject
  | .updateStatus _ _ => Versioned PeeringObject
  | .listPeerings => List (String × PeeringObject)
  | .getVpc _ => Versioned Vpc
  | .updateVpc _ _ _ => Unit
  | .listVpcs => List Vpc
  | .listSubnets => List Subnet

abbrev Request.Response (r : Request) : Type := Except ApiError r.Result

namespace World

variable (w : World)

/-- The ends that still stand once a router has a new spec, or none. -/
def endsAfter (router : String) (spec : Option VpcSpec) : List WrittenEnd :=
  w.ends.filter fun e => e.router ≠ router ∨ (spec.getD {}).names e.remote = true

/-- A router's new content, under a new version. -/
def putRouter (name : String) (vpc : Vpc) : World :=
  { w with
    routers := w.routers.insert name ⟨w.clock + 1, vpc⟩
    clock := w.clock + 1
    ends := w.endsAfter name vpc.spec }

/-- A peering object's new content, under a new version. -/
def putPeering (name : String) (link : PeeringObject) : World :=
  { w with
    peerings := w.peerings.insert name ⟨w.clock + 1, link⟩
    clock := w.clock + 1 }

def erasePeering (name : String) : World :=
  { w with peerings := w.peerings.erase name, clock := w.clock + 1 }

def eraseRouter (name : String) : World :=
  { w with
    routers := w.routers.erase name
    clock := w.clock + 1
    ends := w.ends.filter (·.router ≠ name) }

@[simp] theorem putRouter_peerings (name : String) (vpc : Vpc) :
    (w.putRouter name vpc).peerings = w.peerings := rfl

@[simp] theorem putRouter_clock (name : String) (vpc : Vpc) :
    (w.putRouter name vpc).clock = w.clock + 1 := rfl

@[simp] theorem putPeering_routers (name : String) (link : PeeringObject) :
    (w.putPeering name link).routers = w.routers := rfl

/-- Note what a write of a router was about: an end stands if its entry is there. -/
def record (router : String) (vpc : Vpc) : Purpose → World
  | .apply owner remote side =>
    { w with
      ends := if vpc.names remote = true then ⟨owner, router, remote⟩ :: w.ends else w.ends
      claimed := side.contents.map (router, ·) ++ w.claimed }
  | .remove _ _ => w

/-- What taking a peering off a router would remove. -/
def removable (router remote : String) : List Item :=
  match w.routers.lookup router with
  | none => []
  | some vpc =>
    vpc.value.contents.filter (· ∉ (removeSide (vpc.value.spec.getD {}) remote).contents)

/-- An object whose first legs are recorded under the adopt annotation takes over
whatever it would remove. -/
def adopted (link : PeeringObject) (legs : List Leg) : World :=
  if link.adopt = true ∧ link.status.legs = [] then
    match legs with
    | [x, y] =>
      { w with
        claimed := (w.removable x.network y.network).map (x.network, ·) ++
          (w.removable y.network x.network).map (y.network, ·) ++ w.claimed }
    | _ => w
  else w

end World

/-- The answer to a request that is carried out, and the state afterwards. -/
def commit (w : World) : (r : Request) → r.Response × World
  | .getPeering name =>
    match w.peerings.lookup name with
    | none => (.error .notFound, w)
    | some link => (.ok link, w)
  | .updatePeering name link =>
    match w.peerings.lookup name with
    | none => (.error .notFound, w)
    | some current =>
      if current.version ≠ link.version then (.error .conflict, w)
      else
        -- the status is a subresource, and a deletion is not taken back
        let value := { link.value with
          status := current.value.status, deleting := current.value.deleting }
        if value.deleting = true ∧ value.finalizer = false then
          (.ok ⟨w.clock + 1, value⟩, w.erasePeering name)
        else (.ok ⟨w.clock + 1, value⟩, w.putPeering name value)
  | .updateStatus name link =>
    match w.peerings.lookup name with
    | none => (.error .notFound, w)
    | some current =>
      if current.version ≠ link.version then (.error .conflict, w)
      else
        let value := { current.value with status := link.value.status }
        (.ok ⟨w.clock + 1, value⟩,
          (w.adopted current.value link.value.status.legs).putPeering name value)
  | .listPeerings => (.ok (w.peerings.entries.map fun e => (e.1, e.2.value)), w)
  | .getVpc name =>
    match w.routers.lookup name with
    | none => (.error .notFound, w)
    | some vpc => (.ok vpc, w)
  | .updateVpc name vpc purpose =>
    match w.routers.lookup name with
    | none => (.error .notFound, w)
    | some current =>
      if current.version ≠ vpc.version then (.error .conflict, w)
      else
        let value := { vpc.value with deleting := current.value.deleting }
        (.ok (), (w.putRouter name value).record name value purpose)
  | .listVpcs => (.ok (w.routers.entries.map (·.2.value)), w)
  | .listSubnets => (.ok w.subnets, w)

/-- What becomes of a request: it is carried out, it fails, or it is carried out
and reported failed. -/
inductive Fault where
  | none
  | failed (text : String)
  | lost (text : String)

def serve (fault : Fault) (w : World) (r : Request) : r.Response × World :=
  match fault with
  | .none => commit w r
  | .failed text => (.error (.failed text), w)
  | .lost text => (.error (.failed text), (commit w r).2)

/-- What everybody else may do. -/
inductive Action where
  | createPeering (name a b linkCIDR : String) (adopt paused : Bool)
  | editPeering (name a b linkCIDR : String)
  | annotatePeering (name : String) (adopt paused : Bool)
  | deletePeering (name : String)
  | createRouter (name : String) (spec : Option VpcSpec)
  | writeRouter (name : String) (spec : Option VpcSpec)
  | deleteRouter (name : String)
  | removeRouter (name : String)
  | setSubnets (subnets : List Subnet)

/-- One action of somebody else; one that does not apply changes nothing. -/
def act (action : Action) (w : World) : World :=
  match action with
  | .createPeering name a b linkCIDR adopt paused =>
    match w.peerings.lookup name with
    | none => w.putPeering name { a, b, linkCIDR, adopt, paused }
    | some _ => w
  | .editPeering name a b linkCIDR =>
    match w.peerings.lookup name with
    | none => w
    | some link =>
      w.putPeering name
        { link.value with a, b, linkCIDR, generation := link.value.generation + 1 }
  | .annotatePeering name adopt paused =>
    match w.peerings.lookup name with
    | none => w
    | some link => w.putPeering name { link.value with adopt, paused }
  | .deletePeering name =>
    match w.peerings.lookup name with
    | none => w
    | some link =>
      if link.value.finalizer = true then
        w.putPeering name { link.value with deleting := true }
      else w.erasePeering name
  | .createRouter name spec =>
    match w.routers.lookup name with
    | none => w.putRouter name { spec }
    | some _ => w
  | .writeRouter name spec =>
    match w.routers.lookup name with
    | none => w
    | some vpc => w.putRouter name { vpc.value with spec }
  | .deleteRouter name =>
    match w.routers.lookup name with
    | none => w
    | some vpc => w.putRouter name { vpc.value with deleting := true }
  | .removeRouter name => w.eraseRouter name
  | .setSubnets subnets => { w with subnets }

section Act

variable (action : Action) (w : World)

/-- The others never touch a status, take no finalizer off, and undo no deletion;
the networks of an object change by an edit only, and the spec of a router by writing one. -/
theorem act_cases : (∃ name link, act action w = w.putPeering name link ∧
      ((w.peerings.lookup name = none ∧ link.status = {} ∧ link.finalizer = false) ∨
        ∃ old, w.peerings.lookup name = some old ∧ link.status = old.value.status ∧
          link.finalizer = old.value.finalizer ∧
          (link.a = old.value.a ∧ link.b = old.value.b ∨
            ∃ linkCIDR, action = .editPeering name link.a link.b linkCIDR))) ∨
    (∃ name old, w.peerings.lookup name = some old ∧ old.value.finalizer = false ∧
      act action w = w.erasePeering name) ∨ (∃ name vpc, act action w = w.putRouter name vpc ∧
      (∀ old, w.routers.lookup name = some old → old.value.deleting = true →
        vpc.deleting = true) ∧
      ((∃ old, w.routers.lookup name = some old ∧ old.value.spec = vpc.spec) ∨
        action = .createRouter name vpc.spec ∨ action = .writeRouter name vpc.spec)) ∨
    (∃ name, act action w = w.eraseRouter name) ∨ ∃ subnets, act action w = { w with subnets } := by
  have same : ∃ subnets, w = { w with subnets } := ⟨w.subnets, rfl⟩
  cases action with
  | createPeering name a b linkCIDR adopt paused =>
    cases hlookup : w.peerings.lookup name with
    | none =>
      exact .inl ⟨name, { a, b, linkCIDR, adopt, paused }, by simp [act, hlookup],
        .inl ⟨hlookup, rfl, rfl⟩⟩
    | some old => simpa [act, hlookup] using .inr (.inr (.inr (.inr same)))
  | editPeering name a b linkCIDR =>
    cases hlookup : w.peerings.lookup name with
    | none => simpa [act, hlookup] using .inr (.inr (.inr (.inr same)))
    | some old =>
      exact .inl ⟨name,
        { old.value with a, b, linkCIDR, generation := old.value.generation + 1 },
        by simp [act, hlookup], .inr ⟨old, hlookup, rfl, rfl, .inr ⟨linkCIDR, rfl⟩⟩⟩
  | annotatePeering name adopt paused =>
    cases hlookup : w.peerings.lookup name with
    | none => simpa [act, hlookup] using .inr (.inr (.inr (.inr same)))
    | some old =>
      exact .inl ⟨name, { old.value with adopt, paused }, by simp [act, hlookup],
        .inr ⟨old, hlookup, rfl, rfl, .inl ⟨rfl, rfl⟩⟩⟩
  | deletePeering name =>
    cases hlookup : w.peerings.lookup name with
    | none => simpa [act, hlookup] using .inr (.inr (.inr (.inr same)))
    | some old =>
      by_cases hfin : old.value.finalizer = true
      · exact .inl ⟨name, { old.value with deleting := true }, by simp [act, hlookup, hfin],
          .inr ⟨old, hlookup, rfl, rfl, .inl ⟨rfl, rfl⟩⟩⟩
      · exact .inr (.inl ⟨name, old, hlookup, by simpa using hfin, by simp [act, hlookup, hfin]⟩)
  | createRouter name spec =>
    cases hlookup : w.routers.lookup name with
    | none =>
      exact .inr (.inr (.inl ⟨name, { spec }, by simp [act, hlookup], by simp [hlookup],
        .inr (.inl rfl)⟩))
    | some old => simpa [act, hlookup] using .inr (.inr (.inr (.inr same)))
  | writeRouter name spec =>
    cases hlookup : w.routers.lookup name with
    | none => simpa [act, hlookup] using .inr (.inr (.inr (.inr same)))
    | some old =>
      exact .inr (.inr (.inl ⟨name, { old.value with spec }, by simp [act, hlookup],
        by simp [hlookup], .inr (.inr rfl)⟩))
  | deleteRouter name =>
    cases hlookup : w.routers.lookup name with
    | none => simpa [act, hlookup] using .inr (.inr (.inr (.inr same)))
    | some old =>
      exact .inr (.inr (.inl ⟨name, { old.value with deleting := true },
        by simp [act, hlookup], by simp [hlookup], .inl ⟨old, hlookup, rfl⟩⟩))
  | removeRouter name => exact .inr (.inr (.inr (.inl ⟨name, rfl⟩)))
  | setSubnets subnets => exact .inr (.inr (.inr (.inr ⟨subnets, rfl⟩)))

end Act

section Serve

variable {fault : Fault} {w : World} {r : Request}

theorem serve_world (fault : Fault) (w : World) (r : Request) :
    (serve fault w r).2 = w ∨ (serve fault w r).2 = (commit w r).2 := by
  cases fault with
  | none => exact .inr rfl
  | failed text => exact .inl rfl
  | lost text => exact .inr rfl

theorem serve_ok {x : r.Result} (h : (serve fault w r).1 = .ok x) :
    commit w r = (.ok x, (serve fault w r).2) := by
  cases fault with
  | none => exact Prod.ext h rfl
  | failed text => simp [serve] at h
  | lost text => simp [serve] at h

/-- A write of a router puts a new spec under a new version, and notes what for. -/
theorem commit_updateVpc_world (name : String) (vpc : Versioned Vpc) (purpose : Purpose) :
    (commit w (.updateVpc name vpc purpose)).2 = w ∨
      ∃ current, w.routers.lookup name = some current ∧ current.version = vpc.version ∧
        (commit w (.updateVpc name vpc purpose)).2 =
          (w.putRouter name { vpc.value with deleting := current.value.deleting }).record name
            { vpc.value with deleting := current.value.deleting } purpose := by
  rw [commit]
  cases hlookup : w.routers.lookup name with
  | none => exact .inl rfl
  | some current =>
    by_cases hversion : current.version = vpc.version
    · exact .inr ⟨current, rfl, hversion, by simp [hversion]⟩
    · exact .inl (by simp [hversion])

theorem commit_updateVpc_ok {name : String} {vpc : Versioned Vpc} {purpose : Purpose} {v : World}
    (h : commit w (.updateVpc name vpc purpose) = (.ok (), v)) : ∃ current : Versioned Vpc,
      v = (w.putRouter name { vpc.value with deleting := current.value.deleting }).record name
        { vpc.value with deleting := current.value.deleting } purpose := by
  rw [commit] at h
  cases hlookup : w.routers.lookup name with
  | none => simp [hlookup] at h
  | some current =>
    by_cases hversion : current.version = vpc.version
    · simp only [hlookup, hversion, ne_eq, not_true_eq_false, if_false, Prod.mk.injEq] at h
      exact ⟨current, h.2.symm⟩
    · simp [hlookup, hversion] at h

theorem commit_updateStatus_world (name : String) (link : Versioned PeeringObject) :
    (commit w (.updateStatus name link)).2 = w ∨
      ∃ current, w.peerings.lookup name = some current ∧ current.version = link.version ∧
        (commit w (.updateStatus name link)).2 =
          (w.adopted current.value link.value.status.legs).putPeering name
            { current.value with status := link.value.status } := by
  rw [commit]
  cases hlookup : w.peerings.lookup name with
  | none => exact .inl rfl
  | some current =>
    by_cases hversion : current.version = link.version
    · exact .inr ⟨current, rfl, hversion, by simp [hversion]⟩
    · exact .inl (by simp [hversion])

/-- A write of the object itself leaves its status and its deletion alone; without
its finalizer an object that is being deleted goes. -/
theorem commit_updatePeering_world (name : String) (link : Versioned PeeringObject) :
    (commit w (.updatePeering name link)).2 = w ∨
      ∃ current, w.peerings.lookup name = some current ∧ current.version = link.version ∧
        (commit w (.updatePeering name link)).2 =
          if current.value.deleting = true ∧ link.value.finalizer = false then
            w.erasePeering name
          else w.putPeering name { link.value with
            status := current.value.status, deleting := current.value.deleting } := by
  rw [commit]
  cases hlookup : w.peerings.lookup name with
  | none => exact .inl rfl
  | some current =>
    by_cases hversion : current.version = link.version
    · refine .inr ⟨current, rfl, hversion, ?_⟩
      by_cases hgoes : current.value.deleting = true ∧ link.value.finalizer = false <;>
        simp [hversion, hgoes]
    · exact .inl (by simp [hversion])

theorem commit_getVpc_world (w : World) (router : String) : (commit w (.getVpc router)).2 = w := by
  rw [commit]
  split <;> rfl

theorem commit_rule {P : World → Prop} (h : P w)
    (hpeering : ∀ name link current, r = .updatePeering name link →
      w.peerings.lookup name = some current → current.version = link.version →
      P (if current.value.deleting = true ∧ link.value.finalizer = false then w.erasePeering name
        else w.putPeering name { link.value with
          status := current.value.status, deleting := current.value.deleting }))
    (hstatus : ∀ name link current, r = .updateStatus name link →
      w.peerings.lookup name = some current → current.version = link.version →
      P ((w.adopted current.value link.value.status.legs).putPeering name
        { current.value with status := link.value.status }))
    (hvpc : ∀ name vpc purpose current, r = .updateVpc name vpc purpose →
      w.routers.lookup name = some current → current.version = vpc.version →
      P ((w.putRouter name { vpc.value with deleting := current.value.deleting }).record name
        { vpc.value with deleting := current.value.deleting } purpose)) : P (commit w r).2 := by
  cases r with
  | getPeering name => rw [commit]; split <;> exact h
  | getVpc router => rwa [commit_getVpc_world]
  | listPeerings | listVpcs | listSubnets => exact h
  | updatePeering name link =>
    obtain heq | ⟨current, hcurrent, hversion, heq⟩ := commit_updatePeering_world name link <;>
      rw [heq]
    · exact h
    · exact hpeering name link current rfl hcurrent hversion
  | updateStatus name link =>
    obtain heq | ⟨current, hcurrent, hversion, heq⟩ := commit_updateStatus_world name link <;>
      rw [heq]
    · exact h
    · exact hstatus name link current rfl hcurrent hversion
  | updateVpc name vpc purpose =>
    obtain heq | ⟨current, hcurrent, hversion, heq⟩ := commit_updateVpc_world name vpc purpose <;>
      rw [heq]
    · exact h
    · exact hvpc name vpc purpose current rfl hcurrent hversion

end Serve

end Peering
