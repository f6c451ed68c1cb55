import KubevirtUi.Library.Crowd
import KubevirtUi.Library.Store
import KubevirtUi.Vpcs.Sides

/-!
# Routers, and what requests do to them

A request reads a Vpc, lists the Subnets, and sends patches. A patch of lists replaces them whole;
one that names a version is refused where the object has another by now, and one that names none is
merged into whatever is there. What a patch is for, and from what it was computed, is written
beside it here, and is seen by nobody.

The log says what has been done to the routers, and what was seen of the Subnets.
-/

namespace Vpcs

open Peering Interference

variable {ι : Type}

/-- A Subnet with finalizers is only marked when it is deleted, and goes when others are done. -/
structure Subnet where
  name : String
  vpc : Option String := none
  cidrBlock : String := ""
  finalizers : Bool := false
  terminating : Bool := false
  deriving DecidableEq

/-- What the operator keeps of a peering that it makes itself. -/
structure Record where
  name : String
  networks : List String
  deriving DecidableEq

/-- The two addresses of a link, and its network. -/
structure Link where
  localIP : String
  remoteIP : String
  cidr : String
  ne : localIP ≠ remoteIP
  local_slash : '/' ∉ localIP.toList
  remote_slash : '/' ∉ remoteIP.toList
  deriving DecidableEq

/-- What there is besides the routers. -/
structure Around where
  subnets : List Subnet
  records : List Record
  /-- the ManagedNetworks, and whether deleting one takes the network with it -/
  networks : List (String × Bool)
  /-- the external subnet of the gateway of a VPC -/
  gateways : List (String × String)
  /-- the objects of gateways: kind, VPC and name -/
  nat : List (String × String × String)
  /-- the link that is allocated next -/
  link : Link
  /-- whether the time to wait has passed -/
  late : Bool

/-- An `ApiException`, an `HTTPException`, a kind that the cluster does not have, an error of the
operator that wraps another, or any other exception. -/
inductive Failure where
  | api (status : Nat)
  | http (status : Nat) (detail : String)
  | noMatch
  | wrapped (doing : String) (cause : Failure)
  | other (text : String)
  deriving DecidableEq

/-- What the Subnets are looked at for: the routes to them, or a deletion, for which they are
listed and then looked up one by one. -/
inductive Purpose where
  | routes
  | deletion
  | presence
  deriving DecidableEq

/-- What a patch is for: a side is laid down, taken away or rolled back, or the way out of a
gateway is taken away. -/
inductive Reason where
  | lay (side : Side)
  | take (remote : String) (cidrs : List String) (read : VpcSpec) (undo : Bool)
  | clean (read : VpcSpec)
  deriving DecidableEq

/-- What a client has done or seen, or was about to do: it has missed a router that it could not
read or write, it has named a Vpc for deletion, or a record to the operator. -/
inductive Event (ι : Type) where
  | laid (client : ι) (router : String) (side : Side)
  | taken (client : ι) (router remote : String) (undo : Bool)
  | cleaned (client : ι) (router : String)
  | deleting (client : ι) (router : String)
  | missed (client : ι) (router : String)
  | listed (client : ι) (vpc : String) (remotes : Except Failure (List String))
  | handed (client : ι) (record : String)
  | looked (client : ι) (purpose : Purpose) (found : Except Failure (List Subnet))

structure World (ι : Type) where
  clock : Nat
  routers : Store VpcSpec
  around : Around
  log : List (Event ι)

/-- What concerns neither the lists of a router nor the Subnets. -/
inductive Errand where
  | reconcileIsolationAcls
  | vpcDns
  | vpcDnsPolicy
  | natObjects
  | tracking
  | status
  | finalizer

inductive Request where
  | getVpc (name : String)
  | getVpcPeerings (name : String)
  | patchVpc (name : String) (version : Option Nat) (patch : VpcSpec) (reason : Reason)
  | deleteVpc (name : String)
  | listSubnets (purpose : Purpose)
  | getSubnet (name : String)
  | deleteSubnet (name : String)
  | getRecord (name : String)
  | listRecords
  | deleteRecord (name : String)
  | allocateLink
  | getNetwork (name : String)
  | deleteNetwork (name : String)
  | getTracking (name : String)
  | listNat (plural vpc : String)
  | getNat (plural name : String)
  | late
  | errand (e : Errand)

@[reducible] def Request.Result : Request → Type
  | .getVpc _ => Versioned VpcSpec
  | .getVpcPeerings _ => VpcSpec
  | .listSubnets _ => List Subnet
  | .getSubnet _ => Subnet
  | .listRecords => List Record
  | .allocateLink => Link
  | .getNetwork _ => Bool
  | .getTracking _ => Option String
  | .listNat .. => List String
  | .late => Bool
  | _ => Unit

abbrev Request.Response (r : Request) : Type := Except Failure r.Result

/-- The networks that the entries lead to; an absent text reads as an empty one. -/
def remotesOf (spec : VpcSpec) : List String :=
  (items spec.vpcPeerings).map PeeringEntry.remote

/-- A merge patch replaces the lists that it has. -/
def merge (spec patch : VpcSpec) : VpcSpec where
  vpcPeerings := patch.vpcPeerings.or spec.vpcPeerings
  staticRoutes := patch.staticRoutes.or spec.staticRoutes
  policyRoutes := patch.policyRoutes.or spec.policyRoutes

def Reason.event (i : ι) (router : String) : Reason → Event ι
  | .lay side => .laid i router side
  | .take remote _ _ undo => .taken i router remote undo
  | .clean _ => .cleaned i router

def World.note (w : World ι) (e : Event ι) : World ι := { w with log := w.log ++ [e] }

/-- A patch is merged; one that changes nothing is no write. -/
def World.patched (w : World ι) (name : String) (item : Versioned VpcSpec) (patch : VpcSpec)
    (e : Event ι) : World ι :=
  if merge item.value patch = item.value then w.note e
  else
    { w with
      clock := w.clock + 1
      routers := w.routers.insert name ⟨w.clock + 1, merge item.value patch⟩
      log := w.log ++ [e] }

/-- What a deletion makes of the Subnets. -/
def deleteSubnet (name : String) (subnets : List Subnet) : List Subnet :=
  (subnets.filter fun s => s.name ≠ name ∨ s.finalizers).map fun s =>
    if s.name = name then { s with terminating := true } else s

/-- What a request does that does not fail. -/
def commit (i : ι) (w : World ι) : (r : Request) → r.Response × World ι
  | .getVpc name =>
    match w.routers.lookup name with
    | none => (.error (.api 404), w)
    | some item => (.ok item, w)
  | .getVpcPeerings name =>
    match w.routers.lookup name with
    | none => (.error (.api 404), w.note (.listed i name (.ok [])))
    | some item => (.ok item.value, w.note (.listed i name (.ok (remotesOf item.value))))
  | .patchVpc name version patch reason =>
    match w.routers.lookup name with
    | none => (.error (.api 404), w)
    | some item =>
      if version.all (· = item.version) then
        (.ok (), w.patched name item patch (reason.event i name))
      else (.error (.api 409), w)
  | .deleteVpc name =>
    match w.routers.lookup name with
    | none => (.error (.api 404), w.note (.deleting i name))
    | some _ => (.ok (), { w with routers := w.routers.erase name }.note (.deleting i name))
  | .listSubnets purpose =>
    (.ok w.around.subnets, w.note (.looked i purpose (.ok w.around.subnets)))
  | .getSubnet name =>
    (match w.around.subnets.find? (·.name = name) with
      | none => .error (.api 404)
      | some s => .ok s,
    w.note (.looked i .presence (.ok w.around.subnets)))
  | .deleteSubnet name =>
    if w.around.subnets.any (·.name = name) then
      (.ok (), { w with around.subnets := deleteSubnet name w.around.subnets })
    else (.error (.api 404), w)
  | .getRecord name =>
    (if w.around.records.any (·.name = name) then .ok () else .error (.api 404), w)
  | .listRecords => (.ok w.around.records, w)
  | .deleteRecord name =>
    (if w.around.records.any (·.name = name) then .ok () else .error (.api 404),
      w.note (.handed i name))
  | .allocateLink => (.ok w.around.link, w)
  | .getNetwork name =>
    match w.around.networks.lookup name with
    | none => (.error (.api 404), w)
    | some cascades => (.ok cascades, w)
  | .deleteNetwork name =>
    (if (w.around.networks.lookup name).isSome then .ok () else .error (.api 404), w)
  | .getTracking name => (.ok (w.around.gateways.lookup name), w)
  | .listNat plural vpc =>
    (.ok ((w.around.nat.filter fun o => o.1 = plural ∧ o.2.1 = vpc).map (·.2.2)), w)
  | .getNat plural name =>
    (if w.around.nat.any (fun o => o.1 = plural ∧ o.2.2 = name) then .ok ()
      else .error (.api 404), w)
  | .late => (.ok w.around.late, w)
  | .errand _ => (.ok (), w)

/-- A request may fail for any reason but that the object is not there, and has no effect then. -/
abbrev Fault := Option { e : Failure // e ≠ .api 404 }

/-- What is noted of a request that fails. -/
def refused (i : ι) (e : Failure) (w : World ι) : Request → World ι
  | .getVpc name => w.note (.missed i name)
  | .getVpcPeerings name => w.note (.listed i name (.error e))
  | .patchVpc name .. => w.note (.missed i name)
  | .listSubnets purpose => w.note (.looked i purpose (.error e))
  | .getSubnet _ => w.note (.looked i .presence (.error e))
  | .deleteVpc name => w.note (.deleting i name)
  | .deleteRecord name => w.note (.handed i name)
  | _ => w

def serve (i : ι) (fault : Fault) (w : World ι) (r : Request) : r.Response × World ι :=
  match fault with
  | none => commit i w r
  | some e => (.error e.1, refused i e.1 w r)

/-- What others do: they change what is around, or something about a router that is not in its
lists. -/
inductive Action where
  | change (around : Around)
  | touch (name : String)

def act (a : Action) (w : World ι) : World ι :=
  match a with
  | .change around => { w with around := around }
  | .touch name =>
    match w.routers.lookup name with
    | none => w
    | some item =>
      { w with
        clock := w.clock + 1
        routers := w.routers.insert name ⟨w.clock + 1, item.value⟩ }

end Vpcs
