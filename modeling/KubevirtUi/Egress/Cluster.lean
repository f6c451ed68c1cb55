import KubevirtUi.Acl.Evaluate
import KubevirtUi.Library.Raising
import KubevirtUi.Library.Store
import KubevirtUi.Peering.Router

/-!
# What an egress gateway is made of

A gateway has a VPC with a Subnet, and a VPC that is attached to it is peered with that one. Who is
attached, and under which address, is written in a ConfigMap. A patch replaces a list as a whole;
only the peerings are written under the version that was read, and the ConfigMap.
-/

namespace Egress

open Peering Interference

abbrev Settings := List (String × String)

structure Vpc where
  labels : Settings
  annotations : Settings
  enableExternal : Bool := false
  bfdPort : Option String := none
  spec : VpcSpec := {}
  deriving DecidableEq

structure Subnet where
  labels : Settings := []
  vpc : String := ""
  provider : String := ""
  cidrBlock : String := ""
  gateway : String := ""
  excludeIps : List String := []
  enableDHCP : Bool := false
  natOutgoing : Option Bool := none
  acls : List Acl.Rule := []
  /-- `status.v4usingIPrange` -/
  usedRange : String := ""
  deriving DecidableEq

/-- What the CNI plugin is given. -/
structure NadConfig where
  cniVersion : String
  type : String
  master : String
  mode : String
  ipamType : String
  serverSocket : String
  provider : String
  deriving DecidableEq

structure NetworkAttachmentDefinition where
  labels : Settings
  config : NadConfig
  deriving DecidableEq

/-- A range of sources, or the Subnets that they are in. -/
structure Policy where
  snat : Option Bool := none
  ipBlocks : Option (List String) := none
  subnets : Option (List String) := none
  deriving DecidableEq

structure VpcEgressGateway where
  labels : Settings := []
  vpc : String := ""
  replicas : Nat := 1
  namePrefix : String := ""
  internalSubnet : String := ""
  externalSubnet : String := ""
  policies : List Policy
  bfd : Bool := false
  /-- the addresses of the pods, in the spec and in the status -/
  internalIPs : List String := []
  observedIPs : List String := []
  externalIPs : List String := []
  bgpConf : Option String := none
  nodeSelector : Settings := []
  deriving DecidableEq

/-- The data of a ConfigMap. -/
abbrev Data := AList fun _ : String => String

/-- The Vpcs, the Subnets, the attachments and the VpcEgressGateways of `kube-system`, and the
ConfigMaps. -/
structure World where
  clock : Nat
  vpcs : Store Vpc
  subnets : AList fun _ : String => Subnet
  nads : AList fun _ : String => NetworkAttachmentDefinition
  gateways : AList fun _ : String => VpcEgressGateway
  allocators : Store Data

/-- An `ApiException`, an `HTTPException`, or any other exception. -/
inductive Failure where
  | api (status : Nat)
  | http (status : Nat) (detail : String)
  | other (text : String)
  deriving DecidableEq

inductive Request where
  | getVpc (name : String)
  | listVpcs
  | createVpc (name : String) (vpc : Vpc)
  | deleteVpc (name : String)
  | patchPeerings (name : String) (version : Nat) (peerings : List PeeringEntry)
  | patchRoutes (name : String) (routes : List StaticRoute)
  | getSubnet (name : String)
  | listSubnets
  | listLabelledSubnets (label value : String)
  | createSubnet (name : String) (subnet : Subnet)
  | deleteSubnet (name : String)
  | patchAcls (name : String) (acls : List Acl.Rule)
  | patchExcludeIps (name : String) (excludeIps : List String)
  | createNad (name : String) (nad : NetworkAttachmentDefinition)
  | getGateway (name : String)
  | listGateways
  | createGateway (name : String) (gateway : VpcEgressGateway)
  | deleteGateway (name : String)
  | patchPolicies (name : String) (policies : List Policy)
  | readAllocator (name : String)
  | replaceAllocator (name : String) (version : Nat) (data : Data)
  | createAllocator (name : String) (data : Data)
  | deleteAllocator (name : String)

@[reducible] def Request.Result : Request → Type
  | .getVpc _ => Versioned Vpc
  | .listVpcs => List (String × Vpc)
  | .getSubnet _ => Subnet
  | .listSubnets => List (String × Subnet)
  | .listLabelledSubnets _ _ => List (String × Subnet)
  | .getGateway _ => VpcEgressGateway
  | .listGateways => List (String × VpcEgressGateway)
  | .readAllocator _ => Versioned Data
  | _ => Unit

abbrev Request.Response (r : Request) : Type := Except Failure r.Result

/-- A patch of the spec; one that changes nothing is no write. -/
def World.patchVpc (w : World) (name : String) (item : Versioned Vpc) (spec : VpcSpec) : World :=
  if spec = item.value.spec then w
  else
    { w with
      clock := w.clock + 1
      vpcs := w.vpcs.insert name ⟨w.clock + 1, { item.value with spec := spec }⟩ }

/-- What a request does that does not fail. -/
def commit (w : World) : (r : Request) → r.Response × World
  | .getVpc name =>
    match w.vpcs.lookup name with
    | none => (.error (.api 404), w)
    | some item => (.ok item, w)
  | .listVpcs => (.ok (w.vpcs.entries.map fun e => (e.1, e.2.value)), w)
  | .createVpc name vpc =>
    match w.vpcs.lookup name with
    | none =>
      (.ok (), { w with clock := w.clock + 1, vpcs := w.vpcs.insert name ⟨w.clock + 1, vpc⟩ })
    | some _ => (.error (.api 409), w)
  | .deleteVpc name =>
    match w.vpcs.lookup name with
    | none => (.error (.api 404), w)
    | some _ => (.ok (), { w with vpcs := w.vpcs.erase name })
  | .patchPeerings name version peerings =>
    match w.vpcs.lookup name with
    | none => (.error (.api 404), w)
    | some item =>
      if version = item.version then
        (.ok (), w.patchVpc name item { item.value.spec with vpcPeerings := some peerings })
      else (.error (.api 409), w)
  | .patchRoutes name routes =>
    match w.vpcs.lookup name with
    | none => (.error (.api 404), w)
    | some item =>
      (.ok (), w.patchVpc name item { item.value.spec with staticRoutes := some routes })
  | .getSubnet name =>
    match w.subnets.lookup name with
    | none => (.error (.api 404), w)
    | some subnet => (.ok subnet, w)
  | .listSubnets => (.ok (w.subnets.entries.map fun e => (e.1, e.2)), w)
  | .listLabelledSubnets label value =>
    (.ok ((w.subnets.entries.map fun e => (e.1, e.2)).filter fun item =>
      item.2.labels.lookup label = some value), w)
  | .createSubnet name subnet =>
    match w.subnets.lookup name with
    | none => (.ok (), { w with subnets := w.subnets.insert name subnet })
    | some _ => (.error (.api 409), w)
  | .deleteSubnet name =>
    match w.subnets.lookup name with
    | none => (.error (.api 404), w)
    | some _ => (.ok (), { w with subnets := w.subnets.erase name })
  | .patchAcls name acls =>
    match w.subnets.lookup name with
    | none => (.error (.api 404), w)
    | some subnet => (.ok (), { w with subnets := w.subnets.insert name { subnet with acls } })
  | .patchExcludeIps name excludeIps =>
    match w.subnets.lookup name with
    | none => (.error (.api 404), w)
    | some subnet =>
      (.ok (), { w with subnets := w.subnets.insert name { subnet with excludeIps } })
  | .createNad name nad =>
    match w.nads.lookup name with
    | none => (.ok (), { w with nads := w.nads.insert name nad })
    | some _ => (.error (.api 409), w)
  | .getGateway name =>
    match w.gateways.lookup name with
    | none => (.error (.api 404), w)
    | some gateway => (.ok gateway, w)
  | .listGateways => (.ok (w.gateways.entries.map fun e => (e.1, e.2)), w)
  | .createGateway name gateway =>
    match w.gateways.lookup name with
    | none => (.ok (), { w with gateways := w.gateways.insert name gateway })
    | some _ => (.error (.api 409), w)
  | .deleteGateway name =>
    match w.gateways.lookup name with
    | none => (.error (.api 404), w)
    | some _ => (.ok (), { w with gateways := w.gateways.erase name })
  | .patchPolicies name policies =>
    match w.gateways.lookup name with
    | none => (.error (.api 404), w)
    | some gateway =>
      (.ok (), { w with gateways := w.gateways.insert name { gateway with policies } })
  | .readAllocator name =>
    match w.allocators.lookup name with
    | none => (.error (.api 404), w)
    | some item => (.ok item, w)
  | .replaceAllocator name version data =>
    match w.allocators.lookup name with
    | none => (.error (.api 404), w)
    | some item =>
      if version = item.version then
        (.ok (), { w with
          clock := w.clock + 1, allocators := w.allocators.insert name ⟨w.clock + 1, data⟩ })
      else (.error (.api 409), w)
  | .createAllocator name data =>
    match w.allocators.lookup name with
    | none =>
      (.ok (), { w with
        clock := w.clock + 1, allocators := w.allocators.insert name ⟨w.clock + 1, data⟩ })
    | some _ => (.error (.api 409), w)
  | .deleteAllocator name =>
    match w.allocators.lookup name with
    | none => (.error (.api 404), w)
    | some _ => (.ok (), { w with allocators := w.allocators.erase name })

/-- A request may fail for any reason, and has no effect then. -/
abbrev Fault := Option Failure

def serve (fault : Fault) (w : World) (r : Request) : r.Response × World :=
  match fault with
  | none => commit w r
  | some e => (.error e, w)

end Egress
