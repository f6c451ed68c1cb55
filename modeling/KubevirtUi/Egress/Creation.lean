import KubevirtUi.Allocators.Ranges
import KubevirtUi.Egress.Hub
import Mathlib.Data.List.Infix

/-!
# Creating an egress gateway, and taking it away

A gateway is a VPC with a Subnet, a `VpcEgressGateway` in it, and a ConfigMap for the addresses that
it will give away; for an external network of its own it has an attachment and another Subnet. What
an unfinished creation has made is taken away by name and by label.
-/

namespace Egress

open Peering Interference Python Python.Ipaddress

section Ranges

variable (parse6 : String → Option (Block 128))

/-- `ip_network`, or a `ValueError` -/
def readNetwork (cidr : String) : Call Network :=
  match ipNetwork parse6 cidr with
  | some n => pure n
  | none => throw (.other ("'" ++ cidr ++ "' does not appear to be an IPv4 or IPv6 network"))

def cidrsOverlap (cidr1 cidr2 : String) : Call Bool := do
  let n1 ← readNetwork parse6 cidr1
  let n2 ← readNetwork parse6 cidr2
  return n1.overlaps n2

/-- Neither range overlaps one of the Subnets. -/
def checkSubnets (gwVpcCIDR transitCIDR : String) : List (String × Subnet) → Call Unit
  | [] => pure ()
  | (name, subnet) :: rest => do
    if subnet.cidrBlock = "" then checkSubnets gwVpcCIDR transitCIDR rest
    else if ← cidrsOverlap parse6 gwVpcCIDR subnet.cidrBlock then
      throw (.http 422 ("Gateway VPC CIDR (" ++ gwVpcCIDR ++ ") overlaps with existing subnet '" ++
        name ++ "' (" ++ subnet.cidrBlock ++ ")"))
    else if ← cidrsOverlap parse6 transitCIDR subnet.cidrBlock then
      throw (.http 422 ("Transit CIDR (" ++ transitCIDR ++ ") overlaps with existing subnet '" ++
        name ++ "' (" ++ subnet.cidrBlock ++ ")"))
    else checkSubnets gwVpcCIDR transitCIDR rest

/-- Where the Subnets cannot be listed they are not checked. -/
def validateCidrNoOverlap (gwVpcCIDR transitCIDR : String) : Call Unit := do
  if ← cidrsOverlap parse6 gwVpcCIDR transitCIDR then
    throw (.http 422 ("Gateway VPC CIDR (" ++ gwVpcCIDR ++ ") and transit CIDR (" ++ transitCIDR ++
      ") overlap"))
  else
    match ← exceptApi (do return some (← ask .listSubnets)) fun _ => pure none with
    | none => return ()
    | some subnets => checkSubnets parse6 gwVpcCIDR transitCIDR subnets

end Ranges

/-- An address of a network by its number, or an `AddressValueError`. -/
def addressIn (cidr : String) (number : Nat) : Call String := do
  let p ← transitNetwork cidr
  if 2 ^ 32 ≤ p.base.toNat + number then
    throw (.other (toString (p.base.toNat + number) ++ " (>= 2**32) is not permitted"))
  else return addressText (p.base + BitVec.ofNat 32 number)

/-- `text.partition(separator)`, for a separator of one or two characters. -/
def partitionText (separator text : List Char) : List Char × List Char :=
  match text with
  | [] => ([], [])
  | c :: rest =>
    if separator.isPrefixOf (c :: rest) then ([], (c :: rest).drop separator.length)
    else (c :: (partitionText separator rest).1, (partitionText separator rest).2)

/-- The addresses from one to another, unless they are absurdly many. -/
def spanned (first last : Nat) : List String :=
  if last - first > 4096 then []
  else (List.range (last + 1 - first)).map fun i => addressText (BitVec.ofNat 32 (first + i))

def expandEntry (entry : String) : List String :=
  let text := strip entry.toList
  if ['.', '.'] <:+: text then
    let (start, stop) := partitionText ['.', '.'] text
    match ipIntFromString (strip start), ipIntFromString (strip stop) with
    | some first, some last => spanned first last
    | _, _ => []
  else if text = [] then [] else [String.ofList text]

def expandExcluded (entries : List String) : List String := entries.flatMap expandEntry

def expandSpan (span : List Char) : List String :=
  if span = [] then []
  else
    let (start, stop) := partitionText ['-'] span
    let stop := if strip stop = [] then strip start else strip stop
    match ipIntFromString (strip start), ipIntFromString stop with
    | some first, some last => spanned first last
    | _, _ => []

def expandStatusRanges (entry : String) : List String :=
  (entry.toList.splitOn ',').flatMap fun span => expandSpan (strip span)

def beforeSlash (ip : String) : String := String.ofList (ip.toList.takeWhile (· ≠ '/'))

def addressesPinnedElsewhere : Call (List String) :=
  exceptApi (do
    let gateways ← ask .listGateways
    return gateways.flatMap fun item =>
      (item.2.internalIPs ++ item.2.externalIPs).map beforeSlash) fun _ => pure []

def freeAddresses (subnetName : String) (count : Nat) (taken : List String) :
    Call (List String) := do
  match ← exceptApi (do return some (← ask (.getSubnet subnetName))) fun _ => pure none with
  | none => return []
  | some subnet =>
    if subnet.cidrBlock = "" then return []
    else do
      let blocked := taken ++ expandExcluded subnet.excludeIps ++
        (if subnet.gateway = "" then [] else [subnet.gateway]) ++
        expandStatusRanges subnet.usedRange
      let p ← transitNetwork subnet.cidrBlock
      let free := ((hosts p).map addressText).filter (· ∉ blocked)
      -- the loop stops when there are that many, and so it does not for none
      return if count = 0 then free else free.take count

/-- One internal and one external address for each replica. -/
def allocateGatewayIps (internalSubnet externalSubnet : String) (replicas : Nat) :
    Call (List String × List String) := do
  let taken ← addressesPinnedElsewhere
  let internal ← freeAddresses internalSubnet replicas taken
  let external ← freeAddresses externalSubnet replicas (taken ++ internal)
  return (internal, external)

def cleanupGatewayVpc (gwVpcName : String) : Call Unit :=
  exceptApi (ask (.deleteVpc gwVpcName)) fun _ => pure ()

/-- What one record says of a VPC is taken from that VPC. -/
def unpeer (gwVpcName tenantVpc record : String) : Call Unit :=
  exceptApi (do
    removeVpcPeering tenantVpc gwVpcName
    let transit := (splitComma record).head?.getD ""
    removeStaticRoute tenantVpc defaultCIDR (if transit = "" then none else some transit))
    fun _ => pure ()

def unpeerAll (gwVpcName : String) : List (String × String) → Call Unit
  | [] => pure ()
  | (tenantVpc, record) :: rest => do
    unpeer gwVpcName tenantVpc record
    unpeerAll gwVpcName rest

def deleteSubnets : List (String × Subnet) → Call Unit
  | [] => pure ()
  | (name, _) :: rest => do
    exceptApi (ask (.deleteSubnet name)) fun _ => pure ()
    deleteSubnets rest

/-- What is still there of a gateway. -/
def gatewayLeft (gatewayName : String) : Call (List String) := do
  let gateway := "vpc-egress-gateway/" ++ gatewayName
  let left ← exceptApi (do let _ ← ask (.getGateway gatewayName); return [gateway]) fun status =>
    if status ≠ 404 then pure [gateway] else pure []
  exceptApi (do
    let found ← ask (.listLabelledSubnets gatewayLabel gatewayName)
    return left ++ found.map fun item => "subnet/" ++ item.1) fun _ => pure left

/-- Look again so many times before the deadline. -/
def awaitGatewayGone (gatewayName : String) : Nat → Call (List String)
  | 0 => gatewayLeft gatewayName
  | again + 1 => do
    let left ← gatewayLeft gatewayName
    if left = [] then return [] else awaitGatewayGone gatewayName again

/-- The VPCs of a record, with what is recorded. -/
def attachedVpcs (data : Data) : List (String × String) :=
  (data.entries.filter fun e => "vpc.".isPrefixOf e.1).map fun e =>
    (String.ofList (e.1.toList.drop 4), e.2)

section Cleanup

/- How often the endpoint looks again whether everything is gone. -/
variable (again : Nat)

def cleanupGatewayResources (gatewayName : String) : Call (List String) := do
  exceptApi (ask (.deleteGateway gatewayName)) fun _ => pure ()
  let (data, _) ← getTransitAllocator gatewayName
  unpeerAll (gatewayVpc gatewayName) (attachedVpcs data)
  exceptApi (do
    let found ← ask (.listLabelledSubnets gatewayLabel gatewayName)
    deleteSubnets found) fun _ => pure ()
  let left ← awaitGatewayGone gatewayName again
  if left ≠ [] then return left
  else do
    cleanupGatewayVpc (gatewayVpc gatewayName)
    return []

end Cleanup

def managedLabel : String := "kubevirt-ui.io/managed"

structure CreateRequest where
  name : String
  gwVpcCIDR : String
  transitCIDR : String
  macvlanSubnet : Option String := none
  externalInterface : Option String := none
  externalCIDR : Option String := none
  externalGateway : Option String := none
  replicas : Nat := 2
  bfdEnabled : Bool := false
  bgpConf : Option String := none
  snat : Bool := true
  externalIps : List String := []
  nodeSelector : Settings := []
  excludeIps : List String := []
  deriving DecidableEq

/-- A text that is there and not empty. -/
def given (text : Option String) : Prop := text.getD "" ≠ ""

instance (text : Option String) : Decidable (given text) := inferInstanceAs (Decidable (_ ≠ _))

/-- What the addresses of the two ranges come to. -/
structure Plan where
  gwGateway : String
  transitGateway : String
  bfdPort : Option String
  deriving DecidableEq

namespace CreateRequest

variable (data : CreateRequest)

/-- The external network is to be made, too. -/
def createExternal : Prop :=
  given data.externalInterface ∧ given data.externalCIDR ∧ given data.externalGateway

instance : Decidable data.createExternal := inferInstanceAs (Decidable (_ ∧ _ ∧ _))

def externalSubnet : String :=
  if given data.macvlanSubnet then data.macvlanSubnet.getD ""
  else "egw-" ++ data.name ++ "-external"

def gwSubnet : String := "egw-" ++ data.name ++ "-subnet"

def nadName : String := "egw-" ++ data.name ++ "-macvlan"

def provider : String := data.nadName ++ ".kube-system"

def ownLabels : Settings := [(managedLabel, "true"), (gatewayLabel, data.name)]

def ownAnnotations : Settings :=
  [("kubevirt-ui.io/gw-vpc-cidr", data.gwVpcCIDR),
    ("kubevirt-ui.io/transit-cidr", data.transitCIDR),
    ("kubevirt-ui.io/macvlan-subnet", data.externalSubnet)] ++
  (if data.excludeIps = [] then []
    else [("kubevirt-ui.io/exclude-ips", ",".intercalate data.excludeIps)]) ++
  if data.createExternal then
    [("kubevirt-ui.io/external-interface", data.externalInterface.getD ""),
      ("kubevirt-ui.io/external-cidr", data.externalCIDR.getD ""),
      ("kubevirt-ui.io/external-gateway", data.externalGateway.getD "")]
  else []

def vpcManifest (plan : Plan) : Vpc where
  labels := data.ownLabels
  annotations := data.ownAnnotations
  enableExternal := true
  bfdPort := plan.bfdPort

def gwSubnetManifest (plan : Plan) : Subnet where
  labels := data.ownLabels
  cidrBlock := data.gwVpcCIDR
  gateway := plan.gwGateway
  vpc := gatewayVpc data.name
  enableDHCP := true
  natOutgoing := some false

def nadManifest : NetworkAttachmentDefinition where
  labels := data.ownLabels
  config := {
    cniVersion := "0.3.0"
    type := "macvlan"
    master := data.externalInterface.getD ""
    mode := "bridge"
    ipamType := "kube-ovn"
    serverSocket := "/run/openvswitch/kube-ovn-daemon.sock"
    provider := data.provider }

def extSubnetManifest : Subnet where
  labels := data.ownLabels
  provider := data.provider
  cidrBlock := data.externalCIDR.getD ""
  gateway := data.externalGateway.getD ""
  excludeIps := data.excludeIps

def vegManifest (internalIPs externalIPs : List String) : VpcEgressGateway where
  labels := data.ownLabels
  vpc := gatewayVpc data.name
  replicas := data.replicas
  namePrefix := data.name
  internalSubnet := data.gwSubnet
  externalSubnet := data.externalSubnet
  policies := [{ snat := some data.snat, subnets := some [data.gwSubnet] }]
  bfd := data.bfdEnabled
  internalIPs := internalIPs
  externalIPs := if data.externalIps = [] then externalIPs else data.externalIps
  bgpConf := if given data.bgpConf then data.bgpConf else none
  nodeSelector := data.nodeSelector

end CreateRequest

structure GatewayResponse where
  name : String
  gwVpcName : String
  gwVpcCIDR : String
  transitCIDR : String
  macvlanSubnet : String
  replicas : Nat
  bfdEnabled : Bool
  nodeSelector : Settings
  excludeIps : List String
  deriving DecidableEq

def externalMissing : Failure :=
  .http 422 ("kube-ovn requires a Subnet named exactly 'external' before it will program " ++
    "EIP/SNAT (`enable-eip-snat need external subnet external to be exist`). Build the egress " ++
    "underlay with that name — without it the gateway fails with an unrelated-looking BFD error.")

def requireExternalSubnet : Call Unit :=
  exceptApi (do let _ ← ask (.getSubnet "external")) fun status =>
    if status ≠ 404 then pure () else throw externalMissing

/-- The existing network is named, and there. -/
def checkMacvlan (macvlanSubnet : String) : Call Unit :=
  if '/' ∈ macvlanSubnet.toList then
    throw (.http 422 ("macvlan_subnet must be a subnet name (e.g. 'alv111'), not a CIDR ('" ++
      macvlanSubnet ++ "')"))
  else
    exceptApi (do let _ ← ask (.getSubnet macvlanSubnet)) fun status =>
      if status = 404 then throw (.http 404 ("Macvlan subnet '" ++ macvlanSubnet ++ "' not found."))
      else throw (k8sErrorToHttp status "validating macvlan subnet")

def bfdPort (data : CreateRequest) : Call (Option String) := do
  if data.bfdEnabled then return some (← addressIn data.transitCIDR 254) else return none

/-- All that comes before the first write. -/
def checks (parse6 : String → Option (Block 128)) (data : CreateRequest) : Call Plan := do
  if ¬given data.macvlanSubnet ∧ ¬data.createExternal then
    throw (.http 422 ("Either macvlan_subnet (existing) or external_interface + external_cidr + " ++
      "external_gateway (create new) must be provided"))
  else if given data.macvlanSubnet ∧ data.createExternal then
    throw (.http 422 "Provide either macvlan_subnet OR external_* fields, not both")
  else do
    if given data.macvlanSubnet then checkMacvlan (data.macvlanSubnet.getD "") else pure ()
    requireExternalSubnet
    validateCidrNoOverlap parse6 data.gwVpcCIDR data.transitCIDR
    let gwGateway ← addressIn data.gwVpcCIDR 1
    let transitGateway ← addressIn data.transitCIDR 1
    return ⟨gwGateway, transitGateway, ← bfdPort data⟩

/-- What the endpoint does with an `ApiException` after the VPC has been made. -/
def orElseCleanup {α : Type} (body : Call α) (action : String) (cleanup : Call Unit) : Call α :=
  exceptApi body fun status => do
    cleanup
    throw (k8sErrorToHttp status action)

section Creation

variable (again : Nat) (data : CreateRequest)

def cleanupAll : Call Unit := do
  let _ ← cleanupGatewayResources again data.name

def createGwVpc (plan : Plan) : Call Unit :=
  exceptApi (ask (.createVpc (gatewayVpc data.name) (data.vpcManifest plan))) fun status =>
    if status = 409 then throw (.http 409 ("Egress gateway '" ++ data.name ++ "' already exists"))
    else throw (k8sErrorToHttp status "creating egress gateway VPC")

def createGwSubnet (plan : Plan) : Call Unit :=
  orElseCleanup (ask (.createSubnet data.gwSubnet (data.gwSubnetManifest plan)))
    "creating gateway subnet" (cleanupGatewayVpc (gatewayVpc data.name))

/-- An attachment that is there already is taken as it is. -/
def createNad : Call Unit :=
  exceptApi (ask (.createNad data.nadName data.nadManifest)) fun status =>
    if status = 409 then pure ()
    else do
      cleanupAll again data
      throw (k8sErrorToHttp status "creating macvlan NAD")

def createExternalSubnet : Call Unit :=
  orElseCleanup (ask (.createSubnet data.externalSubnet data.extSubnetManifest))
    "creating external subnet" (cleanupAll again data)

def createVeg (internalIPs externalIPs : List String) : Call Unit :=
  orElseCleanup (ask (.createGateway data.name (data.vegManifest internalIPs externalIPs)))
    "creating VpcEgressGateway" (cleanupAll again data)

/-- The steps after the checks. -/
def build (plan : Plan) : Call GatewayResponse := do
  createGwVpc data plan
  createGwSubnet data plan
  if data.createExternal then do
    createNad again data
    createExternalSubnet again data
  else pure ()
  let (internalIPs, externalIPs) ←
    allocateGatewayIps data.gwSubnet data.externalSubnet data.replicas
  createVeg again data internalIPs externalIPs
  if data.excludeIps ≠ [] ∧ ¬data.createExternal then
    exceptApi (ask (.patchExcludeIps data.externalSubnet data.excludeIps)) fun _ => pure ()
  else pure ()
  saveTransitAllocator data.name ((∅ : Data).insert "_gateway_ip" plan.transitGateway) none
  return { name := data.name, gwVpcName := gatewayVpc data.name, gwVpcCIDR := data.gwVpcCIDR
           transitCIDR := data.transitCIDR, macvlanSubnet := data.externalSubnet
           replicas := data.replicas, bfdEnabled := data.bfdEnabled
           nodeSelector := data.nodeSelector, excludeIps := data.excludeIps }

def createEgressGateway (parse6 : String → Option (Block 128)) : Call GatewayResponse := do
  let plan ← checks parse6 data
  build again data plan

end Creation

end Egress
