import KubevirtUi.Egress.Cluster
import KubevirtUi.Vpcs.Calls

/-!
# Attaching a VPC to an egress gateway, and detaching it

The attach peers the two VPCs, lays a default route and a route back, adds the range to the
policies and the allow rules to the Subnet, and writes the record last. The detach takes away what
goes by the name of the VPC, the recorded range and the gateway's address.
-/

namespace Egress

open Peering Interference Python.Ipaddress

abbrev Call (α : Type) := ExceptT Failure (Program Request Request.Response) α

def ask (r : Request) : Call r.Result := ExceptT.mk (Program.ask r)

/-- `except ApiException` -/
def exceptApi {α : Type} (body : Call α) (handler : Nat → Call α) : Call α :=
  tryCatch body fun e => match e with
    | .api status => handler status
    | e => throw e

def k8sErrorToHttp (status : Nat) (action : String) : Failure :=
  match Vpcs.statusMap.lookup status with
  | some detail => .http status detail
  | none => .http 500 ("Internal error during " ++ action)

/-- An object that need not be there. -/
def orNone {α : Type} (body : Call α) : Call (Option α) :=
  exceptApi (do return some (← body)) fun status =>
    if status = 404 then pure none else throw (.api status)

/-- `text.split(",")` -/
def splitComma (text : String) : List String := (text.toList.splitOn ',').map String.ofList

/-- The hosts of a network: without the network and the broadcast address, if it has more. -/
def hosts (p : Block 32) : List (BitVec 32) :=
  if p.bits = 32 then [p.base]
  else if p.bits = 31 then [p.base, p.base + 1]
  else (List.range (2 ^ (32 - p.bits) - 2)).map fun i => p.base + BitVec.ofNat 32 (i + 1)

def addressText (a : BitVec 32) : String := String.ofList (Go.Netip.formatIPv4 a)

def transitNetwork (transitCIDR : String) : Call (Block 32) :=
  match ipv4Network transitCIDR.toList with
  | some p => pure p
  | none => throw (.other ("'" ++ transitCIDR ++ "' does not appear to be an IPv4 network"))

def gatewayFull (transitCIDR : String) (p : Block 32) : Failure :=
  .http 409 ("This gateway is full: its transit network " ++ transitCIDR ++ " has " ++
    toString (2 ^ (32 - p.bits) - 3) ++ " peering slots and every one is taken. A hub cannot be " ++
    "widened in place — the transit subnet's prefix is fixed when the gateway is created. " ++
    "Create a second egress gateway and attach further VPCs to it, or recreate this one with a " ++
    "wider transit range (EGRESS_GW_SUBNET_PREFIX).")

/-- The next free address; the first one is the gateway's. -/
def allocateTransitIp (transitCIDR : String) (used : List String) : Call String := do
  let p ← transitNetwork transitCIDR
  match (hosts p).find? fun host => addressText host ∉ used ∧ host ≠ p.base + 1 with
  | some host => return addressText host
  | none => throw (gatewayFull transitCIDR p)

def gatewayTransitIp (transitCIDR : String) : Call String := do
  let p ← transitNetwork transitCIDR
  if p.base = BitVec.allOnes 32 then throw (.other "4294967296 (>= 2**32) is not permitted")
  else return addressText (p.base + 1)

def transitPrefixLen (transitCIDR : String) : Call String := do
  return toString (← transitNetwork transitCIDR).bits

def gatewayLabel : String := "kubevirt-ui.io/egress-gateway"

def gatewayVpc (gatewayName : String) : String := "egw-" ++ gatewayName

def transitCmName (gatewayName : String) : String := "egress-transit-" ++ gatewayName

def allocKey (vpcName : String) : String := "vpc." ++ vpcName

def Vpc.label (vpc : Vpc) (key : String) : String := (vpc.labels.lookup key).getD ""

def Vpc.annotation (vpc : Vpc) (key : String) : String := (vpc.annotations.lookup key).getD ""

def Vpc.transitCIDR (vpc : Vpc) : String := vpc.annotation "kubevirt-ui.io/transit-cidr"

def Vpc.gwVpcCIDR (vpc : Vpc) : String := vpc.annotation "kubevirt-ui.io/gw-vpc-cidr"

def getGatewayConfig (gatewayName : String) : Call Vpc := do
  match ← orNone (ask (.getVpc (gatewayVpc gatewayName))) with
  | some item => return item.value
  | none => throw (.http 404 ("Egress gateway '" ++ gatewayName ++ "' not found"))

/-- The data, and the version if there is a ConfigMap. -/
def getTransitAllocator (gatewayName : String) : Call (Data × Option Nat) := do
  match ← orNone (ask (.readAllocator (transitCmName gatewayName))) with
  | some cm => return (cm.value, some cm.version)
  | none => return (∅, none)

def saveTransitAllocator (gatewayName : String) (data : Data) : Option Nat → Call Unit
  | some version => ask (.replaceAllocator (transitCmName gatewayName) version data)
  | none => ask (.createAllocator (transitCmName gatewayName) data)

/-- The one that is labelled as default, or else the first. -/
def findDefaultGateway : Call (Option String) := do
  let vpcs ← exceptApi (ask .listVpcs) fun _ => pure []
  let labelled := vpcs.filter fun item => (item.2.labels.lookup gatewayLabel).isSome
  match labelled.find? fun item => item.2.label "kubevirt-ui.io/egress-default" = "true" with
  | some item => return some (item.2.label gatewayLabel)
  | none => return labelled.head?.map fun item => item.2.label gatewayLabel

def defaultRetries : Nat := 5

/-- Read the peerings, and write them under the version that was read, with so many attempts
left. -/
def patchSpecWithRetry (name : String)
    (mutate : List PeeringEntry → Option (List PeeringEntry)) : Nat → Call Bool
  | 0 => pure false
  | left + 1 => do
    match ← orNone (ask (.getVpc name)) with
    | none => return false
    | some item =>
      match mutate (items item.value.spec.vpcPeerings) with
      | none => return false
      | some peerings =>
        exceptApi (do ask (.patchPeerings name item.version peerings); return true) fun status =>
          if status = 409 ∧ 0 < left then patchSpecWithRetry name mutate left
          else throw (.api status)

/-- The list with the entry on it, unless it is. -/
def withPeer (remoteVpc localConnectIP : String) (peerings : List PeeringEntry) :
    Option (List PeeringEntry) :=
  if peerings.any fun p => p.remoteVpc = some remoteVpc ∧ p.localConnectIP = some localConnectIP
  then none
  else some (Keyed.drop PeeringEntry.remoteVpc [some remoteVpc] peerings ++
    [⟨some remoteVpc, some localConnectIP⟩])

def ensureVpcPeering (vpcName remoteVpc localConnectIP : String) : Call Bool := do
  if ← patchSpecWithRetry vpcName (withPeer remoteVpc localConnectIP) defaultRetries then
    return true
  else return (← orNone (ask (.getVpc vpcName))).isSome

/-- The list without the entries for the other VPC, if there are any. -/
def withoutPeer (remoteVpc : String) (peerings : List PeeringEntry) : Option (List PeeringEntry) :=
  let remaining := Keyed.drop PeeringEntry.remoteVpc [some remoteVpc] peerings
  if remaining.length = peerings.length then none else some remaining

def removeVpcPeering (vpcName remoteVpc : String) : Call Unit := do
  let _ ← patchSpecWithRetry vpcName (withoutPeer remoteVpc) defaultRetries

/-- One route for the prefix, unless it is there and the only one. -/
def withRoute (cidr nextHop : String) (routes : List StaticRoute) : Option (List StaticRoute) :=
  let kept := Keyed.drop StaticRoute.cidr [some cidr] routes
  if kept.length + 1 = routes.length ∧ routeTo cidr nextHop ∈ routes then none
  else some (kept ++ [routeTo cidr nextHop])

def addStaticRoute (vpcName cidr nextHop : String) : Call Unit := do
  match ← orNone (ask (.getVpc vpcName)) with
  | none => throw (.http 404 ("VPC '" ++ vpcName ++ "' not found"))
  | some item =>
    match withRoute cidr nextHop (items item.value.spec.staticRoutes) with
    | none => return ()
    | some routes => ask (.patchRoutes vpcName routes)

/-- Without the routes for the prefix, or those of them that have the next hop. -/
def withoutRoute (cidr : String) (nextHop : Option String) (routes : List StaticRoute) :
    List StaticRoute :=
  routes.filter fun r => r.cidr ≠ some cidr ∨ nextHop ≠ none ∧ r.nextHopIP ≠ nextHop

def removeStaticRoute (vpcName cidr : String) (nextHop : Option String) : Call Unit := do
  match ← orNone (ask (.getVpc vpcName)) with
  | none => return ()
  | some item =>
    let routes := items item.value.spec.staticRoutes
    let remaining := withoutRoute cidr nextHop routes
    if remaining.length = routes.length then return ()
    else ask (.patchRoutes vpcName remaining)

def defaultCIDR : String := "0.0.0.0/0"

/-- Point the gateway's VPC at the gateway's pod, once its address is known. -/
def ensureGatewayDefaultRoute (gatewayName : String) : Call Unit := do
  let gateway ← orNone (ask (.getGateway gatewayName))
  let internalIPs := match gateway with
    | none => []
    | some gateway => if gateway.internalIPs ≠ [] then gateway.internalIPs else gateway.observedIPs
  match internalIPs with
  | [] => return ()
  | ip :: _ =>
    addStaticRoute (gatewayVpc gatewayName) defaultCIDR
      (String.ofList (ip.toList.takeWhile (· ≠ '/')))

def Policy.blocks (policy : Policy) : List String := policy.ipBlocks.getD []

/-- With the range, unless one of the policies has it; translated as the first one is. -/
def addCIDR (cidr : String) (policies : List Policy) : List Policy :=
  if cidr ∈ policies.flatMap Policy.blocks then policies
  else
    policies ++ [{ snat := some ((policies.head?.bind Policy.snat).getD true),
                   ipBlocks := some [cidr] }]

/-- A policy without the range. -/
def Policy.strip (cidr : String) (policy : Policy) : Policy :=
  if cidr ∈ policy.blocks then
    { policy with ipBlocks := some (policy.blocks.filter (· ≠ cidr)) }
  else policy

/-- Without the range, and without the policies that have no ranges left. -/
def removeCIDR (cidr : String) (policies : List Policy) : List Policy :=
  (policies.map (Policy.strip cidr)).filter (·.ipBlocks ≠ some [])

def updateVegPolicies (gatewayName : String) (change : List Policy → List Policy) : Call Unit := do
  match ← orNone (ask (.getGateway gatewayName)) with
  | none => return ()
  | some gateway =>
    exceptApi (ask (.patchPolicies gatewayName (change gateway.policies))) fun status =>
      throw (k8sErrorToHttp status "updating VpcEgressGateway policies")

def allowMatch (srcCIDR dstCIDR : String) : String :=
  "ip4.src == " ++ srcCIDR ++ " && ip4.dst == " ++ dstCIDR

def allowRule (srcCIDR dstCIDR : String) : Acl.Rule :=
  ⟨"allow-related", "from-lport", allowMatch srcCIDR dstCIDR, 2800⟩

/-- The rules with those that are missing. -/
def withAllows (srcCIDR : String) (allowCIDRs : List String) (acls : List Acl.Rule) :
    List Acl.Rule :=
  allowCIDRs.foldl (fun acls cidr =>
    if acls.any (·.matchExpr = allowMatch srcCIDR cidr) then acls
    else acls ++ [allowRule srcCIDR cidr]) acls

def addAclAllowCIDRs (subnetName srcCIDR : String) (allowCIDRs : List String) : Call Unit := do
  match ← orNone (ask (.getSubnet subnetName)) with
  | none => return ()
  | some subnet => ask (.patchAcls subnetName (withAllows srcCIDR allowCIDRs subnet.acls))

structure AttachedVpcInfo where
  vpcName : String
  transitIP : String
  subnetName : String
  cidr : String
  peeringName : String
  deriving DecidableEq

def rejectSelfAttach (gatewayName vpcName : String) : Call Unit :=
  if vpcName = gatewayVpc gatewayName then
    throw (.http 422 ("'" ++ vpcName ++
      "' is this gateway's own VPC. Attach a tenant VPC instead " ++
      "— the gateway provides egress for other VPCs, not for itself."))
  else pure ()

/-- The network that the legs of VPCs are in, and which addresses are. -/
structure External where
  cidr : String
  contains : String → Bool

/-- The VPC leaves through its own leg. -/
def External.routes (network : External) (spec : VpcSpec) : Bool :=
  (items spec.staticRoutes).any fun r =>
    r.cidr = some defaultCIDR ∧ network.contains (r.nextHopIP.getD "")

section Attach

/- There is none where nothing is announced. -/
variable (external : Option External)

def rejectRoutedVpc (vpcName : String) : Call Unit :=
  match external with
  | none => pure ()
  | some network => do
    let vpcs ← exceptApi (ask .listVpcs) fun _ => pure []
    if vpcs.any fun item => item.1 = vpcName ∧ network.routes item.2.spec then
      throw (.http 422 ("'" ++ vpcName ++ "' already egresses through its own router leg on " ++
        network.cidr ++ ". Attaching it here would rewrite its default route to this gateway's " ++
        "transit address and take it off that leg — traffic that works today would stop. Detach " ++
        "it from the routed plane first if that is really the intent."))
    else return ()

/-- The fields of a record, without the empty ones. -/
def recordFields (data : Data) (vpcName : String) : List String :=
  (splitComma ((data.lookup (allocKey vpcName)).getD "")).filter (· ≠ "")

def usedIPs (data : Data) : List String :=
  (data.lookup "_gateway_ip").getD "" ::
    (data.entries.filter fun e => "vpc.".isPrefixOf e.1).map fun e =>
      (splitComma e.2).head?.getD ""

/-- The steps of an attach between the allocator's two. -/
def wire (gatewayName vpcName subnetName cidr transitIP : String) (config : Vpc) : Call Unit := do
  let gwTransitIP ← gatewayTransitIp config.transitCIDR
  let peerPrefix ← transitPrefixLen config.transitCIDR
  let _ ← ensureVpcPeering (gatewayVpc gatewayName) vpcName (gwTransitIP ++ "/" ++ peerPrefix)
  let _ ← ensureVpcPeering vpcName (gatewayVpc gatewayName) (transitIP ++ "/" ++ peerPrefix)
  addStaticRoute vpcName defaultCIDR gwTransitIP
  addStaticRoute (gatewayVpc gatewayName) cidr transitIP
  updateVegPolicies gatewayName (if cidr = "" then id else addCIDR cidr)
  ensureGatewayDefaultRoute gatewayName
  addAclAllowCIDRs subnetName cidr [config.transitCIDR, config.gwVpcCIDR]

/-- The rest of an attach, to a gateway that is named. -/
def attachTo (gatewayName vpcName subnetName cidr : String) : Call AttachedVpcInfo := do
  rejectSelfAttach gatewayName vpcName
  rejectRoutedVpc external vpcName
  let config ← getGatewayConfig gatewayName
  if config.transitCIDR = "" then throw (.http 500 "Gateway missing transit-cidr annotation")
  else do
    let (data, version) ← getTransitAllocator gatewayName
    match recordFields data vpcName with
    | transitIP :: fields => do
      -- the attach is resumed as it was recorded
      let subnetName := fields.head?.getD subnetName
      let cidr := (fields.drop 1).head?.getD cidr
      wire gatewayName vpcName subnetName cidr transitIP config
      return ⟨vpcName, transitIP, subnetName, cidr, gatewayName ++ "-to-" ++ vpcName⟩
    | [] => do
      let transitIP ← allocateTransitIp config.transitCIDR (usedIPs data)
      wire gatewayName vpcName subnetName cidr transitIP config
      let record := transitIP ++ "," ++ subnetName ++ "," ++ cidr
      saveTransitAllocator gatewayName (data.insert (allocKey vpcName) record) version
      return ⟨vpcName, transitIP, subnetName, cidr, gatewayName ++ "-to-" ++ vpcName⟩

def attachTenantToGateway (gatewayName : Option String) (vpcName subnetName cidr : String) :
    Call (Option AttachedVpcInfo) := do
  if gatewayName.getD "" ≠ "" then
    return some (← attachTo external (gatewayName.getD "") vpcName subnetName cidr)
  else
    match ← findDefaultGateway with
    | some found =>
      if found = "" then return none
      else return some (← attachTo external found vpcName subnetName cidr)
    | none => return none

end Attach

/-- The range that the record names. -/
def recordedCIDR (data : Data) (vpcName : String) : String :=
  ((splitComma ((data.lookup (allocKey vpcName)).getD "")).drop 2).head?.getD ""

/-- Unless the text is empty. -/
def whenGiven (text : String) (body : Call Unit) : Call Unit := if text = "" then pure () else body

def detachTenantFromGateway (gatewayName vpcName : String) : Call Unit := do
  let config ← getGatewayConfig gatewayName
  let gwTransitIP ←
    if config.transitCIDR = "" then pure "" else gatewayTransitIp config.transitCIDR
  let (data, version) ← getTransitAllocator gatewayName
  let cidr := recordedCIDR data vpcName
  removeVpcPeering (gatewayVpc gatewayName) vpcName
  removeVpcPeering vpcName (gatewayVpc gatewayName)
  whenGiven cidr (removeStaticRoute (gatewayVpc gatewayName) cidr none)
  whenGiven gwTransitIP (removeStaticRoute vpcName defaultCIDR (some gwTransitIP))
  whenGiven cidr (updateVegPolicies gatewayName (removeCIDR cidr))
  if allocKey vpcName ∈ data then
    saveTransitAllocator gatewayName (data.erase (allocKey vpcName)) version
  else return ()

end Egress
