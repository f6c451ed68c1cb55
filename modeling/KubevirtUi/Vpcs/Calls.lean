import KubevirtUi.Library.Raising
import KubevirtUi.Python.Ipaddress
import KubevirtUi.Vpcs.Cluster
import Mathlib.Data.List.Sort

/-!
# Requests for peerings, and the end of a VPC

Two routers are written one after the other, each under the version it was read with; where the
second fails with an error of the API, the first is written back. A peering is taken down, and a
side rolled back, from what is read then, and without a version.

The backend deletes a VPC when those Subnets are gone that it has listed, and the operator when
a listing is empty.
-/

namespace Vpcs

open Peering Interference Python.Ipaddress

abbrev Call (α : Type) := ExceptT Failure (Program Request Request.Response) α

def ask (r : Request) : Call r.Result := ExceptT.mk (Program.ask r)

def Failure.isApi : Failure → Bool
  | .api _ => true
  | _ => false

/-- What the user is told of a status. -/
def statusMap : List (Nat × String) :=
  [(400, "Bad request"), (401, "Unauthorized"), (403, "Access denied"),
    (404, "Resource not found"), (409, "Resource conflict"),
    (422, "Invalid resource configuration"),
    (429, "The cluster is rate-limiting this request — try again"),
    (503, "The cluster API is unavailable — try again")]

def k8sErrorToHttp (status : Nat) (action : String) : Failure :=
  match statusMap.lookup status with
  | some detail => .http status detail
  | none => .http 500 ("Internal error during " ++ action)

/-- `except ApiException` -/
def exceptApi {α : Type} (body : Call α) (handler : Nat → Call α) : Call α :=
  tryCatch body fun e => match e with
    | .api status => handler status
    | e => throw e

/-- `except Exception` around what returns nothing: the failure is logged. -/
def swallowing (body : Call Unit) : Call Unit := tryCatch body fun _ => pure ()

/-- The first of `hosts`; both addresses of a network of two are hosts. -/
def firstHost (p : Block 32) : BitVec 32 := if p.bits = 31 then p.base else p.base + 1

/-- The first two hosts of a network that has two. -/
def Link.ofBlock (p : Block 32) : Link where
  localIP := Go.Netip.addrString (.v4 (firstHost p))
  remoteIP := Go.Netip.addrString (.v4 (firstHost p + 1))
  cidr := networkStr p
  ne := by
    intro h
    have hsame := Go.Netip.addrString_injective (by simp) (by simp) h
    exact absurd (Go.Netip.Addr.v4.inj hsame) (by simp)
  local_slash := by
    rw [Go.Netip.addrString, String.toList_ofList]
    exact Go.Netip.foreign_slash.not_mem_formatIPv4 _
  remote_slash := by
    rw [Go.Netip.addrString, String.toList_ofList]
    exact Go.Netip.foreign_slash.not_mem_formatIPv4 _

section Peerings

/- What a text gives that is no IPv4 network: a link of IPv6, or an error. -/
variable (other : String → Except Failure Link)

def pinnedLink (linkCIDR : String) : Except Failure Link :=
  match ipv4Network linkCIDR.toList with
  | some p =>
    if p.bits = 32 then
      .error (.http 400 ("Link CIDR " ++ linkCIDR ++ " has no room for two addresses"))
    else .ok (Link.ofBlock p)
  | none => other linkCIDR

/-- A link that is given, or one that is allocated. -/
def linkFor (linkCIDR : Option String) : Call Link :=
  if linkCIDR.getD "" = "" then ask .allocateLink
  else MonadExcept.ofExcept (pinnedLink other (linkCIDR.getD ""))

/-- `_get_vpc_subnets`: a listing that fails is an empty one. -/
def getVpcSubnets (purpose : Purpose) (vpcName : String) : Call (List Subnet) := do
  let subnets ← exceptApi (ask (.listSubnets purpose)) fun _ => pure []
  return subnets.filter fun s => s.vpc = some vpcName

/-- The prefixes of a network. -/
def cidrsOf (subnets : List Subnet) (vpcName : String) : List String :=
  ((subnets.filter fun s => s.vpc = some vpcName).map (·.cidrBlock)).filter (· ≠ "")

def vpcSubnetCidrs (vpcName : String) : Call (List String) := do
  return ((← getVpcSubnets .routes vpcName).map (·.cidrBlock)).filter (· ≠ "")

def peeringPatchRetries : Nat := 5

/-- `_apply_peering_side`, with so many attempts left. -/
def applyPeeringSide (vpcName : String) (side : Side) : Nat → Call Unit
  | 0 => pure ()
  | left + 1 => do
    let item ← ask (.getVpc vpcName)
    exceptApi
      (ask (.patchVpc vpcName (some item.version) (peeringSidePatch item.value side) (.lay side)))
      fun status =>
        if status = 409 ∧ 0 < left then applyPeeringSide vpcName side left
        else throw (.api status)

/-- A router, if it is there. -/
def vpcIfAny (vpcName : String) : Call (Option (Versioned VpcSpec)) :=
  exceptApi (do return some (← ask (.getVpc vpcName))) fun status =>
    if status = 404 then pure none else throw (.api status)

/-- `_remove_peering_side`; `undo` where a request takes back what it has laid down itself. -/
def removePeeringSide (undo : Bool) (vpcName remoteVpc : String) : Call Unit := do
  match ← vpcIfAny vpcName with
  | none => pure ()
  | some item => do
    let remoteCIDRs ← vpcSubnetCidrs remoteVpc
    ask (.patchVpc vpcName none (withoutSide item.value remoteVpc remoteCIDRs)
      (.take remoteVpc remoteCIDRs item.value undo))

/-- Take back the sides that have been laid down, as far as that is possible. -/
def rollBack : List (String × String) → Call Unit
  | [] => pure ()
  | (done, remote) :: rest => do
    swallowing (removePeeringSide true done remote)
    rollBack rest

/-- Lay the sides down one after the other. -/
def applySides (applied : List (String × String)) : List (String × Side) → Call Unit
  | [] => pure ()
  | (vpcName, side) :: rest => do
    exceptApi (applyPeeringSide vpcName side peeringPatchRetries) fun status => do
      rollBack applied
      throw (k8sErrorToHttp status ("peering VPC '" ++ vpcName ++ "'"))
    applySides (applied ++ [(vpcName, side.remoteVpc)]) rest

/-- A router that has to be there. -/
def getSpec (vpcName : String) : Call VpcSpec :=
  exceptApi (do return (← ask (.getVpc vpcName)).value) fun status =>
    if status = 404 then throw (.http 404 ("VPC '" ++ vpcName ++ "' not found"))
    else throw (k8sErrorToHttp status "VPC operation")

/-- The two sides of a peering over a link. -/
def sidesOver (link : Link) (name remoteVpc : String) (localCIDRs remoteCIDRs : List String) :
    List (String × Side) :=
  [(name, ⟨remoteVpc, link.localIP, link.cidr, remoteCIDRs, link.remoteIP⟩),
    (remoteVpc, ⟨name, link.remoteIP, link.cidr, localCIDRs, link.localIP⟩)]

/-- The rest of `_create_peering_pair`, once the prefixes are known. -/
def joinOver (name remoteVpc : String) (linkCIDR : Option String)
    (localCIDRs remoteCIDRs : List String) : Call Unit :=
  if localCIDRs = [] ∨ remoteCIDRs = [] then
    throw (.http 400 ("Both VPCs need at least one subnet before they can be peered " ++
      "— there would be nothing to route to."))
  else do
    let link ← linkFor other linkCIDR
    applySides [] (sidesOver link name remoteVpc localCIDRs remoteCIDRs)

/-- `_create_peering_pair` -/
def createPeeringPair (name remoteVpc : String) (linkCIDR : Option String) : Call Unit :=
  if name = remoteVpc then throw (.http 400 "A VPC cannot peer with itself")
  else do
    let _ ← getSpec name
    let _ ← getSpec remoteVpc
    let localCIDRs ← vpcSubnetCidrs name
    let remoteCIDRs ← vpcSubnetCidrs remoteVpc
    joinOver other name remoteVpc linkCIDR localCIDRs remoteCIDRs

/-- What a request that succeeds has done: its work, or it has left it to the operator, or it has
to be asked again. -/
inductive Outcome where
  | done
  | handedOver
  | waiting
  deriving DecidableEq

/-- `create_vpc_peering` where the operator does not make the peerings. -/
def createVpcPeering (name remoteVpc : String) (linkCIDR : Option String) : Call Outcome := do
  createPeeringPair other name remoteVpc linkCIDR
  swallowing (ask (.errand .reconcileIsolationAcls))
  return .done

end Peerings

def peeringCrName (a b : String) : String := if a ≤ b then a ++ "-" ++ b else b ++ "-" ++ a

/-- `_peering_cr`: whether the operator has a record of the pair. -/
def peeringCr (a b : String) : Call Bool :=
  exceptApi (do let _ ← ask (.getRecord (peeringCrName a b)); return true) fun status =>
    if status = 403 ∨ status = 404 then pure false else throw (.api status)

/-- Take the peering off the routers one after the other. -/
def removeSides : List (String × String) → Call Unit
  | [] => pure ()
  | (here, there) :: rest => do
    exceptApi (removePeeringSide false here there) fun status =>
      throw (k8sErrorToHttp status ("removing peering from VPC '" ++ here ++ "'"))
    removeSides rest

/-- `delete_vpc_peering` -/
def deleteVpcPeering (name remoteVpc : String) : Call Outcome := do
  if ← peeringCr name remoteVpc then do
    ask (.deleteRecord (peeringCrName name remoteVpc))
    return .handedOver
  else do
    removeSides [(name, remoteVpc), (remoteVpc, name)]
    swallowing (ask (.errand .reconcileIsolationAcls))
    return .done

/-- `_get_vpc_peerings`, as far as it is used here. -/
def getVpcPeerings (vpcName : String) : Call (List String) :=
  exceptApi (do return remotesOf (← ask (.getVpcPeerings vpcName))) fun _ => pure []

/-- The other networks of a VPC's peerings that the operator has records of. -/
def claimedRemotes (vpcName : String) : Call (List String) :=
  exceptApi
    (do
      let records ← ask .listRecords
      return records.filterMap fun record =>
        match record.networks with
        | [a, b] => if vpcName = b then some a else if vpcName = a then some b else none
        | _ => none)
    fun status => if status = 403 ∨ status = 404 then pure [] else throw (.api status)

/-- Release one peering after the other; what the operator has made, it takes away itself. -/
def releaseAll (name : String) (claimed : List String) : List String → Call Unit
  | [] => pure ()
  | remote :: rest => do
    if remote = "" then pure ()
    else if remote ∈ claimed then
      exceptApi (ask (.deleteRecord (peeringCrName name remote))) fun _ => pure ()
    else swallowing (removePeeringSide false remote name)
    releaseAll name claimed rest

/-- `_release_peerings` -/
def releasePeerings (name : String) : Call Unit := do
  let remotes ← getVpcPeerings name
  let claimed ← claimedRemotes name
  releaseAll name claimed remotes

/-- `_managed_network_cascades` -/
def managedNetworkCascades (name : String) : Call (Option Bool) :=
  exceptApi (do return some (← ask (.getNetwork name))) fun status =>
    if status = 404 then pure none else throw (.api status)

/-- `_await_managed_network_gone`, with so many attempts left. -/
def awaitManagedNetworkGone (name : String) : Nat → Call Unit
  | 0 => pure ()
  | attempts + 1 => do
    match ← managedNetworkCascades name with
    | none => pure ()
    | some _ => awaitManagedNetworkGone name attempts

/-- `_remove_vpc_external_config`, as far as it concerns the routes. -/
def removeVpcExternalConfig (vpcName : String) : Call Unit := do
  match ← vpcIfAny vpcName with
  | none => pure ()
  | some item =>
    if ∃ r ∈ items item.value.staticRoutes, r.cidr = some "0.0.0.0/0" then
      ask (.patchVpc vpcName none
        { staticRoutes := some (Keyed.drop StaticRoute.cidr [some "0.0.0.0/0"]
            (items item.value.staticRoutes)) }
        (.clean item.value))
    else pure ()

/-- `_get_gateway_tracking`, as far as it is used here -/
def getTracking (vpcName : String) : Call (Option String) :=
  exceptApi (ask (.getTracking vpcName)) fun status =>
    if status = 404 then pure none else throw (.api status)

/-- `_cleanup_ovn_gateway` -/
def cleanupOvnGateway (vpcName : String) : Call Unit := do
  ask (.errand .natObjects)
  let tracking ← getTracking vpcName
  if tracking.getD "" = "" then pure () else removeVpcExternalConfig vpcName
  ask (.errand .tracking)

/-- Names of objects by their kinds. -/
abbrev Names := List (String × List String)

/-- The objects of a gateway. A kind that cannot be listed has none. -/
def natNames (name : String) : List String → Call Names
  | [] => pure []
  | plural :: rest => do
    let found ← exceptApi (ask (.listNat plural name)) fun _ => pure []
    let others ← natNames name rest
    return if found = [] then others else (plural, found) :: others

def natPlurals : List String := ["ovn-snat-rules", "ovn-fips", "ovn-dnat-rules", "ovn-eips"]

/-- `_still_present`: an object is gone only where the answer is that it is. -/
def stillPresent (get : String → Call Unit) : List String → Call (List String)
  | [] => pure []
  | n :: rest => do
    let present ← exceptApi (do get n; return true) fun status => pure (decide (status ≠ 404))
    let left ← stillPresent get rest
    return if present then n :: left else left

/-- The objects of the gateway that are still there. -/
def natPresent : Names → Call Names
  | [] => pure []
  | (plural, names) :: rest => do
    let remaining ← stillPresent (fun n => ask (.getNat plural n)) names
    let others ← natPresent rest
    return if remaining = [] then others else (plural, remaining) :: others

/-- One round of looking at what has been listed. -/
def dependentsLeft (subnets : List String) (nat : Names) : Call Names := do
  let left ← stillPresent (fun n => do let _ ← ask (.getSubnet n)) subnets
  let others ← natPresent nat
  return if left = [] then others else ("subnets", left) :: others

/-- `_await_dependents_gone`, with time for so many rounds more. -/
def awaitDependentsGone (subnets : List String) (nat : Names) : Nat → Call Names
  | 0 => dependentsLeft subnets nat
  | rounds + 1 => do
    let left ← dependentsLeft subnets nat
    if left = [] then return []
    else if ← ask .late then return left
    else awaitDependentsGone subnets nat rounds

def strandedDetail (name : String) (stranded : Names) : String :=
  "VPC '" ++ name ++ "' still has resources being deleted (" ++
    "; ".intercalate (stranded.map fun o => o.1 ++ ": " ++ ", ".intercalate o.2) ++
    "). Removing the VPC now would strand them permanently — kube-ovn finalizes them against " ++
    "this VPC's router. They are already marked for deletion; retry in a moment."

/-- Mark the Subnets for deletion, as far as that is possible. -/
def deleteSubnets : List String → Call Unit
  | [] => pure ()
  | n :: rest => do
    exceptApi (ask (.deleteSubnet n)) fun _ => pure ()
    deleteSubnets rest

/-- Delete what is not told to anybody if it fails. -/
def tolerating (e : Errand) : Call Unit := exceptApi (ask (.errand e)) fun _ => pure ()

/-- The objects of the gateway, if there is one, and the end of it. -/
def takeGateway (name : String) : Call Names := do
  let tracking ← getTracking name
  if tracking.isSome then do
    let nat ← natNames name natPlurals
    swallowing (cleanupOvnGateway name)
    return nat
  else return []

/-- The Subnets are deleted, and the VPC when they are gone. -/
def takeSubnets (rounds : Nat) (name : String) (nat : Names) : Call Outcome := do
  let subnets := (← getVpcSubnets .deletion name).map (·.name)
  deleteSubnets subnets
  let stranded ← awaitDependentsGone subnets nat rounds
  if stranded ≠ [] then
    throw (.http 409 (strandedDetail name stranded))
  else do
    exceptApi (ask (.deleteVpc name)) fun status =>
      if status = 404 then throw (.http 404 ("VPC '" ++ name ++ "' not found"))
      else throw (k8sErrorToHttp status "VPC operation")
    swallowing (ask (.errand .reconcileIsolationAcls))
    return .done

/-- `delete_vpc` from where the backend takes the network down itself. -/
def takeDown (rounds : Nat) (name : String) : Call Outcome := do
  let nat ← takeGateway name
  tolerating .vpcDns
  tolerating .vpcDnsPolicy
  releasePeerings name
  takeSubnets rounds name nat

/-- `delete_vpc` -/
def deleteVpc (rounds : Nat) (name : String) : Call Outcome := do
  match ← managedNetworkCascades name with
  | none => takeDown rounds name
  | some cascades => do
    ask (.deleteNetwork name)
    if cascades then return .handedOver
    else do
      awaitManagedNetworkGone name 30
      takeDown rounds name

/-- `fmt.Errorf` around an error -/
def wrapping {α : Type} (doing : String) (body : Call α) : Call α :=
  tryCatch body fun e => throw (.wrapped doing e)

/-- `deleteIfPresent`, for what is read and deleted so; reading says whether it is going. -/
def deleteIfPresent (kind : String) (get : Call Bool) (delete : Call Unit) : Call Unit := do
  let present ← tryCatch (do return some (← get)) fun e =>
    if e = .api 404 ∨ e = .noMatch then pure none
    else throw (.wrapped ("reading " ++ kind) e)
  match present with
  | none => pure ()
  | some true => pure ()
  | some false =>
    tryCatch delete fun e =>
      if e = .api 404 then pure () else throw (.wrapped ("deleting " ++ kind) e)

/-- `subnetsOf` -/
def subnetsOf (vpc : String) : Call (List String) := do
  let subnets ← wrapping "listing subnets" (ask (.listSubnets .deletion))
  return ((subnets.filter fun s => s.vpc = some vpc).map (·.name)).insertionSort (· ≤ ·)

/-- Ask for the deletion of every one that is not going. -/
def deleteAllPresent : List String → Call Unit
  | [] => pure ()
  | n :: rest => do
    deleteIfPresent ("Subnet/" ++ n) (do return (← ask (.getSubnet n)).terminating)
      (ask (.deleteSubnet n))
    deleteAllPresent rest

/-- `tearDown` of a network that has the finalizer, or has not. -/
def tearDown (name : String) (finalizer : Bool) : Call Outcome :=
  if ¬ finalizer then pure .done
  else do
    deleteIfPresent ("VpcDns/" ++ name ++ "-dns") (do ask (.errand .vpcDns); return false)
      (ask (.errand .vpcDns))
    deleteIfPresent ("ClusterPolicy/kubevirt-ui-vpc-dns-" ++ name)
      (do ask (.errand .vpcDnsPolicy); return false) (ask (.errand .vpcDnsPolicy))
    let subnets ← subnetsOf name
    deleteAllPresent subnets
    let stuck ← subnetsOf name
    if stuck ≠ [] then do
      ask (.errand .status)
      return .waiting
    else do
      deleteIfPresent ("Vpc/" ++ name) (do let _ ← ask (.getVpc name); return false)
        (ask (.deleteVpc name))
      wrapping "releasing the finalizer" (ask (.errand .finalizer))
      return .done

end Vpcs
