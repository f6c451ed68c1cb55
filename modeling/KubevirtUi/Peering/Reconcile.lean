import KubevirtUi.Library.Interference
import KubevirtUi.Peering.Allocate
import KubevirtUi.Peering.Cluster

/-!
# The reconciler of ManagedNetworkPeering

One pass over one object, request by request, in the order of the source. Errors
of the API end the pass, except where a half that could not be written is rolled
back. What decides when the object is looked at again is returned and otherwise
has no effect.
-/

namespace Peering

open Interference

/-- A program of the reconciler. -/
abbrev Pass (α : Type) : Type := Program Request Request.Response α

/-- How a pass ends. -/
inductive PassResult where
  | done
  | requeue
  | requeueAfter
  | failed (text : String)
  deriving DecidableEq

/-- Send one request. -/
def ask (r : Request) : Pass r.Response := Program.ask r

/-- `setAcceptedCondition`. -/
def PeeringObject.setAccepted (link : PeeringObject) (ok : Bool) (reason message : String) :
    PeeringObject :=
  { link with status := { link.status with
      accepted := some ⟨⟨ok, reason, message⟩, link.generation⟩ } }

/-- `setPeeringCondition`. -/
def PeeringObject.setEstablished (link : PeeringObject) (ok : Bool) (reason message : String) :
    PeeringObject :=
  { link with status := { link.status with
      established := some ⟨⟨ok, reason, message⟩, link.generation⟩ } }

/-- `setTrafficCondition`. -/
def PeeringObject.setTraffic (link : PeeringObject) (condition : Condition) : PeeringObject :=
  { link with status := { link.status with
      trafficAllowed := some ⟨condition, link.generation⟩ } }

/-- The generation this pass has seen. -/
def PeeringObject.observe (link : PeeringObject) : PeeringObject :=
  { link with status := { link.status with observedGeneration := link.generation } }

/-- The legs of the plan, without their flags. -/
def PeeringObject.withPlan (link : PeeringObject) (linkCIDR : String) (legs : List Leg) :
    PeeringObject :=
  { link with status := { link.status with linkCIDR, legs } }

/-- Mark one leg as written, or as taken back. -/
def PeeringObject.setApplied (link : PeeringObject) (index : Nat) (applied : Bool) :
    PeeringObject :=
  { link with status := { link.status with
      legs := link.status.legs.modify index fun leg => { leg with applied } } }

/-- `UpdateStatus`: write the status only if it differs from the one read, under the
version read. -/
def updateStatus (name : String) (version : Nat) (link before : PeeringObject) :
    Pass (Except ApiError (Versioned PeeringObject)) :=
  if link.status = before.status then pure (.ok ⟨version, link⟩)
  else ask (.updateStatus name ⟨version, link⟩)

/-- End the pass with a last write of the status. -/
def finish (name : String) (version : Nat) (link before : PeeringObject) (result : PassResult) :
    Pass PassResult := do
  match ← updateStatus name version link before with
  | .error err => pure (.failed err.text)
  | .ok _ => pure result

/-- `applySide`: write one router's half, re-reading the spec. -/
def applyHalf (owner router remote : String) (side : Side) : Pass (Except ApiError Unit) := do
  match ← ask (.getVpc router) with
  | .error err => pure (.error (.failed ("reading Vpc/" ++ router ++ ": " ++ err.text)))
  | .ok vpc =>
    match applySide (vpc.value.spec.getD {}) remote side with
    | none => pure (.ok ())
    | some spec =>
      ask (.updateVpc router { vpc with value := { vpc.value with spec := some spec } }
        (.apply owner remote side))

/-- `removeSide`: take one router's half back off. A router that is gone, or going,
or has no spec is left alone. -/
def removeHalf (owner router remote : String) : Pass (Except ApiError Unit) := do
  match ← ask (.getVpc router) with
  | .error .notFound => pure (.ok ())
  | .error err => pure (.error (.failed ("reading Vpc/" ++ router ++ ": " ++ err.text)))
  | .ok vpc =>
    if vpc.value.deleting then pure (.ok ())
    else
      match vpc.value.spec with
      | none => pure (.ok ())
      | some spec =>
        ask (.updateVpc router
          { vpc with value := { vpc.value with spec := some (removeSide spec remote) } }
          (.remove owner remote))

/-- `rollBack`: remove whatever status says was attempted; an end that cannot be
removed keeps its flag. -/
def rollBack (name : String) (link : PeeringObject) : Pass PeeringObject :=
  match link.status.legs with
  | [x, y] => do
    let first ← removeHalf name x.network y.network
    let link := if first.isOk then link.setApplied 0 false else link
    let second ← removeHalf name y.network x.network
    pure (if second.isOk then link.setApplied 1 false else link)
  | _ => pure link

/-- `tearDownPeering`: remove both ends of the declaration and let the object go. -/
def tearDownPeering (name : String) (link : Versioned PeeringObject) : Pass PassResult := do
  if !link.value.finalizer then pure .done
  else
    match ← removeHalf name link.value.a link.value.b with
    | .error err => pure (.failed err.text)
    | .ok () =>
      match ← removeHalf name link.value.b link.value.a with
      | .error err => pure (.failed err.text)
      | .ok () =>
        match ← ask (.updatePeering name
            { link with value := { link.value with finalizer := false } }) with
        | .error err => pure (.failed ("releasing the peering: " ++ err.text))
        | .ok _ => pure .done

/-- One turn of the loop over both routers: the conditions to set when the router is
not there to be written. -/
def checkRouter (link : PeeringObject) (router : String) :
    Pass (Except ApiError (Option PeeringObject)) := do
  match ← ask (.getVpc router) with
  | .error .notFound =>
    let link := link.setAccepted false "NoSuchNetwork" ("there is no Vpc/" ++ router)
    let link := link.setEstablished false "NoSuchNetwork" ("there is no Vpc/" ++ router ++
      " to write an end on; nothing was written on the other side either")
    pure (.ok (some link.observe))
  | .error err => pure (.error (.failed ("reading Vpc/" ++ router ++ ": " ++ err.text)))
  | .ok vpc =>
    if vpc.value.deleting then
      let link := link.setAccepted false "NetworkGoing" ("Vpc/" ++ router ++ " is being deleted")
      let link := link.setEstablished false "NetworkGoing" ("Vpc/" ++ router ++
        " is being deleted; a peering onto it would outlive the thing it points at")
      pure (.ok (some link.observe))
    else pure (.ok none)

/-- One turn of the loop of `pairAlreadyWritten`. -/
def sideWritten (router remote : String) : Pass (Except ApiError Bool) := do
  match ← ask (.getVpc router) with
  | .error .notFound => pure (.ok false)
  | .error err => pure (.error (.failed ("reading Vpc/" ++ router ++ ": " ++ err.text)))
  | .ok vpc => pure (.ok (vpc.value.names remote))

/-- `pairAlreadyWritten`: who wrote this pair already, or an empty text. -/
def pairAlreadyWritten (a b : String) : Pass (Except ApiError String) := do
  match ← sideWritten a b with
  | .error err => pure (.error err)
  | .ok onA =>
    match ← sideWritten b a with
    | .error err => pure (.error err)
    | .ok onB =>
      let written := (if onA then ["Vpc/" ++ a] else []) ++ (if onB then ["Vpc/" ++ b] else [])
      if written = [] then pure (.ok "")
      else pure (.ok (a ++ " and " ++ b ++ " are already peered — " ++
        String.intercalate " and " (written.insertionSort (· ≤ ·)) ++
        " carries the entry, written by something other than this object."))

def adoptAnnotation : String := "platform.kubevirt-ui.io/adopt"

/-- The guard before the first legs: the conditions to set when the pair is
somebody else's. -/
def guardPair (link : PeeringObject) : Pass (Except ApiError (Option PeeringObject)) := do
  if link.adopt = true ∨ link.status.legs ≠ [] then pure (.ok none)
  else
    match ← pairAlreadyWritten link.a link.b with
    | .error err => pure (.error err)
    | .ok held =>
      if held = "" then pure (.ok none)
      else
        let link := link.setAccepted false "AlreadyPeered" held
        let link := link.setEstablished false "AlreadyPeered" (held ++
          " Nothing was written. Annotate this object with " ++ adoptAnnotation ++
          "=true to take it over.")
        pure (.ok (some link.observe))

/-- The subnets, with the error wrapped as the callers wrap it. -/
def listSubnets (vpc : String) : Pass (Except String (List Subnet)) := do
  match ← ask .listSubnets with
  | .error err => pure (.error ("listing subnets of " ++ vpc ++ ": " ++ err.text))
  | .ok subnets => pure (.ok subnets)

/-- One turn of the loop over the subnets: the prefixes of a network, or the
conditions to set when it has none. -/
def networkCIDRs (link : PeeringObject) (network : String) :
    Pass (Except String (Except PeeringObject (List String))) := do
  match ← listSubnets network with
  | .error err => pure (.error err)
  | .ok subnets =>
    let found := subnetCIDRs subnets network
    if found = [] then
      let link := link.setAccepted false "NoSubnets" (network ++ " has no subnet")
      let link := link.setEstablished false "NoSubnets" (network ++
        " has no subnet, so there would be nothing to route to; both networks need one " ++
        "before they can be peered")
      pure (.ok (.error link.observe))
    else pure (.ok (.ok found))

/-- The links the listing shows to be held by the other objects. -/
def heldLinks (exclude : String) (listed : List (String × PeeringObject)) : List String :=
  ((listed.filter (·.1 ≠ exclude)).map (·.2.status.linkCIDR)).filter (· ≠ "")

/-- `linksInUse`: every link held, read from the routers and from the other objects. -/
def linksInUse (exclude : String) : Pass (Except ApiError (List String)) := do
  match ← ask .listVpcs with
  | .error err =>
    pure (.error (.failed ("listing VPCs for the link addresses: " ++ err.text)))
  | .ok vpcs =>
    let connectIPs := vpcs.flatMap fun vpc =>
      ((items (vpc.spec.getD {}).vpcPeerings).map (·.localConnectIP.getD "")).filter (· ≠ "")
    match ← ask .listPeerings with
    | .error err =>
      pure (.error (.failed ("listing peerings for the link addresses: " ++ err.text)))
    | .ok listed =>
      pure (.ok ((usedLinks connectIPs ++ heldLinks exclude listed).insertionSort (· ≤ ·)))

/-- The text of a link error, apart from what the standard library says about a
text that is no CIDR. -/
def LinkError.text : LinkError → String
  | .notCIDR cidr => "\"" ++ cidr ++ "\" is not a CIDR"
  | .noRoom cidr => cidr ++ " has no room for two addresses"
  | .exhausted => "every /30 in " ++ linkBase ++ " is in use by another peering"

def linkResult : Except LinkError Link → Except String Link
  | .ok chosen => .ok chosen
  | .error err => .error err.text

/-- `chooseLink`: the pinned link, else the one already chosen, else the lowest free
one. -/
def chooseLink (name : String) (link : PeeringObject) : Pass (Except String Link) := do
  if link.linkCIDR ≠ "" then pure (linkResult (parse link.linkCIDR))
  else if link.status.linkCIDR ≠ "" then pure (linkResult (parse link.status.linkCIDR))
  else
    match ← linksInUse name with
    | .error err => pure (.error err.text)
    | .ok used => pure (linkResult (allocate used))

/-- `samePlan`: compare the addresses, not the flags. -/
def samePlan : List Leg → List Leg → Bool
  | [], [] => true
  | x :: xs, y :: ys => x.network = y.network ∧ x.connectIP = y.connectIP ∧ samePlan xs ys = true
  | _, _ => false

/-- An end could not be written: take both back off and say so. -/
def refuseOneSided (name : String) (version : Nat) (link before : PeeringObject)
    (loc remote : String) (err : ApiError) : Pass PassResult := do
  let link ← rollBack name link
  let link := link.setEstablished false "OneSidedRefused" ("could not write the " ++ loc ++
    " end (" ++ err.text ++ "); the " ++ remote ++
    " end was taken back off rather than left as a black hole")
  finish name version link.observe before .requeueAfter

/-- Both ends, one after the other; the first that fails has both rolled back. -/
def writeEnds (name : String) (version : Nat) (link : PeeringObject) (chosen : Link)
    (cidrs : String → List String) : Pass PassResult :=
  let before := link
  match link.status.legs with
  | [x, y] => do
    match ← applyHalf name link.a link.b
        (renderSide link.b x.connectIP chosen.cidr (cidrs link.b)) with
    | .error err => refuseOneSided name version link before link.a link.b err
    | .ok () =>
      let link := link.setApplied 0 true
      match ← applyHalf name link.b link.a
          (renderSide link.a y.connectIP chosen.cidr (cidrs link.a)) with
      | .error err => refuseOneSided name version link before link.b link.a err
      | .ok () =>
        let link := link.setApplied 1 true
        let link := link.setEstablished true "Established" (link.a ++ " <-> " ++ link.b ++
          " over " ++ chosen.cidr ++ " (" ++ chosen.a ++ " <-> " ++ chosen.b ++ ")")
        let traffic ← judgeTraffic listSubnets link.a link.b cidrs
        finish name version (link.setTraffic traffic).observe before .done
  -- the plan has just been recorded with two legs
  | _ => pure .done

/-- From the choice of the link on: record the plan before anything is written. -/
def establish (name : String) (version : Nat) (link : PeeringObject)
    (cidrs : String → List String) : Pass PassResult := do
  match ← chooseLink name link with
  | .error err =>
    finish name version (link.setEstablished false "NoLink" err).observe link .requeueAfter
  | .ok chosen =>
    let planned : List Leg := [⟨link.a, chosen.a, false⟩, ⟨link.b, chosen.b, false⟩]
    if link.status.linkCIDR ≠ chosen.cidr ∨ samePlan link.status.legs planned = false then
      match ← updateStatus name version (link.withPlan chosen.cidr planned) link with
      | .error err => pure (.failed err.text)
      | .ok link => writeEnds name link.version link.value chosen cidrs
    else writeEnds name version link chosen cidrs

/-- The isolation of both sides, and what follows from it. -/
def checkIsolation (name : String) (version : Nat) (link : PeeringObject)
    (cidrs : String → List String) : Pass PassResult := do
  let before := link
  let (reason, detail) ← isolationWillNotLift listSubnets link.a link.b cidrs
  if reason = "IsolationNotOurs" ∨ reason = "Unreadable" then
    let link := link.setAccepted false reason detail
    let link ← rollBack name link
    let link := link.setEstablished false reason detail
    finish name version (link.setTraffic ⟨false, reason, detail⟩).observe before .requeueAfter
  else
    let link := link.setAccepted true "Accepted" (link.a ++ " and " ++ link.b ++
      " both exist, both have something to route to, and their rules are open or composed")
    match ← updateStatus name version link before with
    | .error err => pure (.failed err.text)
    | .ok link =>
      if reason ≠ "" then
        let stalled := (link.value.setEstablished false reason detail).setTraffic
          ⟨false, reason, detail⟩
        finish name link.version stalled.observe link.value .requeueAfter
      else establish name link.version link.value cidrs

/-- The prefixes of both networks. -/
def collectCIDRs (name : String) (version : Nat) (link : PeeringObject) : Pass PassResult := do
  match ← networkCIDRs link link.a with
  | .error err => pure (.failed err)
  | .ok (.error refused) => finish name version refused link .requeueAfter
  | .ok (.ok cidrsA) =>
    match ← networkCIDRs link link.b with
    | .error err => pure (.failed err)
    | .ok (.error refused) => finish name version refused link .requeueAfter
    | .ok (.ok cidrsB) =>
      checkIsolation name version link fun network =>
        if network = link.b then cidrsB else if network = link.a then cidrsA else []

/-- An object that is to be established. -/
def reconcileLive (name : String) (version : Nat) (link : PeeringObject) : Pass PassResult := do
  match ← checkRouter link link.a with
  | .error err => pure (.failed err.text)
  | .ok (some refused) => finish name version refused link .requeueAfter
  | .ok none =>
    match ← checkRouter link link.b with
    | .error err => pure (.failed err.text)
    | .ok (some refused) => finish name version refused link .requeueAfter
    | .ok none =>
      match ← guardPair link with
      | .error err => pure (.failed err.text)
      | .ok (some refused) => finish name version refused link .requeueAfter
      | .ok none => collectCIDRs name version link

/-- `Reconcile`. -/
def reconcile (name : String) : Pass PassResult := do
  match ← ask (.getPeering name) with
  | .error .notFound => pure .done
  | .error err => pure (.failed err.text)
  | .ok link =>
    if link.value.deleting then tearDownPeering name link
    else if link.value.paused then pure .done
    else if !link.value.finalizer then
      match ← ask (.updatePeering name
          { link with value := { link.value with finalizer := true } }) with
      | .error err => pure (.failed ("claiming the peering: " ++ err.text))
      | .ok _ => pure .requeue
    else reconcileLive name link.version link.value

end Peering
