import KubevirtUi.Library.Keyed
import KubevirtUi.Peering.Link

/-!
# One router's half of a peering

The three lists of `Vpc.spec` that a peering writes into, and what is written and
taken back. A list that is absent is not the same as an empty one: the routine
that writes a half compares before it writes, and an absent list differs from the
empty one it would write.

Nothing on a router says whose an entry is. An entry of `vpcPeerings` is told by
the remote network, a static route by its CIDR and a policy by its match, and on
the way out the routes are found through the far end of the link.
-/

namespace Peering

open Go Go.Netip

/-- The part of `Vpc.spec` that a peering writes. -/
structure VpcSpec where
  vpcPeerings : Option (List PeeringEntry) := none
  staticRoutes : Option (List StaticRoute) := none
  policyRoutes : Option (List PolicyRoute) := none
  deriving DecidableEq

/-- An absent list reads as an empty one. -/
def items {α : Type} (existing : Option (List α)) : List α := existing.getD []

@[simp] theorem items_some {α : Type} (xs : List α) : items (some xs) = xs := rfl

/-- The network an entry leads to; an absent text reads as an empty one. -/
def PeeringEntry.remote (entry : PeeringEntry) : String := entry.remoteVpc.getD ""

def StaticRoute.cidrText (route : StaticRoute) : String := route.cidr.getD ""

def StaticRoute.hop (route : StaticRoute) : String := route.nextHopIP.getD ""

def PolicyRoute.matchText (policy : PolicyRoute) : String := policy.matchExpr.getD ""

/-- The match of the policies about a CIDR. -/
def dstMatch (cidr : String) : String := "ip4.dst == " ++ cidr

theorem dstMatch_injective {c d : String} (h : dstMatch c = dstMatch d) : c = d := by
  rw [dstMatch, dstMatch, ← String.toList_inj, String.toList_append, String.toList_append,
    List.append_cancel_left_eq, String.toList_inj] at h
  exact h

def withoutPeering (existing : Option (List PeeringEntry)) (remote : String) :
    List PeeringEntry := Keyed.drop PeeringEntry.remote [remote] (items existing)

def withPeering (existing : Option (List PeeringEntry)) (remote : String)
    (entry : PeeringEntry) : List PeeringEntry := withoutPeering existing remote ++ [entry]

def withoutCIDRs (existing : Option (List StaticRoute)) (cidrs : List String) :
    List StaticRoute := Keyed.drop StaticRoute.cidrText cidrs (items existing)

def withRoutes (existing : Option (List StaticRoute)) (routes : List StaticRoute) :
    List StaticRoute := Keyed.put StaticRoute.cidrText (items existing) routes

def withoutMatches (existing : Option (List PolicyRoute)) (cidrs : List String) :
    List PolicyRoute := Keyed.drop PolicyRoute.matchText (cidrs.map dstMatch) (items existing)

def withPolicies (existing : Option (List PolicyRoute)) (policies : List PolicyRoute) :
    List PolicyRoute := Keyed.put PolicyRoute.matchText (items existing) policies

/-- The connect address a router holds towards a network: the last entry counts,
and an entry without one counts as empty. -/
def connectOf (peerings : Option (List PeeringEntry)) (remote : String) : String :=
  (((items peerings).filter (·.remote = remote)).getLast?.bind (·.localConnectIP)).getD ""

/-- The far end of the link that a connect address belongs to. -/
def farEnd (connect : String) : Option String :=
  if connect = "" then none
  else match parse connect with
  | .error _ => none
  | .ok link => some (if hasPrefix connect (link.a ++ "/") then link.b else link.a)

/-- `routedCIDRs`: what this peer's routes point at, read off the router. -/
def routedCIDRs (peerings : Option (List PeeringEntry)) (routes : Option (List StaticRoute))
    (remote : String) : List String :=
  match farEnd (connectOf peerings remote) with
  | none => []
  | some far => (((items routes).filter (·.hop = far)).map (·.cidrText)).filter (· ≠ "")

/-- The spec `applySide` wants. -/
def VpcSpec.withSide (spec : VpcSpec) (remote : String) (side : Side) : VpcSpec where
  vpcPeerings := some (withPeering spec.vpcPeerings remote side.peering)
  staticRoutes := some (withRoutes spec.staticRoutes side.routes)
  policyRoutes := some (withPolicies spec.policyRoutes side.policies)

/-- `applySide`: the spec that is written, if it differs from the one read. -/
def applySide (spec : VpcSpec) (remote : String) (side : Side) : Option VpcSpec :=
  if spec = spec.withSide remote side then none else some (spec.withSide remote side)

/-- `removeSide`: the spec that is written. -/
def removeSide (spec : VpcSpec) (remote : String) : VpcSpec :=
  let remoteCIDRs := routedCIDRs spec.vpcPeerings spec.staticRoutes remote
  { vpcPeerings := some (withoutPeering spec.vpcPeerings remote)
    staticRoutes := some (withoutCIDRs spec.staticRoutes remoteCIDRs)
    policyRoutes := some (withoutMatches spec.policyRoutes remoteCIDRs) }

/-- The spec after `applySide`, written or not. -/
def afterApply (spec : VpcSpec) (remote : String) (side : Side) : VpcSpec :=
  (applySide spec remote side).getD spec

theorem afterApply_eq (spec : VpcSpec) (remote : String) (side : Side) :
    afterApply spec remote side = spec.withSide remote side := by
  unfold afterApply applySide
  split
  · rename_i h
    exact h
  · rfl

section RenderSide

variable {remote connectIP linkCIDR : String} {cidrs : List String}

@[simp] theorem renderSide_remote :
    (renderSide remote connectIP linkCIDR cidrs).peering.remote = remote := rfl

theorem renderSide_routes_keys :
    (renderSide remote connectIP linkCIDR cidrs).routes.map StaticRoute.cidrText = cidrs := by
  simp [renderSide, routeTo, StaticRoute.cidrText, Function.comp_def]

theorem renderSide_policies_keys :
    (renderSide remote connectIP linkCIDR cidrs).policies.map PolicyRoute.matchText =
      cidrs.map dstMatch := by
  simp [renderSide, policyFor, PolicyRoute.matchText, dstMatch]

theorem mem_renderSide_routes {route : StaticRoute} :
    route ∈ (renderSide remote connectIP linkCIDR cidrs).routes ↔
      ∃ c ∈ cidrs, routeTo c (otherEnd connectIP linkCIDR) = route := by
  simp [renderSide]

theorem mem_renderSide_policies {policy : PolicyRoute} :
    policy ∈ (renderSide remote connectIP linkCIDR cidrs).policies ↔
      ∃ c ∈ cidrs, policyFor c = policy := by
  simp [renderSide]

theorem withPeering_eq_put (existing : Option (List PeeringEntry)) {entry : PeeringEntry}
    (h : entry.remote = remote) :
    withPeering existing remote entry = Keyed.put PeeringEntry.remote (items existing) [entry] := by
  simp [withPeering, withoutPeering, Keyed.put, h]

end RenderSide

theorem connectOf_withSide {spec : VpcSpec} {remote : String} (side : Side)
    (hside : side.peering.remote = remote) :
    connectOf (spec.withSide remote side).vpcPeerings remote =
      side.peering.localConnectIP.getD "" := by
  have hdrop : (Keyed.drop PeeringEntry.remote [remote] (items spec.vpcPeerings)).filter
      (·.remote = remote) = [] := by
    simp [List.filter_eq_nil_iff]
  simp only [connectOf, VpcSpec.withSide, withPeering, withoutPeering, items_some,
    List.filter_append, hdrop, List.nil_append]
  simp [hside]

end Peering
