import KubevirtUi.Peering.Router

/-!
# What a peering lays down on a router, and what is taken away

A request lays a side down from what it has found out: the link, and the prefixes of the other
network. Nothing of this is written down elsewhere. What is taken away later is told by the
prefixes that the other network has then, and by the address that the entry on the router itself
holds.
-/

namespace Vpcs

open Peering List

/-- The text before the first slash, or all of it. -/
def beforeSlash (text : String) : String := String.ofList (text.toList.takeWhile (· ≠ '/'))

/-- One end of a peering. -/
structure Side where
  remoteVpc : String
  connectIP : String
  linkCIDR : String
  remoteCIDRs : List String
  nextHop : String
  deriving DecidableEq

namespace Side

variable (side : Side)

def entry : PeeringEntry where
  remoteVpc := some side.remoteVpc
  localConnectIP := some (side.connectIP ++ "/" ++ prefixLength side.linkCIDR)

def routes : List StaticRoute := side.remoteCIDRs.map fun cidr => routeTo cidr side.nextHop

def policies : List PolicyRoute := side.remoteCIDRs.map policyFor

end Side

/-- The keys of the routes to these prefixes. -/
def targets (cidrs : List String) : List (Option String) := cidrs.map some

/-- The keys of the policies about these prefixes. -/
def dstMatches (cidrs : List String) : List (Option String) :=
  cidrs.map fun cidr => some (dstMatch cidr)

/-- `_peering_side_patch`: the three lists with the side on them. -/
def peeringSidePatch (spec : VpcSpec) (side : Side) : VpcSpec where
  vpcPeerings := some (Keyed.drop PeeringEntry.remoteVpc [some side.remoteVpc]
    (items spec.vpcPeerings) ++ [side.entry])
  staticRoutes := some (Keyed.drop StaticRoute.cidr (targets side.remoteCIDRs)
    (items spec.staticRoutes) ++ side.routes)
  policyRoutes := some (Keyed.drop PolicyRoute.matchExpr (dstMatches side.remoteCIDRs)
    (items spec.policyRoutes) ++ side.policies)

/-- The entries for another network. -/
def entriesFor (spec : VpcSpec) (remote : String) : List PeeringEntry :=
  Keyed.pick PeeringEntry.remoteVpc [some remote] (items spec.vpcPeerings)

/-- The addresses that the router itself holds towards another network. -/
def nextHops (spec : VpcSpec) (remote : String) : List String :=
  (entriesFor spec remote).map fun p => beforeSlash (p.localConnectIP.getD "")

/-- The three lists that `_remove_peering_side` writes. -/
def withoutSide (spec : VpcSpec) (remote : String) (remoteCIDRs : List String) : VpcSpec where
  vpcPeerings := some (Keyed.drop PeeringEntry.remoteVpc [some remote] (items spec.vpcPeerings))
  staticRoutes := some (Keyed.drop StaticRoute.nextHopIP (targets (nextHops spec remote))
    (Keyed.drop StaticRoute.cidr (targets remoteCIDRs) (items spec.staticRoutes)))
  policyRoutes := some (Keyed.drop PolicyRoute.matchExpr (dstMatches remoteCIDRs)
    (items spec.policyRoutes))

/-- The router has one entry for the other network, and to its prefixes the routes and policies of
the side, and no others. -/
structure Holds (spec : VpcSpec) (side : Side) : Prop where
  entry : entriesFor spec side.remoteVpc = [side.entry]
  routes : Keyed.pick StaticRoute.cidr (targets side.remoteCIDRs) (items spec.staticRoutes) =
    side.routes
  policies : Keyed.pick PolicyRoute.matchExpr (dstMatches side.remoteCIDRs)
    (items spec.policyRoutes) = side.policies

variable {route : StaticRoute} {policy : PolicyRoute} {here : String}

section Keys

variable {cidrs ds : List String} {cidr : String} {side : Side}

@[simp] theorem mem_targets : some cidr ∈ targets cidrs ↔ cidr ∈ cidrs := by simp [targets]

@[simp] theorem mem_dstMatches : some (dstMatch cidr) ∈ dstMatches cidrs ↔ cidr ∈ cidrs := by
  simp only [dstMatches, mem_map, Option.some.injEq]
  constructor
  · rintro ⟨c, hc, h⟩
    rwa [← dstMatch_injective h]
  · exact fun h => ⟨cidr, h, rfl⟩

theorem targets_disjoint (h : cidrs.Disjoint ds) : ∀ k ∈ targets cidrs, k ∉ targets ds := by
  intro k hk hd
  obtain ⟨c, hc, rfl⟩ := mem_map.mp hk
  exact h hc (mem_targets.mp hd)

theorem dstMatches_disjoint (h : cidrs.Disjoint ds) :
    ∀ k ∈ dstMatches cidrs, k ∉ dstMatches ds := by
  intro k hk hd
  obtain ⟨c, hc, rfl⟩ := mem_map.mp hk
  exact h hc (mem_dstMatches.mp hd)

theorem mem_routes :
    route ∈ side.routes ↔ ∃ c ∈ side.remoteCIDRs, routeTo c side.nextHop = route := by
  simp [Side.routes]

theorem mem_policies : policy ∈ side.policies ↔ ∃ c ∈ side.remoteCIDRs, policyFor c = policy := by
  simp [Side.policies]

theorem cidr_mem_targets (h : route ∈ side.routes) : route.cidr ∈ targets side.remoteCIDRs := by
  obtain ⟨c, hc, rfl⟩ := mem_routes.mp h
  exact mem_targets.mpr hc

theorem nextHopIP_eq (h : route ∈ side.routes) : route.nextHopIP = some side.nextHop := by
  obtain ⟨c, -, rfl⟩ := mem_routes.mp h
  rfl

theorem matchExpr_mem_dstMatches (h : policy ∈ side.policies) :
    policy.matchExpr ∈ dstMatches side.remoteCIDRs := by
  obtain ⟨c, hc, rfl⟩ := mem_policies.mp h
  exact mem_dstMatches.mpr hc

end Keys

section Frame

variable {spec : VpcSpec} {side other : Side} {remote : String} {cidrs : List String}

theorem remoteVpc_ne {there : String} (h : here ≠ there) (p : PeeringEntry)
    (hp : p.remoteVpc ∈ [some here]) : p.remoteVpc ∉ [some there] := by
  rw [mem_singleton] at hp
  rw [hp, mem_singleton]
  exact fun hsame => h (Option.some.inj hsame)

@[simp] theorem entriesFor_withoutSide :
    entriesFor (withoutSide spec remote cidrs) remote = [] := by
  rw [entriesFor, withoutSide, items_some, Keyed.pick_drop_self]

theorem entriesFor_withoutSide_ne (h : here ≠ remote) :
    entriesFor (withoutSide spec remote cidrs) here = entriesFor spec here := by
  rw [entriesFor, withoutSide, items_some, Keyed.pick_drop fun p _ => remoteVpc_ne h p, entriesFor]

theorem entriesFor_peeringSidePatch_ne (h : here ≠ side.remoteVpc) :
    entriesFor (peeringSidePatch spec side) here = entriesFor spec here := by
  have hforeign : ∀ p ∈ [side.entry], p.remoteVpc ∉ [some here] := by
    intro p hp
    rw [mem_singleton.mp hp]
    exact remoteVpc_ne h.symm side.entry (mem_singleton.mpr rfl)
  rw [entriesFor, peeringSidePatch, items_some, Keyed.pick_append_left hforeign,
    Keyed.pick_drop fun p _ => remoteVpc_ne h p, entriesFor]

theorem holds_peeringSidePatch (spec : VpcSpec) (side : Side) :
    Holds (peeringSidePatch spec side) side where
  entry := by
    rw [entriesFor, peeringSidePatch, items_some, Keyed.pick_append, Keyed.pick_drop_self,
      nil_append, Keyed.pick_eq_self_iff]
    intro p hp
    rw [mem_singleton.mp hp]
    exact mem_singleton.mpr rfl
  routes := by
    rw [peeringSidePatch, items_some, Keyed.pick_append, Keyed.pick_drop_self, nil_append,
      Keyed.pick_eq_self_iff]
    exact fun _ => cidr_mem_targets
  policies := by
    rw [peeringSidePatch, items_some, Keyed.pick_append, Keyed.pick_drop_self, nil_append,
      Keyed.pick_eq_self_iff]
    exact fun _ => matchExpr_mem_dstMatches

/-- A side stays when another is laid down that leads elsewhere, and to other prefixes. -/
theorem Holds.peeringSidePatch (h : Holds spec side) (hremote : side.remoteVpc ≠ other.remoteVpc)
    (hcidrs : side.remoteCIDRs.Disjoint other.remoteCIDRs) :
    Holds (peeringSidePatch spec other) side where
  entry := by
    rw [entriesFor_peeringSidePatch_ne hremote, h.entry]
  routes := by
    have hforeign : ∀ r ∈ other.routes, r.cidr ∉ targets side.remoteCIDRs := fun r hr =>
      targets_disjoint (fun _ ho hs => hcidrs hs ho) _ (cidr_mem_targets hr)
    rw [Vpcs.peeringSidePatch, items_some, Keyed.pick_append_left hforeign,
      Keyed.pick_drop fun r _ => targets_disjoint hcidrs r.cidr, h.routes]
  policies := by
    have hforeign : ∀ p ∈ other.policies, p.matchExpr ∉ dstMatches side.remoteCIDRs := fun p hp =>
      dstMatches_disjoint (fun _ ho hs => hcidrs hs ho) _ (matchExpr_mem_dstMatches hp)
    rw [Vpcs.peeringSidePatch, items_some, Keyed.pick_append_left hforeign,
      Keyed.pick_drop fun p _ => dstMatches_disjoint hcidrs p.matchExpr, h.policies]

/-- A side stays when the side for another network is taken away, if none of its prefixes and not
its next hop are taken for the other's. -/
theorem Holds.withoutSide (h : Holds spec side) (hremote : side.remoteVpc ≠ remote)
    (hcidrs : side.remoteCIDRs.Disjoint cidrs) (hhop : side.nextHop ∉ nextHops spec remote) :
    Holds (withoutSide spec remote cidrs) side where
  entry := by
    rw [entriesFor_withoutSide_ne hremote, h.entry]
  routes := by
    have hstay : ∀ r ∈ Keyed.drop StaticRoute.cidr (targets cidrs) (items spec.staticRoutes),
        r.cidr ∈ targets side.remoteCIDRs →
          r.nextHopIP ∉ targets (nextHops spec remote) := by
      intro r hr hcidr
      have hmem : r ∈ side.routes := by
        rw [← h.routes, Keyed.mem_pick]
        exact ⟨(Keyed.mem_drop.mp hr).1, hcidr⟩
      rw [nextHopIP_eq hmem, mem_targets]
      exact hhop
    rw [Vpcs.withoutSide, items_some, Keyed.pick_drop hstay,
      Keyed.pick_drop fun r _ => targets_disjoint hcidrs r.cidr, h.routes]
  policies := by
    rw [Vpcs.withoutSide, items_some,
      Keyed.pick_drop fun p _ => dstMatches_disjoint hcidrs p.matchExpr, h.policies]

theorem Holds.clean (h : Holds spec side) {cidr : String} (hcidr : cidr ∉ side.remoteCIDRs) :
    Holds { spec with staticRoutes := some (Keyed.drop StaticRoute.cidr [some cidr]
      (items spec.staticRoutes)) } side where
  entry := h.entry
  routes := by
    have hkeys : ∀ r : StaticRoute, r.cidr ∈ targets side.remoteCIDRs → r.cidr ∉ [some cidr] := by
      intro r hr hsame
      rw [mem_singleton.mp hsame, mem_targets] at hr
      exact hcidr hr
    rw [items_some, Keyed.pick_drop fun r _ => hkeys r, h.routes]
  policies := h.policies

end Frame

end Vpcs
