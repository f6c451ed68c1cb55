import KubevirtUi.Peering.Router

/-!
# What a half leaves alone, and what taking it back leaves behind

The routes of a half are found by CIDR when they are laid down and by the far end
of the link when they are taken back. The two agree with each other, and with
what other writers have on the router, exactly as long as the routes over the
link and the routes to the remote CIDRs are the same routes.
-/

namespace Peering

open Go Go.Netip List

/-- The CIDRs that the router routes over an address. -/
def cidrsOver (spec : VpcSpec) (hop : String) : List String :=
  ((items spec.staticRoutes).filter (·.hop = hop)).map (·.cidrText)

theorem mem_cidrsOver {spec : VpcSpec} {hop c : String} :
    c ∈ cidrsOver spec hop ↔ ∃ r ∈ items spec.staticRoutes, r.hop = hop ∧ r.cidrText = c := by
  simp [cidrsOver, and_assoc]

/-- The policy lets something take the link: it is a peering's policy, for a CIDR
that is routed over the far end. -/
def Steers (spec : VpcSpec) (hop : String) (policy : PolicyRoute) : Prop :=
  ∃ c ∈ cidrsOver spec hop, policy = policyFor c

/-- The policies that count as the peering's own: those it lays down and those for
what the router routes over the link already. -/
def ownPolicies (spec : VpcSpec) (hop : String) (side : Side) : List PolicyRoute :=
  side.policies ++ (cidrsOver spec hop).map policyFor

/-- The router has no entry for the remote network and no route over the link. -/
structure HoldsNothing (spec : VpcSpec) (remote hop : String) : Prop where
  peering : ∀ entry ∈ items spec.vpcPeerings, entry.remote ≠ remote
  routes : ∀ route ∈ items spec.staticRoutes, route.hop ≠ hop

/-- What is asked of laying a half down: the routes and policies of the link are
those of the current CIDRs, everything else is unchanged, and on a router that
held nothing of the peering it can be taken back. -/
structure RoundTrip (spec after : VpcSpec) (remote hop : String) (side : Side) : Prop where
  routes : ∀ route,
    route ∈ items after.staticRoutes ∧ route.hop = hop ↔ route ∈ side.routes
  policies : ∀ policy,
    policy ∈ items after.policyRoutes ∧ Steers after hop policy ↔ policy ∈ side.policies
  framePeerings : (items after.vpcPeerings).filter (·.remote ≠ remote) =
    (items spec.vpcPeerings).filter (·.remote ≠ remote)
  frameRoutes : (items after.staticRoutes).filter (·.hop ≠ hop) =
    (items spec.staticRoutes).filter (·.hop ≠ hop)
  framePolicies : (items after.policyRoutes).filter (· ∉ ownPolicies spec hop side) =
    (items spec.policyRoutes).filter (· ∉ ownPolicies spec hop side)
  undo : HoldsNothing spec remote hop →
    (items (removeSide after remote).vpcPeerings).Perm (items spec.vpcPeerings) ∧
    (items (removeSide after remote).staticRoutes).Perm (items spec.staticRoutes) ∧
    (items (removeSide after remote).policyRoutes).Perm (items spec.policyRoutes)

/-- The routes over the link are the routes to the remote CIDRs, every policy
about one of them is the peering's, and a router without the peering has none. -/
structure Undisputed (spec : VpcSpec) (remote hop : String) (cidrs : List String) : Prop where
  routes : ∀ route ∈ items spec.staticRoutes, route.hop = hop ↔ route.cidrText ∈ cidrs
  policies : ∀ policy ∈ items spec.policyRoutes, ∀ c ∈ cidrs,
    policy.matchText = dstMatch c → policy = policyFor c
  fresh : HoldsNothing spec remote hop →
    ∀ policy ∈ items spec.policyRoutes, ∀ c ∈ cidrs, policy.matchText ≠ dstMatch c

variable {spec : VpcSpec} {remote connectIP cidr : String} {cidrs : List String} {link : Link}

section Apply

variable {linkCIDR : String}

theorem mem_withSide_routes {route : StaticRoute} :
    route ∈ items (spec.withSide remote (renderSide remote connectIP linkCIDR cidrs)).staticRoutes ↔
      (route ∈ items spec.staticRoutes ∧ route.cidrText ∉ cidrs) ∨
        ∃ c ∈ cidrs, routeTo c (otherEnd connectIP linkCIDR) = route := by
  simp only [VpcSpec.withSide, withRoutes, items_some, Keyed.mem_put, renderSide_routes_keys,
    mem_renderSide_routes]

theorem mem_withSide_policies {policy : PolicyRoute} : policy ∈ items
      (spec.withSide remote (renderSide remote connectIP linkCIDR cidrs)).policyRoutes ↔
      (policy ∈ items spec.policyRoutes ∧ policy.matchText ∉ cidrs.map dstMatch) ∨
        ∃ c ∈ cidrs, policyFor c = policy := by
  simp only [VpcSpec.withSide, withPolicies, items_some, Keyed.mem_put, renderSide_policies_keys,
    mem_renderSide_policies]

theorem withSide_framePeerings (side : Side) (hside : side.peering.remote = remote) :
    (items (spec.withSide remote side).vpcPeerings).filter (·.remote ≠ remote) =
      (items spec.vpcPeerings).filter (·.remote ≠ remote) := by
  simp only [VpcSpec.withSide, withPeering, withoutPeering, items_some, filter_append]
  rw [Keyed.filter_drop fun entry _ h => by simpa using h]
  simp [hside]

end Apply

section Remove

theorem farEnd_connect (hlink : parse cidr = .ok link)
    (hconnect : connectIP = link.a ∨ connectIP = link.b) :
    farEnd (connectIP ++ "/" ++ prefixLength link.cidr) = some (otherEnd connectIP link.cidr) := by
  have hne : connectIP ++ "/" ++ prefixLength link.cidr ≠ "" := by
    intro h
    have hnil := congrArg String.toList h
    simp at hnil
  rw [farEnd, if_neg hne, Link.parse_connect hlink hconnect, otherEnd, Link.parse_cidr hlink]
  simp only [Link.hasPrefix_iff hlink hconnect]

theorem mem_routedCIDRs_withSide (hlink : parse cidr = .ok link)
    (hconnect : connectIP = link.a ∨ connectIP = link.b) {c : String} :
    c ∈ routedCIDRs (spec.withSide remote (renderSide remote connectIP link.cidr cidrs)).vpcPeerings
        (spec.withSide remote (renderSide remote connectIP link.cidr cidrs)).staticRoutes remote ↔
      c ≠ "" ∧ c ∈ cidrsOver
        (spec.withSide remote (renderSide remote connectIP link.cidr cidrs))
        (otherEnd connectIP link.cidr) := by
  have hfar : farEnd (connectOf
      (spec.withSide remote (renderSide remote connectIP link.cidr cidrs)).vpcPeerings remote) =
      some (otherEnd connectIP link.cidr) := by
    rw [connectOf_withSide (renderSide remote connectIP link.cidr cidrs) renderSide_remote]
    exact farEnd_connect hlink hconnect
  rw [routedCIDRs, hfar]
  simp only [mem_filter, decide_eq_true_eq, cidrsOver]
  exact and_comm

/-- On a router without the peering, the routes over the link are the ones just
laid down. -/
theorem mem_cidrsOver_withSide {hop linkCIDR : String} (hhop : otherEnd connectIP linkCIDR = hop)
    (h : HoldsNothing spec remote hop) {c : String} :
    c ∈ cidrsOver (spec.withSide remote (renderSide remote connectIP linkCIDR cidrs)) hop ↔
      c ∈ cidrs := by
  rw [mem_cidrsOver]
  constructor
  · rintro ⟨route, hroute, hhop', rfl⟩
    obtain ⟨hmem, -⟩ | ⟨d, hd, rfl⟩ := mem_withSide_routes.mp hroute
    · exact absurd hhop' (h.routes route hmem)
    · exact hd
  · intro hc
    exact ⟨routeTo c hop, mem_withSide_routes.mpr (.inr ⟨c, hc, by rw [hhop]⟩), rfl, rfl⟩

/-- What is left after a half has been laid down on a router without the peering
and taken back. -/
theorem removeSide_withSide (hlink : parse cidr = .ok link)
    (hconnect : connectIP = link.a ∨ connectIP = link.b) (hcidrs : "" ∉ cidrs)
    (h : HoldsNothing spec remote (otherEnd connectIP link.cidr)) :
    removeSide (spec.withSide remote (renderSide remote connectIP link.cidr cidrs)) remote =
      { vpcPeerings := some (items spec.vpcPeerings)
        staticRoutes := some (Keyed.drop StaticRoute.cidrText cidrs (items spec.staticRoutes))
        policyRoutes := some (Keyed.drop PolicyRoute.matchText (cidrs.map dstMatch)
          (items spec.policyRoutes)) } := by
  have hrouted (c : String) : c ∈ routedCIDRs
      (spec.withSide remote (renderSide remote connectIP link.cidr cidrs)).vpcPeerings
      (spec.withSide remote (renderSide remote connectIP link.cidr cidrs)).staticRoutes remote ↔
      c ∈ cidrs := by
    rw [mem_routedCIDRs_withSide hlink hconnect, mem_cidrsOver_withSide rfl h]
    exact ⟨And.right, fun hc => ⟨ne_of_mem_of_not_mem hc hcidrs, hc⟩⟩
  have hmatches (m : String) : m ∈ (routedCIDRs
      (spec.withSide remote (renderSide remote connectIP link.cidr cidrs)).vpcPeerings
      (spec.withSide remote (renderSide remote connectIP link.cidr cidrs)).staticRoutes
      remote).map dstMatch ↔ m ∈ cidrs.map dstMatch := by
    simp only [mem_map, hrouted]
  rw [removeSide, withoutPeering, withoutCIDRs, withoutMatches, Keyed.drop_congr hrouted,
    Keyed.drop_congr hmatches]
  simp only [VpcSpec.withSide, withPeering_eq_put _ renderSide_remote, withRoutes, withPolicies,
    items_some]
  have hentries : Keyed.drop PeeringEntry.remote [remote] (items spec.vpcPeerings) =
      items spec.vpcPeerings :=
    Keyed.drop_eq_self_iff.mpr fun entry hentry => by simpa using h.peering entry hentry
  rw [Keyed.drop_put, Keyed.drop_put, Keyed.drop_put, hentries]
  · intro policy hpolicy
    obtain ⟨c, hc, rfl⟩ := mem_renderSide_policies.mp hpolicy
    exact mem_map.mpr ⟨c, hc, rfl⟩
  · intro route hroute
    obtain ⟨c, hc, rfl⟩ := mem_renderSide_routes.mp hroute
    exact hc
  · simp [renderSide_remote]

end Remove

section RoundTrip

theorem Undisputed.roundTrip (hlink : parse cidr = .ok link)
    (hconnect : connectIP = link.a ∨ connectIP = link.b) (hcidrs : "" ∉ cidrs)
    (h : Undisputed spec remote (otherEnd connectIP link.cidr) cidrs) :
    RoundTrip spec (spec.withSide remote (renderSide remote connectIP link.cidr cidrs)) remote
      (otherEnd connectIP link.cidr) (renderSide remote connectIP link.cidr cidrs) := by
  have hroutes : ∀ route, route ∈ items
      (spec.withSide remote (renderSide remote connectIP link.cidr cidrs)).staticRoutes ∧
      route.hop = otherEnd connectIP link.cidr ↔
      route ∈ (renderSide remote connectIP link.cidr cidrs).routes := by
    intro route
    rw [mem_withSide_routes, mem_renderSide_routes]
    constructor
    · rintro ⟨⟨hmem, hkey⟩ | hlaid, hhop⟩
      · exact absurd ((h.routes route hmem).mp hhop) hkey
      · exact hlaid
    · rintro ⟨c, hc, rfl⟩
      exact ⟨.inr ⟨c, hc, rfl⟩, rfl⟩
  refine ⟨hroutes, ?_, withSide_framePeerings _ renderSide_remote, ?_, ?_, ?_⟩
  · intro policy
    rw [mem_renderSide_policies]
    constructor
    · rintro ⟨-, c, hc, rfl⟩
      obtain ⟨route, hroute, hhop, rfl⟩ := mem_cidrsOver.mp hc
      obtain ⟨d, hd, rfl⟩ := mem_renderSide_routes.mp ((hroutes route).mp ⟨hroute, hhop⟩)
      exact ⟨d, hd, rfl⟩
    · rintro ⟨c, hc, rfl⟩
      refine ⟨mem_withSide_policies.mpr (.inr ⟨c, hc, rfl⟩), c, mem_cidrsOver.mpr ?_, rfl⟩
      exact ⟨_, mem_withSide_routes.mpr (.inr ⟨c, hc, rfl⟩), rfl, rfl⟩
  · simp only [VpcSpec.withSide, withRoutes, items_some, Keyed.put, filter_append,
      renderSide_routes_keys]
    rw [Keyed.filter_drop fun route hroute hhop =>
      mt (h.routes route hroute).mpr (by simpa using hhop)]
    simp [renderSide, routeTo, StaticRoute.hop]
  · simp only [VpcSpec.withSide, withPolicies, items_some, Keyed.put, filter_append,
      renderSide_policies_keys]
    have hlaid : (renderSide remote connectIP link.cidr cidrs).policies.filter
        (· ∉ ownPolicies spec (otherEnd connectIP link.cidr)
          (renderSide remote connectIP link.cidr cidrs)) = [] := by
      rw [filter_eq_nil_iff]
      intro policy hpolicy
      simp [ownPolicies, hpolicy]
    rw [hlaid, append_nil, Keyed.filter_drop]
    intro policy hpolicy hforeign hkey
    obtain ⟨c, hc, hmatch⟩ := mem_map.mp hkey
    have hown := h.policies policy hpolicy c hc hmatch.symm
    have hmem : policy ∈ (renderSide remote connectIP link.cidr cidrs).policies :=
      mem_renderSide_policies.mpr ⟨c, hc, hown.symm⟩
    simp [ownPolicies, hmem] at hforeign
  · intro hnothing
    rw [removeSide_withSide hlink hconnect hcidrs hnothing]
    have hkeep : Keyed.drop StaticRoute.cidrText cidrs (items spec.staticRoutes) =
        items spec.staticRoutes :=
      Keyed.drop_eq_self_iff.mpr fun route hroute =>
        mt (h.routes route hroute).mpr (hnothing.routes route hroute)
    have hkeep' : Keyed.drop PolicyRoute.matchText (cidrs.map dstMatch)
        (items spec.policyRoutes) = items spec.policyRoutes := by
      refine Keyed.drop_eq_self_iff.mpr fun policy hpolicy hkey => ?_
      obtain ⟨c, hc, hmatch⟩ := mem_map.mp hkey
      exact h.fresh hnothing policy hpolicy c hc hmatch.symm
    rw [hkeep, hkeep']
    exact ⟨List.Perm.refl _, List.Perm.refl _, List.Perm.refl _⟩

theorem RoundTrip.undisputed (hlink : parse cidr = .ok link)
    (hconnect : connectIP = link.a ∨ connectIP = link.b) (hcidrs : "" ∉ cidrs)
    (h : RoundTrip spec (spec.withSide remote (renderSide remote connectIP link.cidr cidrs))
      remote (otherEnd connectIP link.cidr) (renderSide remote connectIP link.cidr cidrs)) :
    Undisputed spec remote (otherEnd connectIP link.cidr) cidrs := by
  constructor
  · intro route hroute
    constructor
    · -- a route over the link to a CIDR the remote no longer has stays
      intro hhop
      by_contra hkey
      have hafter : route ∈ items
          (spec.withSide remote (renderSide remote connectIP link.cidr cidrs)).staticRoutes :=
        mem_withSide_routes.mpr (.inl ⟨hroute, hkey⟩)
      obtain ⟨c, hc, rfl⟩ := mem_renderSide_routes.mp ((h.routes route).mp ⟨hafter, hhop⟩)
      exact hkey hc
    · -- a route of another writer to one of the CIDRs is replaced
      intro hkey
      by_contra hhop
      have hmem : route ∈ (items spec.staticRoutes).filter
          (·.hop ≠ otherEnd connectIP link.cidr) := by simp [hroute, hhop]
      rw [← h.frameRoutes, mem_filter] at hmem
      obtain ⟨-, hnot⟩ | ⟨c, -, rfl⟩ := mem_withSide_routes.mp hmem.1
      · exact hnot hkey
      · exact hhop rfl
  · -- a policy of another writer about one of the CIDRs is replaced
    intro policy hpolicy c hc hmatch
    by_contra hne
    have hforeign : policy ∉ ownPolicies spec (otherEnd connectIP link.cidr)
        (renderSide remote connectIP link.cidr cidrs) := by
      intro hown
      obtain ⟨d, rfl⟩ : ∃ d, policyFor d = policy := by
        obtain hlaid | hrouted := mem_append.mp hown
        · obtain ⟨d, -, hd⟩ := mem_renderSide_policies.mp hlaid
          exact ⟨d, hd⟩
        · obtain ⟨d, -, hd⟩ := mem_map.mp hrouted
          exact ⟨d, hd⟩
      exact hne (congrArg policyFor (dstMatch_injective hmatch))
    have hmem : policy ∈ (items spec.policyRoutes).filter
        (· ∉ ownPolicies spec (otherEnd connectIP link.cidr)
          (renderSide remote connectIP link.cidr cidrs)) := by simp [hpolicy, hforeign]
    rw [← h.framePolicies, mem_filter] at hmem
    obtain ⟨-, hnot⟩ | ⟨d, hd, rfl⟩ := mem_withSide_policies.mp hmem.1
    · exact hnot (mem_map.mpr ⟨c, hc, hmatch.symm⟩)
    · exact hne (congrArg policyFor (dstMatch_injective hmatch))
  · -- a policy that another peering relies on goes when this one is taken back
    intro hnothing policy hpolicy c hc hmatch
    have hperm := (h.undo hnothing).2.2
    rw [removeSide_withSide hlink hconnect hcidrs hnothing] at hperm
    have hmem := hperm.mem_iff.mpr hpolicy
    rw [items_some, Keyed.mem_drop] at hmem
    exact hmem.2 (mem_map.mpr ⟨c, hc, hmatch.symm⟩)

end RoundTrip

/-- A half is laid down and taken back without touching anything else exactly on
an undisputed router. -/
theorem roundTrip_iff {spec : VpcSpec} {remote cidr connectIP : String} {link : Link}
    {cidrs : List String} (hlink : parse cidr = .ok link)
    (hconnect : connectIP = link.a ∨ connectIP = link.b) (hcidrs : "" ∉ cidrs) :
    RoundTrip spec (afterApply spec remote (renderSide remote connectIP link.cidr cidrs)) remote
      (otherEnd connectIP link.cidr) (renderSide remote connectIP link.cidr cidrs) ↔
    Undisputed spec remote (otherEnd connectIP link.cidr) cidrs := by
  rw [afterApply_eq]
  exact ⟨fun h => h.undisputed hlink hconnect hcidrs, fun h => h.roundTrip hlink hconnect hcidrs⟩

/-- A router with a default route and a peering of its own towards `right`. -/
def sharedRouter : VpcSpec where
  vpcPeerings := some [{ remoteVpc := some "right", localConnectIP := some "169.254.101.5/30" }]
  staticRoutes := some [routeTo "0.0.0.0/0" "10.0.0.1", routeTo "10.2.0.0/24" "169.254.101.6"]
  policyRoutes := some [policyFor "10.2.0.0/24"]

theorem roundTrip_sharedRouter : RoundTrip sharedRouter
      (afterApply sharedRouter "left"
        (renderSide "left" "169.254.101.1" "169.254.101.0/30" ["10.1.0.0/24"])) "left"
      (otherEnd "169.254.101.1" "169.254.101.0/30")
      (renderSide "left" "169.254.101.1" "169.254.101.0/30" ["10.1.0.0/24"]) := by
  have hlink : parse "169.254.101.0/30" =
      .ok ⟨"169.254.101.0/30", "169.254.101.1", "169.254.101.2"⟩ := by decide
  exact (roundTrip_iff hlink (.inl rfl) (by decide)).mpr ⟨by decide, by decide, fun _ => by decide⟩

/-- A router whose peering with `left` was laid down when `left` had another
subnet. -/
def staleRouter : VpcSpec where
  vpcPeerings := some [{ remoteVpc := some "left", localConnectIP := some "169.254.101.1/30" }]
  staticRoutes := some [routeTo "10.9.0.0/24" "169.254.101.2"]
  policyRoutes := some [policyFor "10.9.0.0/24"]

/-- The route to the subnet that is gone stays, and so does its policy. -/
theorem staleRouter_not_roundTrip : ¬ RoundTrip staleRouter
      (afterApply staleRouter "left"
        (renderSide "left" "169.254.101.1" "169.254.101.0/30" ["10.1.0.0/24"])) "left"
      (otherEnd "169.254.101.1" "169.254.101.0/30")
      (renderSide "left" "169.254.101.1" "169.254.101.0/30" ["10.1.0.0/24"]) := by
  intro h
  have hstale := (h.routes (routeTo "10.9.0.0/24" "169.254.101.2")).mp ⟨by decide, by decide⟩
  exact absurd hstale (by decide)

end Peering
