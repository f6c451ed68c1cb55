import KubevirtUi.Peering.Cluster

/-!
# What on a router is about a peering

Nothing on a router says whose it is, so what counts as a peering's is what taking
the peering off would remove: the entries for the remote network, whatever is
routed for a CIDR that some route takes over the link, and the policies for such a
CIDR. Laying a half down for one network adds nothing about another, apart from
what the half itself consists of.
-/

namespace Peering

open List

/-- The entries for the remote network, the routes for a CIDR that is routed over the
link, and the policies for one. -/
def VpcSpec.About (spec : VpcSpec) (remote : String) : Item → Prop
  | .entry entry => entry.remote = remote
  | .route route =>
    route.cidrText ∈ routedCIDRs spec.vpcPeerings spec.staticRoutes remote
  | .policy policy =>
    policy.matchText ∈ (routedCIDRs spec.vpcPeerings spec.staticRoutes remote).map dstMatch

instance (spec : VpcSpec) (remote : String) : (item : Item) → Decidable (spec.About remote item)
  | .entry _ => inferInstanceAs (Decidable (_ = _))
  | .route _ => inferInstanceAs (Decidable (_ ∈ _))
  | .policy _ => inferInstanceAs (Decidable (_ ∈ _))

variable {entry : PeeringEntry} {route : StaticRoute} {policy : PolicyRoute}
  {peerings : Option (List PeeringEntry)}

variable {spec : VpcSpec} {remote other : String} {item : Item}

section Contents

@[simp] theorem entry_mem_contents :
    .entry entry ∈ spec.contents ↔ entry ∈ items spec.vpcPeerings := by
  simp [VpcSpec.contents]

@[simp] theorem route_mem_contents :
    .route route ∈ spec.contents ↔ route ∈ items spec.staticRoutes := by
  simp [VpcSpec.contents]

@[simp] theorem policy_mem_contents :
    .policy policy ∈ spec.contents ↔ policy ∈ items spec.policyRoutes := by
  simp [VpcSpec.contents]

theorem mem_contents_removeSide :
    item ∈ (removeSide spec remote).contents ↔ item ∈ spec.contents ∧ ¬ spec.About remote item := by
  cases item <;>
    simp [removeSide, withoutPeering, withoutCIDRs, withoutMatches, VpcSpec.About]

theorem names_eq_false_iff :
    spec.names remote = false ↔ ∀ entry ∈ items spec.vpcPeerings, entry.remote ≠ remote := by
  simp [VpcSpec.names]

theorem names_iff : spec.names remote = true ↔
    ∃ entry, .entry entry ∈ spec.contents ∧ entry.remote = remote := by
  simp [VpcSpec.names]

theorem routedCIDRs_of_not_names (h : spec.names remote = false) :
    routedCIDRs spec.vpcPeerings spec.staticRoutes remote = [] := by
  have hconnect : connectOf spec.vpcPeerings remote = "" := by
    have hnone : (items spec.vpcPeerings).filter (·.remote = remote) = [] := by
      simpa [filter_eq_nil_iff] using names_eq_false_iff.mp h
    rw [connectOf, hnone]
    rfl
  rw [routedCIDRs, hconnect]
  rfl

theorem not_about_of_not_names (h : spec.names remote = false) (hitem : item ∈ spec.contents) :
    ¬ spec.About remote item := by
  have hrouted := routedCIDRs_of_not_names h
  cases item with
  | entry entry => exact names_eq_false_iff.mp h entry (entry_mem_contents.mp hitem)
  | route route => simp [VpcSpec.About, hrouted]
  | policy policy => simp [VpcSpec.About, hrouted]

theorem contents_removeSide_of_not_names (h : spec.names remote = false) :
    (removeSide spec remote).contents = spec.contents := by
  have hentries : withoutPeering spec.vpcPeerings remote = items spec.vpcPeerings :=
    Keyed.drop_eq_self_iff.mpr fun entry hentry => by
      simpa using names_eq_false_iff.mp h entry hentry
  rw [removeSide, routedCIDRs_of_not_names h, hentries]
  simp [VpcSpec.contents, withoutCIDRs, withoutMatches, Keyed.drop]

theorem connectOf_congr {peerings' : Option (List PeeringEntry)}
    (h : (items peerings).filter (·.remote = remote) =
      (items peerings').filter (·.remote = remote)) :
    connectOf peerings remote = connectOf peerings' remote := by
  rw [connectOf, connectOf, h]

theorem mem_routedCIDRs {routes : Option (List StaticRoute)} {c : String} :
    c ∈ routedCIDRs peerings routes remote ↔ c ≠ "" ∧ ∃ far,
      farEnd (connectOf peerings remote) = some far ∧
        ∃ route ∈ items routes, route.hop = far ∧ route.cidrText = c := by
  unfold routedCIDRs
  cases farEnd (connectOf peerings remote) with
  | none => simp
  | some far =>
    simp only [mem_filter, mem_map, decide_eq_true_eq, Option.some.injEq, ne_eq]
    constructor
    · rintro ⟨⟨route, ⟨hroute, hhop⟩, hcidr⟩, hne⟩
      exact ⟨hne, far, rfl, route, hroute, hhop, hcidr⟩
    · rintro ⟨hne, far', rfl, route, hroute, hhop, hcidr⟩
      exact ⟨⟨route, ⟨hroute, hhop⟩, hcidr⟩, hne⟩

end Contents

section Remove

theorem names_removeSide (spec : VpcSpec) (remote : String) :
    (removeSide spec remote).names remote = false := by
  simp [VpcSpec.names, removeSide, withoutPeering]

theorem about_of_removeSide (hitem : item ∈ (removeSide spec remote).contents)
    (h : (removeSide spec remote).About other item) : spec.About other item := by
  by_cases hother : other = remote
  · subst hother
    exact absurd h (not_about_of_not_names (names_removeSide spec other) hitem)
  have hconnect : connectOf (removeSide spec remote).vpcPeerings other =
      connectOf spec.vpcPeerings other := by
    refine connectOf_congr ?_
    rw [removeSide, withoutPeering, items_some, Keyed.filter_drop]
    exact fun entry _ hentry => by simpa [of_decide_eq_true hentry] using hother
  have hrouted {c : String} (hc : c ∈ routedCIDRs (removeSide spec remote).vpcPeerings
      (removeSide spec remote).staticRoutes other) :
      c ∈ routedCIDRs spec.vpcPeerings spec.staticRoutes other := by
    obtain ⟨hne, far, hfar, route, hroute, hhop, hcidr⟩ := mem_routedCIDRs.mp hc
    rw [hconnect] at hfar
    rw [removeSide, withoutCIDRs, items_some, Keyed.mem_drop] at hroute
    exact mem_routedCIDRs.mpr ⟨hne, far, hfar, route, hroute.1, hhop, hcidr⟩
  cases item with
  | entry entry => exact h
  | route route => exact hrouted h
  | policy policy =>
    obtain ⟨c, hc, hmatch⟩ := mem_map.mp h
    exact mem_map.mpr ⟨c, hrouted hc, hmatch⟩

end Remove

/-- The CIDRs a half is for on a router: those it routes, and those that the router
takes over its far end already. -/
def Side.cidrs (side : Side) (spec : VpcSpec) : List String :=
  side.routes.map StaticRoute.cidrText ++
    match farEnd (side.peering.localConnectIP.getD "") with
    | none => []
    | some far => ((items spec.staticRoutes).filter (·.hop = far)).map StaticRoute.cidrText

/-- The item is a route or a policy for one of the CIDRs of the half. -/
def Side.Touches (side : Side) (spec : VpcSpec) : Item → Prop
  | .entry _ => False
  | .route route => route.cidrText ∈ side.cidrs spec
  | .policy policy => policy.matchText ∈ (side.cidrs spec).map dstMatch ∨
      policy.matchText ∈ side.policies.map PolicyRoute.matchText

instance (side : Side) (spec : VpcSpec) : (item : Item) → Decidable (side.Touches spec item)
  | .entry _ => inferInstanceAs (Decidable False)
  | .route _ => inferInstanceAs (Decidable (_ ∈ _))
  | .policy _ => inferInstanceAs (Decidable (_ ∨ _))

section Apply

variable {side : Side}

@[simp] theorem entry_mem_side : .entry entry ∈ side.contents ↔ entry = side.peering := by
  simp [Side.contents]

@[simp] theorem route_mem_side : .route route ∈ side.contents ↔ route ∈ side.routes := by
  simp [Side.contents]

@[simp] theorem policy_mem_side : .policy policy ∈ side.contents ↔ policy ∈ side.policies := by
  simp [Side.contents]

theorem mem_contents_withSide (h : item ∈ (spec.withSide remote side).contents) :
    item ∈ side.contents ∨ item ∈ spec.contents := by
  cases item with
  | entry entry =>
    simp only [entry_mem_contents, VpcSpec.withSide, items_some, withPeering, withoutPeering,
      mem_append, Keyed.mem_drop, mem_singleton] at h
    simpa using h.symm.imp_right And.left
  | route route =>
    simp only [route_mem_contents, VpcSpec.withSide, items_some, withRoutes, Keyed.mem_put] at h
    simpa using h.symm.imp_right And.left
  | policy policy =>
    simp only [policy_mem_contents, VpcSpec.withSide, items_some, withPolicies, Keyed.mem_put] at h
    simpa using h.symm.imp_right And.left

theorem side_mem_withSide (h : item ∈ side.contents) :
    item ∈ (spec.withSide remote side).contents := by
  cases item with
  | entry entry =>
    rw [entry_mem_side] at h
    simp [VpcSpec.withSide, withPeering, h]
  | route route =>
    exact route_mem_contents.mpr (Keyed.mem_put.mpr (.inr (route_mem_side.mp h)))
  | policy policy =>
    exact policy_mem_contents.mpr (Keyed.mem_put.mpr (.inr (policy_mem_side.mp h)))

/-- Laying a half down takes away nothing but what is about the peering, or a route or
a policy for one of its CIDRs. -/
theorem kept_withSide (remote : String) (side : Side) (hitem : item ∈ spec.contents) :
    item ∈ (spec.withSide remote side).contents ∨ spec.About remote item ∨
      side.Touches spec item := by
  cases item with
  | entry entry =>
    by_cases hremote : entry.remote = remote
    · exact .inr (.inl hremote)
    · refine .inl (entry_mem_contents.mpr ?_)
      simp only [VpcSpec.withSide, items_some, withPeering, withoutPeering, mem_append,
        Keyed.mem_drop, mem_singleton]
      exact .inl ⟨entry_mem_contents.mp hitem, hremote⟩
  | route route =>
    by_cases hkey : route.cidrText ∈ side.routes.map StaticRoute.cidrText
    · exact .inr (.inr (mem_append_left _ hkey))
    · exact .inl (route_mem_contents.mpr
        (Keyed.mem_put.mpr (.inl ⟨route_mem_contents.mp hitem, hkey⟩)))
  | policy policy =>
    by_cases hkey : policy.matchText ∈ side.policies.map PolicyRoute.matchText
    · exact .inr (.inr (.inr hkey))
    · exact .inl (policy_mem_contents.mpr
        (Keyed.mem_put.mpr (.inl ⟨policy_mem_contents.mp hitem, hkey⟩)))

/-- What is about a peering after a half has been laid down: what the half consists of,
what was about it before, and what is for one of the CIDRs of the half. -/
theorem about_of_withSide (hside : side.peering.remote = remote)
    (hitem : item ∈ (spec.withSide remote side).contents)
    (h : (spec.withSide remote side).About other item) :
    item ∈ side.contents ∨ item ∈ spec.contents ∧
      (spec.About other item ∨ side.Touches spec item) := by
  obtain hmem | hmem := mem_contents_withSide hitem
  · exact .inl hmem
  refine .inr ⟨hmem, ?_⟩
  have hrouted {c : String} (hc : c ∈ routedCIDRs (spec.withSide remote side).vpcPeerings
      (spec.withSide remote side).staticRoutes other) :
      c ∈ routedCIDRs spec.vpcPeerings spec.staticRoutes other ∨ c ∈ side.cidrs spec := by
    obtain ⟨hne, far, hfar, route, hroute, hhop, rfl⟩ := mem_routedCIDRs.mp hc
    rw [VpcSpec.withSide, withRoutes, items_some, Keyed.mem_put] at hroute
    obtain ⟨hold, -⟩ | hnew := hroute
    · by_cases hother : other = remote
      · rw [hother, connectOf_withSide side hside] at hfar
        refine .inr (mem_append_right _ ?_)
        rw [hfar]
        exact mem_map_of_mem (mem_filter.mpr ⟨hold, by simpa using hhop⟩)
      · have hconnect : connectOf (spec.withSide remote side).vpcPeerings other =
            connectOf spec.vpcPeerings other := by
          refine connectOf_congr ?_
          rw [VpcSpec.withSide, withPeering, withoutPeering, items_some, filter_append,
            Keyed.filter_drop]
          · simp [hside, Ne.symm hother]
          · exact fun entry _ hentry => by simpa [of_decide_eq_true hentry] using hother
        rw [hconnect] at hfar
        exact .inl (mem_routedCIDRs.mpr ⟨hne, far, hfar, route, hold, hhop, rfl⟩)
    · exact .inr (mem_append_left _ (mem_map_of_mem hnew))
  cases item with
  | entry entry => exact .inl h
  | route route => exact hrouted h
  | policy policy =>
    obtain ⟨c, hc, hmatch⟩ := mem_map.mp h
    obtain hc | hc := hrouted hc
    · exact .inl (mem_map.mpr ⟨c, hc, hmatch⟩)
    · exact .inr (.inl (mem_map.mpr ⟨c, hc, hmatch⟩))

end Apply

end Peering
