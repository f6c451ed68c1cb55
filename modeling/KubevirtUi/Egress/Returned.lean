import KubevirtUi.Egress.Wired

/-!
# The way back

A detach reads the range and the address from the record, and takes away what goes by them. What it
leaves of an attach before it is told list by list, and all of it is nothing exactly where the
attach had found nothing in its place.
-/

namespace Egress

open Peering Interference Python.Ipaddress

variable {remote hop c : String} {item : Versioned Vpc} {data' : Data}

variable {w : World} {name other g cidr v subnet gwIP : String} {data : Data}

section Views

variable {f : VpcSpec → VpcSpec}

@[simp] theorem vpcs_save : (w.save g data).vpcs = w.vpcs := rfl

@[simp] theorem peerings_save : (w.save g data).peerings name = w.peerings name := rfl

@[simp] theorem routes_save : (w.save g data).routes name = w.routes name := rfl

@[simp] theorem policies_save : (w.save g data).policies name = w.policies name := rfl

theorem peerings_rewrite_of_ne (hne : other ≠ name) :
    (w.rewrite name f).peerings other = w.peerings other := by
  rw [World.peerings, spec?_rewrite_of_ne hne, World.peerings]

theorem routes_rewrite_of_ne (hne : other ≠ name) :
    (w.rewrite name f).routes other = w.routes other := by
  rw [World.routes, spec?_rewrite_of_ne hne, World.routes]

variable {change : List Policy → List Policy}

@[simp] theorem peerings_changePolicies :
    (w.changePolicies g change).peerings name = w.peerings name := by
  rw [World.peerings, World.spec?, vpcs_changePolicies]
  rfl

@[simp] theorem routes_changePolicies :
    (w.changePolicies g change).routes name = w.routes name := by
  rw [World.routes, World.spec?, vpcs_changePolicies]
  rfl

@[simp] theorem peerings_changeAcls {change : List Acl.Rule → List Acl.Rule} :
    (w.changeAcls g change).peerings name = w.peerings name := by
  rw [World.peerings, World.spec?, vpcs_changeAcls]
  rfl

@[simp] theorem routes_changeAcls {change : List Acl.Rule → List Acl.Rule} :
    (w.changeAcls g change).routes name = w.routes name := by
  rw [World.routes, World.spec?, vpcs_changeAcls]
  rfl

@[simp] theorem peerings_reroute {change : List StaticRoute → Option (List StaticRoute)} :
    (w.rewrite name (reroute change)).peerings other = w.peerings other := by
  by_cases hname : other = name
  · subst hname
    rw [World.peerings, spec?_rewrite, Option.map_map]
    rfl
  · exact peerings_rewrite_of_ne hname

@[simp] theorem routes_repeer {mutate : List PeeringEntry → Option (List PeeringEntry)} :
    (w.rewrite name (repeer mutate)).routes other = w.routes other := by
  by_cases hname : other = name
  · subst hname
    rw [World.routes, spec?_rewrite, Option.map_map]
    rfl
  · exact routes_rewrite_of_ne hname

/-- The peerings that one change of them leads to; where there is no VPC, there are none. -/
theorem peerings_repeer {mutate : List PeeringEntry → Option (List PeeringEntry)} :
    (w.rewrite name (repeer mutate)).peerings name = w.peerings name ∧ w.peerings name = [] ∨
      (w.rewrite name (repeer mutate)).peerings name =
        (mutate (w.peerings name)).getD (w.peerings name) := by
  rw [World.peerings, spec?_rewrite, World.peerings]
  cases w.spec? name with
  | none => exact .inl ⟨rfl, rfl⟩
  | some spec => exact .inr (items_repeer mutate)

theorem routes_reroute {change : List StaticRoute → Option (List StaticRoute)} :
    (w.rewrite name (reroute change)).routes name = w.routes name ∧ w.routes name = [] ∨
      (w.rewrite name (reroute change)).routes name =
        (change (w.routes name)).getD (w.routes name) := by
  rw [World.routes, spec?_rewrite, World.routes]
  cases w.spec? name with
  | none => exact .inl ⟨rfl, rfl⟩
  | some spec => exact .inr (items_reroute change)

theorem peerings_withoutPeer : (w.rewrite name (repeer (withoutPeer remote))).peerings name =
      Keyed.drop PeeringEntry.remoteVpc [some remote] (w.peerings name) := by
  obtain ⟨hsame, hnil⟩ | hchange := @peerings_repeer w name (withoutPeer remote)
  · rw [hsame, hnil]
    rfl
  · rw [hchange, getD_withoutPeer]

theorem drop_peerings_withPeer {ip : String} : Keyed.drop PeeringEntry.remoteVpc [some remote]
        ((w.rewrite name (repeer (withPeer remote ip))).peerings name) =
      Keyed.drop PeeringEntry.remoteVpc [some remote] (w.peerings name) := by
  obtain ⟨hsame, -⟩ | hchange := @peerings_repeer w name (withPeer remote ip)
  · rw [hsame]
  · rw [hchange, drop_withPeer]

theorem routes_lessRoute {nextHop : Option String} :
    (w.rewrite name (reroute (lessRoute cidr nextHop))).routes name =
      withoutRoute cidr nextHop (w.routes name) := by
  obtain ⟨hsame, hnil⟩ | hchange := @routes_reroute w name (lessRoute cidr nextHop)
  · rw [hsame, hnil]
    rfl
  · rw [hchange, getD_lessRoute]

theorem drop_routes_withRoute : Keyed.drop StaticRoute.cidr [some cidr]
        ((w.rewrite name (reroute (withRoute cidr hop))).routes name) =
      Keyed.drop StaticRoute.cidr [some cidr] (w.routes name) := by
  obtain ⟨hsame, -⟩ | hchange := @routes_reroute w name (withRoute cidr hop)
  · rw [hsame]
  · rw [hchange, drop_withRoute]

theorem withoutRoute_routes_withRoute :
    withoutRoute cidr (some hop) ((w.rewrite name (reroute (withRoute cidr hop))).routes name) =
      Keyed.drop StaticRoute.cidr [some cidr] (w.routes name) := by
  obtain ⟨hsame, hnil⟩ | hchange := @routes_reroute w name (withRoute cidr hop)
  · rw [hsame, hnil]
    rfl
  · rw [hchange, withoutRoute_withRoute]

/-- But for its default route, the gateway's VPC has the routes it had. -/
theorem OwnRoute.drop_routes {change : List StaticRoute → Option (List StaticRoute)}
    (h : OwnRoute change) : Keyed.drop StaticRoute.cidr [some defaultCIDR]
        ((w.rewrite name (reroute change)).routes name) =
      Keyed.drop StaticRoute.cidr [some defaultCIDR] (w.routes name) := by
  obtain rfl | ⟨hop, rfl⟩ := h
  · rw [rewrite_id]
  · exact drop_routes_withRoute

theorem routes_withRoute (hthere : w.vpcs.lookup name ≠ none) :
    (w.rewrite name (reroute (withRoute cidr hop))).routes name =
      (withRoute cidr hop (w.routes name)).getD (w.routes name) := by
  obtain ⟨item, hitem⟩ := Option.ne_none_iff_exists'.mp hthere
  rw [World.routes, spec?_rewrite, World.routes, World.spec?, hitem]
  exact items_reroute _

end Views

section Detach

variable {P : World → Prop} {u : World}

/-- Without the routes for a range, if there is a range. -/
def World.unrouted (w : World) (name cidr : String) : World :=
  if cidr = "" then w else w.rewrite name (reroute (lessRoute cidr none))

def World.uncovered (w : World) (g cidr : String) : World :=
  if cidr = "" then w else w.changePolicies g (removeCIDR cidr)

/-- What a detach writes, one after the other, before the record. -/
def World.unwired (w : World) (g v cidr gwIP : String) : World :=
  ((((w.rewrite (gatewayVpc g) (repeer (withoutPeer v))).rewrite
    v (repeer (withoutPeer (gatewayVpc g)))).unrouted
    (gatewayVpc g) cidr).rewrite
    v (reroute (lessRoute defaultCIDR (some gwIP)))).uncovered
    g cidr

@[simp] theorem allocators_unwired : (w.unwired g v cidr gwIP).allocators = w.allocators := by
  simp only [World.unwired, World.uncovered, World.unrouted]
  split <;> simp

theorem data_unwired : (w.unwired g v cidr gwIP).data g = w.data g := by
  rw [World.data, allocators_unwired, World.data]

theorem dataVersion_unwired : (w.unwired g v cidr gwIP).dataVersion g = w.dataVersion g := by
  rw [World.dataVersion, allocators_unwired, World.dataVersion]

theorem keeps_withoutPeer :
    Keeps g v cidr w (w.rewrite (gatewayVpc g) (repeer (withoutPeer v))) := by
  apply keeps_repeer
  intro peerings e he hne
  rw [getD_withoutPeer]
  exact Keyed.mem_drop.mpr ⟨he, by simpa using hne⟩

theorem keeps_unrouted : Keeps g v cidr w (w.unrouted (gatewayVpc g) (takenCIDR cidr)) := by
  rw [World.unrouted]
  split
  · exact .refl w
  · next hgiven =>
    apply keeps_reroute
    intro routes r hr _ hne
    rw [getD_lessRoute, withoutRoute_none]
    exact Keyed.mem_drop.mpr ⟨hr, by simpa using hne _ (.inr ⟨rfl, hgiven⟩)⟩

theorem keeps_uncovered : Keeps g v cidr w (w.uncovered g (takenCIDR cidr)) := by
  rw [World.uncovered]
  split
  · exact .refl w
  · next hgiven =>
    apply keeps_changePolicies
    intro policies c hc hmem
    exact mem_blocks_removeCIDR (fun hsame => hc (.inr ⟨hsame, hsame ▸ hgiven⟩)) hmem

theorem addressText_ne_empty (a : BitVec 32) : addressText a ≠ "" := by
  intro h
  have hlist := congrArg String.toList h
  rw [addressText, String.toList_ofList] at hlist
  simp [Go.Netip.formatIPv4] at hlist

theorem goes_unrouted (hw : P w) (hv : P (w.unrouted name cidr)) :
    Goes P (whenGiven cidr (removeStaticRoute name cidr none)) w (.ok ())
      (w.unrouted name cidr) := by
  rw [World.unrouted] at hv ⊢
  rw [whenGiven]
  split at hv
  · next hempty =>
    rw [if_pos hempty, if_pos hempty]
    exact .pure
  · next hgiven =>
    rw [if_neg hgiven, if_neg hgiven]
    exact goes_removeStaticRoute hw hv

theorem goes_uncovered (hw : P w) (hv : P (w.uncovered g cidr)) :
    Goes P (whenGiven cidr (updateVegPolicies g (removeCIDR cidr))) w (.ok ())
      (w.uncovered g cidr) := by
  rw [World.uncovered] at hv ⊢
  rw [whenGiven]
  split at hv
  · next hempty =>
    rw [if_pos hempty, if_pos hempty]
    exact .pure
  · next hgiven =>
    rw [if_neg hgiven, if_neg hgiven]
    exact goes_updateVegPolicies hw hv

theorem goes_detach {p : Block 32} (hitem : u.vpcs.lookup (gatewayVpc g) = some item)
    (htransit : item.value.transitCIDR ≠ "")
    (hp : ipv4Network item.value.transitCIDR.toList = some p) (hbase : p.base ≠ BitVec.allOnes 32)
    (hne : v ≠ gatewayVpc g) (hrecord : recordedCIDR (u.data g) v = takenCIDR cidr)
    (hkey : allocKey v ∈ u.data g) (hu : Keeps g v cidr w u) :
    Goes (Keeps g v cidr w) (detachTenantFromGateway g v) u (.ok ())
      ((u.unwired g v (takenCIDR cidr) (addressText (p.base + 1))).save g
        ((u.data g).erase (allocKey v))) := by
  let taken := takenCIDR cidr
  let gwIP := addressText (p.base + 1)
  let u₁ := u.rewrite (gatewayVpc g) (repeer (withoutPeer v))
  let u₂ := u₁.rewrite v (repeer (withoutPeer (gatewayVpc g)))
  let u₃ := u₂.unrouted (gatewayVpc g) taken
  let u₄ := u₃.rewrite v (reroute (lessRoute defaultCIDR (some gwIP)))
  let u₅ := u₄.uncovered g taken
  have h₁ : Keeps g v cidr w u₁ := hu.trans keeps_withoutPeer
  have h₂ : Keeps g v cidr w u₂ := h₁.trans (keeps_rewrite_tenant hne)
  have h₃ : Keeps g v cidr w u₃ := h₂.trans keeps_unrouted
  have h₄ : Keeps g v cidr w u₄ := h₃.trans (keeps_rewrite_tenant hne)
  have h₅ : Keeps g v cidr w u₅ := h₄.trans keeps_uncovered
  have h₆ : Keeps g v cidr w (u₅.save g ((u.data g).erase (allocKey v))) := by
    refine h₅.trans (keeps_save fun key hother => ?_)
    rw [AList.lookup_erase_ne hother]
    exact congrArg (AList.lookup key) data_unwired.symm
  have gconfig := @goes_getGatewayConfig _ _ g hu
  rw [hitem] at gconfig
  apply gconfig.bind
  dsimp only
  rw [if_neg htransit]
  apply (goes_gatewayTransitIp hp hbase).bind
  apply (goes_getTransitAllocator hu).bind
  dsimp only
  rw [hrecord, if_pos hkey]
  apply (goes_removeVpcPeering hu h₁).bind
  apply (goes_removeVpcPeering h₁ h₂).bind
  apply (goes_unrouted h₂ h₃).bind
  have gdefault : Goes (Keeps g v cidr w)
      (whenGiven gwIP (removeStaticRoute v defaultCIDR (some gwIP))) u₃ (.ok ()) u₄ := by
    rw [whenGiven, if_neg (addressText_ne_empty _)]
    exact goes_removeStaticRoute h₃ h₄
  apply gdefault.bind
  apply (goes_uncovered h₄ h₅).bind
  exact goes_saveTransitAllocator dataVersion_unwired.symm h₆

end Detach

section Together

variable {tip len : String} {config : Vpc} {change : List StaticRoute → Option (List StaticRoute)}

/-- A gateway's VPC says after the attach which networks it has, as it did before. -/
theorem config_wired (hitem : w.vpcs.lookup name = some item) :
    ∃ item', (w.wired g v subnet cidr gwIP tip len config change).vpcs.lookup name = some item' ∧
      item'.value.transitCIDR = item.value.transitCIDR := by
  have hsame : ((w.wired g v subnet cidr gwIP tip len config change).vpcs.lookup name).map
        (fun item => (item.value.labels, item.value.annotations)) =
      some (item.value.labels, item.value.annotations) := by
    rw [World.wired, vpcs_changeAcls, config_rewrite, vpcs_changePolicies, config_rewrite,
      config_rewrite, config_rewrite, config_rewrite, hitem]
    rfl
  obtain ⟨item', hitem', hpair⟩ := Option.map_eq_some_iff.mp hsame
  refine ⟨item', hitem', ?_⟩
  rw [Vpc.transitCIDR, Vpc.annotation, (Prod.mk.inj hpair).2, Vpc.transitCIDR, Vpc.annotation]

theorem peerings_unrouted : (w.unrouted name cidr).peerings other = w.peerings other := by
  rw [World.unrouted]
  split
  · rfl
  · exact peerings_reroute

theorem peerings_uncovered : (w.uncovered g cidr).peerings name = w.peerings name := by
  rw [World.uncovered]
  split
  · rfl
  · exact peerings_changePolicies

theorem routes_uncovered : (w.uncovered g cidr).routes name = w.routes name := by
  rw [World.uncovered]
  split
  · rfl
  · exact routes_changePolicies

theorem routes_unrouted_of_ne (hne : other ≠ name) :
    (w.unrouted name cidr).routes other = w.routes other := by
  rw [World.unrouted]
  split
  · rfl
  · exact routes_rewrite_of_ne hne

theorem routes_unrouted : (w.unrouted name cidr).routes name = lessRange cidr (w.routes name) := by
  rw [World.unrouted, lessRange]
  split
  · rfl
  · rw [routes_lessRoute, withoutRoute_none]

theorem peerings_returned (hne : v ≠ gatewayVpc g) :
    ((((w.wired g v subnet cidr gwIP tip len config change).save g data).unwired g v c gwIP).save
        g data').peerings v =
      Keyed.drop PeeringEntry.remoteVpc [some (gatewayVpc g)] (w.peerings v) := by
  rw [peerings_save, World.unwired, peerings_uncovered, peerings_reroute, peerings_unrouted,
    peerings_withoutPeer, peerings_rewrite_of_ne hne, peerings_save, World.wired,
    peerings_changeAcls, peerings_reroute, peerings_changePolicies, peerings_reroute,
    peerings_reroute, drop_peerings_withPeer, peerings_rewrite_of_ne hne]

theorem hubPeerings_returned (hne : v ≠ gatewayVpc g) :
    ((((w.wired g v subnet cidr gwIP tip len config change).save g data).unwired g v c gwIP).save
        g data').peerings (gatewayVpc g) =
      Keyed.drop PeeringEntry.remoteVpc [some v] (w.peerings (gatewayVpc g)) := by
  rw [peerings_save, World.unwired, peerings_uncovered, peerings_reroute, peerings_unrouted,
    peerings_rewrite_of_ne hne.symm, peerings_withoutPeer, peerings_save, World.wired,
    peerings_changeAcls, peerings_reroute, peerings_changePolicies, peerings_reroute,
    peerings_reroute, peerings_rewrite_of_ne hne.symm, drop_peerings_withPeer]

theorem routes_returned (hne : v ≠ gatewayVpc g) :
    ((((w.wired g v subnet cidr gwIP tip len config change).save g data).unwired g v c gwIP).save
        g data').routes v =
      Keyed.drop StaticRoute.cidr [some defaultCIDR] (w.routes v) := by
  rw [routes_save, World.unwired, routes_uncovered, routes_lessRoute, routes_unrouted_of_ne hne,
    routes_repeer, routes_repeer, routes_save, World.wired, routes_changeAcls,
    routes_rewrite_of_ne hne, routes_changePolicies, routes_rewrite_of_ne hne,
    withoutRoute_routes_withRoute, routes_repeer, routes_repeer]

theorem hubRoutes_returned (hne : v ≠ gatewayVpc g) (hown : OwnRoute change)
    (hthere : w.vpcs.lookup (gatewayVpc g) ≠ none) : Keyed.drop StaticRoute.cidr [some defaultCIDR]
        (((((w.wired g v subnet cidr gwIP tip len config change).save g data).unwired g v c
          gwIP).save g data').routes (gatewayVpc g)) =
      Keyed.drop StaticRoute.cidr [some defaultCIDR]
        (lessRange c ((withRoute cidr tip (w.routes (gatewayVpc g))).getD
          (w.routes (gatewayVpc g)))) := by
  rw [routes_save, World.unwired, routes_uncovered, routes_rewrite_of_ne hne.symm, routes_unrouted,
    routes_repeer, routes_repeer, routes_save, World.wired, routes_changeAcls, drop_lessRange,
    hown.drop_routes, routes_changePolicies]
  rw [routes_withRoute (there_rewrite (there_rewrite (there_rewrite hthere))),
    routes_rewrite_of_ne hne.symm, routes_repeer, routes_repeer, drop_lessRange]

theorem policies_uncovered (hthere : w.gateways.lookup g ≠ none) :
    (w.uncovered g cidr).policies g = lessPolicies cidr (w.policies g) := by
  rw [World.uncovered, lessPolicies]
  split
  · rfl
  · exact policies_changePolicies hthere

@[simp] theorem gateways_unrouted : (w.unrouted name cidr).gateways = w.gateways := by
  rw [World.unrouted]
  split
  · rfl
  · exact gateways_rewrite

theorem policies_unrouted : (w.unrouted name cidr).policies g = w.policies g := by
  rw [World.policies, gateways_unrouted, World.policies]

theorem gateways_changePolicies_none_iff {f : List Policy → List Policy} :
    (w.changePolicies g f).gateways.lookup g = none ↔ w.gateways.lookup g = none := by
  rw [World.changePolicies]
  split
  · rfl
  · next hgateway => simp [hgateway]

theorem gateways_wired_none_iff :
    (w.wired g v subnet cidr gwIP tip len config change).gateways.lookup g = none ↔
      w.gateways.lookup g = none := by
  rw [World.wired, gateways_changeAcls, gateways_rewrite, gateways_changePolicies_none_iff,
    gateways_rewrite, gateways_rewrite, gateways_rewrite, gateways_rewrite]

theorem policies_changeAcls {f : List Acl.Rule → List Acl.Rule} :
    (w.changeAcls subnet f).policies g = w.policies g := by
  rw [World.policies, gateways_changeAcls, World.policies]

theorem policies_wired (hthere : w.gateways.lookup g ≠ none) :
    (w.wired g v subnet cidr gwIP tip len config change).policies g =
      addCIDR cidr (w.policies g) := by
  rw [World.wired, policies_changeAcls, policies_rewrite, policies_changePolicies,
    policies_rewrite, policies_rewrite, policies_rewrite, policies_rewrite]
  rw [gateways_rewrite, gateways_rewrite, gateways_rewrite, gateways_rewrite]
  exact hthere

/-- Where there is a gateway, its policies with the range and without it. -/
theorem policies_returned (hthere : w.gateways.lookup g ≠ none) :
    ((((w.wired g v subnet cidr gwIP tip len config change).save g data).unwired g v c gwIP).save
        g data').policies g = lessPolicies c (addCIDR cidr (w.policies g)) := by
  rw [policies_save, World.unwired, policies_uncovered, policies_rewrite, policies_unrouted,
    policies_rewrite, policies_rewrite, policies_save, policies_wired hthere]
  rw [gateways_rewrite, gateways_unrouted, gateways_rewrite, gateways_rewrite]
  exact gateways_wired_none_iff.not.mpr hthere

theorem policies_eq_nil (hnone : w.gateways.lookup g = none) : w.policies g = [] := by
  rw [World.policies, hnone]
  rfl

theorem policies_returned_of_none (hnone : w.gateways.lookup g = none) :
    ((((w.wired g v subnet cidr gwIP tip len config change).save g data).unwired g v c gwIP).save
        g data').policies g = w.policies g := by
  have hwired : (w.wired g v subnet cidr gwIP tip len config change).gateways.lookup g = none :=
    gateways_wired_none_iff.mpr hnone
  rw [policies_eq_nil hnone]
  apply policies_eq_nil
  change (World.unwired _ g v c gwIP).gateways.lookup g = none
  rw [World.unwired, World.uncovered]
  split
  · rw [gateways_rewrite, gateways_unrouted, gateways_rewrite, gateways_rewrite]
    exact hwired
  · rw [gateways_changePolicies_none_iff, gateways_rewrite, gateways_unrouted, gateways_rewrite,
      gateways_rewrite]
    exact hwired

@[simp] theorem subnets_unwired : (w.unwired g v c gwIP).subnets = w.subnets := by
  simp only [World.unwired, World.uncovered, World.unrouted]
  split <;> simp

theorem acls_returned :
    ((((w.wired g v subnet cidr gwIP tip len config change).save g data).unwired g v c gwIP).save
        g data').subnets.lookup subnet =
      (w.subnets.lookup subnet).map fun found =>
        { found with
          acls := withAllows cidr [config.transitCIDR, config.gwVpcCIDR] found.acls } := by
  change (World.unwired _ g v c gwIP).subnets.lookup subnet = _
  rw [subnets_unwired]
  change (World.wired _ _ _ _ _ _ _ _ _ _).subnets.lookup subnet = _
  rw [World.wired, subnets_changeAcls]
  simp

end Together

end Egress
