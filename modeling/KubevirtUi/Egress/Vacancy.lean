import KubevirtUi.Egress.Returned

/-!
# Where a detach undoes the attach

It does exactly where the place was vacant: no route, peering or policy there that goes by the same
name, and the allow rules laid before. Then no other VPC loses an entry on the way.
-/

namespace Egress

open Peering Interference Python.Ipaddress Option

/-- The call, with nobody else and no faults, ends so. -/
def Alone {α : Type} (p : Call α) (w : World) (x : Except Failure α) (v : World) : Prop :=
  ∃ m, Ends serve (fun _ => none) p 0 w x m v

/-- The worlds on its way. -/
def meets {α : Type} (p : Call α) (w : World) : List World :=
  p.run.worlds serve (fun _ => none) 0 w

section Turn

variable {external : Option External} {g v subnet cidr : String} {w u t : World}
  {info : AttachedVpcInfo} {x : Except Failure Unit}

theorem Goes.alone {α : Type} {P : World → Prop} {p : Call α} {x y : Except Failure α}
    (h : Goes P p w x u) (halone : Alone p w y t) : y = x ∧ t = u ∧ ∀ o ∈ meets p w, P o := by
  obtain ⟨m, hend⟩ := halone
  obtain ⟨k, hk⟩ := h 0
  obtain ⟨hx, ht⟩ := h.ends hend
  exact ⟨hx, ht, hk.way⟩

variable (hg : g ≠ "") (hnew : allocKey v ∉ w.data g) (hsubnet : ',' ∉ subnet.toList)
  (hcidr : cidr ≠ "")
  (hattach : Alone (attachTenantToGateway external (some g) v subnet cidr) w (.ok (some info)) u)
  (hdetach : Alone (detachTenantFromGateway g v) u x t)

include hg hnew hsubnet hcidr hattach hdetach in
/-- What an attach and the detach after it have come upon, and what they have left. -/
theorem of_turn :
    ∃ item tip gwIP len change, v ≠ gatewayVpc g ∧ w.vpcs.lookup (gatewayVpc g) = some item ∧
      w.nextTransitIP g = some tip ∧ OwnRoute change ∧
      (let data := (w.data g).insert (allocKey v) (tip ++ "," ++ subnet ++ "," ++ cidr)
       t = (((w.wired g v subnet cidr gwIP tip len item.value change).save g data).unwired g v
        (takenCIDR cidr) gwIP).save g (data.erase (allocKey v))) ∧
      ∀ o ∈ meets (attachTenantToGateway external (some g) v subnet cidr) w ++
        meets (detachTenantFromGateway g v) u, Keeps g v cidr w o := by
  obtain ⟨m, hend⟩ := hattach
  have hnamed : (some g).getD "" ≠ "" := hg
  have hrun := hend
  rw [attachTenantToGateway, if_pos hnamed] at hrun
  obtain ⟨attached, _, y, hto, hpure⟩ := hrun.of_bind_ok
  obtain ⟨-, -, hsame⟩ := Ends.pure.unique hpure
  subst y
  obtain ⟨item, p, host, change, hne, hitem, htransit, hp, hbase, hnext, htenant, hown, hu, hkeeps,
    gto⟩ := of_attachTo hnew hcidr hto
  let gwIP := addressText (p.base + 1)
  let len := toString p.bits
  let record := addressText host ++ "," ++ subnet ++ "," ++ cidr
  have gattach : Goes (Keeps g v cidr w)
      (attachTenantToGateway external (some g) v subnet cidr) w (.ok (some attached)) u := by
    rw [attachTenantToGateway, if_pos hnamed]
    exact gto.bind .pure
  have hdata : u.data g = (w.data g).insert (allocKey v) record := by rw [hu, data_save]
  have htip : ',' ∉ (addressText host).toList := by
    rw [addressText, String.toList_ofList]
    exact Go.Netip.Foreign.not_mem_formatIPv4 ⟨by decide, by decide, by decide⟩ host
  have hrecord : recordedCIDR (u.data g) v = takenCIDR cidr := by
    rw [hdata, recordedCIDR_insert htip hsubnet]
  have hkey : allocKey v ∈ u.data g := by
    rw [hdata, AList.mem_insert]
    exact .inl rfl
  obtain ⟨item', hitem', hsame⟩ : ∃ item', u.vpcs.lookup (gatewayVpc g) = some item' ∧
      item'.value.transitCIDR = item.value.transitCIDR := by
    rw [hu, vpcs_save]
    exact config_wired hitem
  have gdetach := goes_detach hitem' (hsame ▸ htransit) (hsame ▸ hp) hbase hne hrecord hkey hkeeps
  obtain ⟨-, ht, hback⟩ := gdetach.alone hdetach
  obtain ⟨-, -, hway⟩ := gattach.alone ⟨m, hend⟩
  refine ⟨item, addressText host, gwIP, len, change, hne, hitem, hnext, hown, ?_, ?_⟩
  · rw [ht, hdata, hu]
  · intro o ho
    exact (List.mem_append.mp ho).elim (hway o) (hback o)

/-- The routes of the gateway's VPC are as before exactly where none of them went by the range, and
where one that stays had been there. -/
theorem drop_lessRange_takenCIDR {tip : String} {routes : List StaticRoute} (hcidr : cidr ≠ "") :
    Keyed.drop StaticRoute.cidr [some defaultCIDR]
        (lessRange (takenCIDR cidr) ((withRoute cidr tip routes).getD routes)) =
      Keyed.drop StaticRoute.cidr [some defaultCIDR] routes ↔
    (takenCIDR cidr ≠ "" → takenCIDR cidr ≠ defaultCIDR →
      ∀ r ∈ routes, r.cidr ≠ some (takenCIDR cidr)) ∧ (takenCIDR cidr ≠ cidr →
      Keyed.pick StaticRoute.cidr [some cidr] routes = [routeTo cidr tip]) := by
  by_cases htaken : takenCIDR cidr = cidr
  · have hless : lessRange cidr ((withRoute cidr tip routes).getD routes) =
        lessRange cidr routes := by
      rw [lessRange, if_neg hcidr, lessRange, if_neg hcidr, drop_withRoute]
    rw [htaken, hless, drop_lessRange_eq_drop_iff]
    exact ⟨fun h => ⟨h, fun hne => absurd rfl hne⟩, fun h => h.1⟩
  · have hdefault : defaultCIDR ≠ cidr := by
      intro hsame
      apply htaken
      rw [← hsame]
      exact takenCIDR_eq_self (by decide)
    rw [drop_lessRange_withRoute htaken hdefault, imp_iff_right htaken]

theorem subnet_with_acls_eq_iff {found : Subnet} {acls : List Acl.Rule} :
    { found with acls := acls } = found ↔ acls = found.acls :=
  ⟨fun h => congrArg Subnet.acls h, fun h => by rw [h]⟩

include hg hnew hsubnet hcidr hattach hdetach in
theorem restored_iff : Restored g v subnet w t ↔ Vacant g v subnet cidr w := by
  obtain ⟨item, tip, gwIP, len, change, hne, hitem, hnext, hown, ht, -⟩ :=
    of_turn hg hnew hsubnet hcidr hattach hdetach
  have hthere : w.vpcs.lookup (gatewayVpc g) ≠ none := by simp [hitem]
  have hpeerings : t.peerings v = w.peerings v ↔
      ∀ e ∈ w.peerings v, e.remoteVpc ≠ some (gatewayVpc g) := by
    rw [ht, peerings_returned hne, Keyed.drop_eq_self_iff]
    simp
  have hroutes : t.routes v = w.routes v ↔ ∀ r ∈ w.routes v, r.cidr ≠ some defaultCIDR := by
    rw [ht, routes_returned hne, Keyed.drop_eq_self_iff]
    simp
  have hhubPeerings : t.peerings (gatewayVpc g) = w.peerings (gatewayVpc g) ↔
      ∀ e ∈ w.peerings (gatewayVpc g), e.remoteVpc ≠ some v := by
    rw [ht, hubPeerings_returned hne, Keyed.drop_eq_self_iff]
    simp
  have hacls : t.subnets.lookup subnet = w.subnets.lookup subnet ↔
      ∀ found, w.subnets.lookup subnet = some found →
        ∀ c ∈ [item.value.transitCIDR, item.value.gwVpcCIDR],
          ∃ rule ∈ found.acls, rule.matchExpr = allowMatch cidr c := by
    rw [ht, acls_returned]
    cases hsubnet : w.subnets.lookup subnet with
    | none => simp
    | some found =>
      rw [map_some, some.injEq, subnet_with_acls_eq_iff, withAllows_eq_self_iff]
      simp
  have hdata (key : String) : (t.data g).lookup key = (w.data g).lookup key := by
    rw [ht, data_save]
    by_cases hkey : key = allocKey v
    · rw [hkey, AList.lookup_erase, AList.lookup_eq_none.mpr hnew]
    · rw [AList.lookup_erase_ne hkey, AList.lookup_insert_ne hkey]
  have hhubRoutes := @drop_lessRange_takenCIDR cidr tip (w.routes (gatewayVpc g)) hcidr
  rw [← hubRoutes_returned hne hown hthere, ← ht] at hhubRoutes
  have hpolicies : t.policies g = w.policies g ↔
      (takenCIDR cidr ≠ "" → ∀ policy ∈ w.policies g,
        takenCIDR cidr ∉ policy.blocks ∧ policy.ipBlocks ≠ some []) ∧
      (takenCIDR cidr ≠ cidr → w.gateways.lookup g ≠ none →
        cidr ∈ (w.policies g).flatMap Policy.blocks) := by
    by_cases hgateway : w.gateways.lookup g = none
    · rw [ht, policies_returned_of_none hgateway, policies_eq_nil hgateway]
      exact iff_of_true rfl ⟨fun _ policy h => (nomatch h), fun _ h => absurd hgateway h⟩
    · rw [ht, policies_returned hgateway, lessPolicies_addCIDR_iff hcidr]
      simp only [ne_eq, hgateway, not_false_eq_true, true_imp_iff]
  constructor
  · intro h
    exact {
      peerings := hpeerings.mp h.peerings
      routes := hroutes.mp h.routes
      hubPeerings := hhubPeerings.mp h.hubPeerings
      hubRoutes := (hhubRoutes.mp h.hubRoutes).1
      policies := (hpolicies.mp h.policies).1
      dualRoute := fun hdual => ⟨tip, hnext, (hhubRoutes.mp h.hubRoutes).2 hdual⟩
      dualPolicy := (hpolicies.mp h.policies).2
      acls := fun found hlookup item' hitem' => by
        obtain rfl := mem_unique hitem hitem'
        exact hacls.mp h.acls found hlookup }
  · intro h
    exact {
      peerings := hpeerings.mpr h.peerings
      routes := hroutes.mpr h.routes
      acls := hacls.mpr fun found hlookup => h.acls found hlookup item hitem
      policies := hpolicies.mpr ⟨h.policies, h.dualPolicy⟩
      data := hdata
      hubPeerings := hhubPeerings.mpr h.hubPeerings
      hubRoutes := hhubRoutes.mpr ⟨h.hubRoutes, fun hdual => by
        obtain ⟨tip', hnext', hstands⟩ := h.dualRoute hdual
        obtain rfl := mem_unique hnext hnext'
        exact hstands⟩ }

theorem spared_of_vacant {o : World} (hvacant : Vacant g v subnet cidr w) (hcidr : cidr ≠ "")
    (hkeeps : Keeps g v cidr w o) : Spared g v w o := by
  -- where a range is recorded for another VPC and is touched, the detach takes it
  have htouched {c : String} (hrecorded : takenCIDR c = c) (h : Touched cidr c) :
      takenCIDR cidr = c ∧ c ≠ "" := by
    obtain rfl | ⟨rfl, hgiven⟩ := h
    · exact ⟨hrecorded, hcidr⟩
    · exact ⟨rfl, hgiven⟩
  refine ⟨hkeeps.specs, hkeeps.peerings, hkeeps.data, ?_, ?_⟩
  · intro other hother hattached hdefault r hr hrange _
    apply hkeeps.routes r hr
    · rw [hrange]
      exact fun hsame => hdefault (some.inj hsame)
    · intro c hc hsame
      obtain rfl := mem_unique hrange hsame
      obtain ⟨htaken, hgiven⟩ := htouched (takenCIDR_recordedCIDR _ _) hc
      rw [← htaken] at hgiven hdefault hrange
      exact hvacant.hubRoutes hgiven hdefault r hr hrange
  · intro other hother hattached hmem
    refine hkeeps.policies _ (fun hc => ?_) hmem
    obtain ⟨htaken, hgiven⟩ := htouched (takenCIDR_recordedCIDR _ _) hc
    obtain ⟨policy, hpolicy, hblock⟩ := List.mem_flatMap.mp hmem
    rw [← htaken] at hgiven hblock
    exact (hvacant.policies hgiven policy hpolicy).1 hblock

/-- A detach undoes the attach before it, and takes nothing of others, exactly where the place was
vacant. -/
theorem returns_iff (hg : g ≠ "") (hnew : allocKey v ∉ w.data g) (hsubnet : ',' ∉ subnet.toList)
    (hcidr : cidr ≠ "")
    (hattach : Alone (attachTenantToGateway external (some g) v subnet cidr) w (.ok (some info)) u)
    (hdetach : Alone (detachTenantFromGateway g v) u x t) : (Restored g v subnet w t ∧
      ∀ o ∈ meets (attachTenantToGateway external (some g) v subnet cidr) w ++
        meets (detachTenantFromGateway g v) u, Spared g v w o) ↔ Vacant g v subnet cidr w := by
  have hrestored := restored_iff hg hnew hsubnet hcidr hattach hdetach
  obtain ⟨-, -, -, -, -, -, -, -, -, -, hway⟩ := of_turn hg hnew hsubnet hcidr hattach hdetach
  rw [hrestored]
  exact ⟨fun h => h.1, fun h => ⟨h, fun o ho => spared_of_vacant h hcidr (hway o ho)⟩⟩

end Turn

/-- A gateway that nobody is attached to, and a VPC with these routes and rules. -/
def twoVpcs (routes : List StaticRoute) (acls : List Acl.Rule) : World where
  clock := 2
  vpcs := (AList.singleton "egw-main" ⟨1, {
      labels := []
      annotations := [("kubevirt-ui.io/transit-cidr", "10.255.0.0/29"),
        ("kubevirt-ui.io/gw-vpc-cidr", "10.199.0.0/24")] }⟩).insert
    "blue" ⟨2, { labels := [], annotations := [], spec := { staticRoutes := some routes } }⟩
  subnets := AList.singleton "blue" { vpc := "blue", cidrBlock := "10.20.0.0/24", acls }
  nads := ∅
  gateways := AList.singleton "main"
    { policies := [{ ipBlocks := some ["10.199.0.0/24"] }], internalIPs := ["10.199.0.2"] }
  allocators := ∅

def attachBlue : Call (Option AttachedVpcInfo) :=
  attachTenantToGateway none (some "main") "blue" "blue" "10.20.0.0/24"

/-- The world after the attach. -/
def attachedBlue (w : World) : World := (attachBlue.run.perform serve (fun _ => none) 0 w).2.2

def detachedBlue (w : World) : World :=
  ((detachTenantFromGateway "main" "blue").run.perform serve (fun _ => none) 0 w).2.2

def blueInfo : AttachedVpcInfo := ⟨"blue", "10.255.0.2", "blue", "10.20.0.0/24", "main-to-blue"⟩

theorem alone_perform {α : Type} {p : Call α} {w : World} {x : Except Failure α}
    (h : (p.run.perform serve (fun _ => none) 0 w).1 = x) :
    Alone p w x (p.run.perform serve (fun _ => none) 0 w).2.2 :=
  ⟨(p.run.perform serve (fun _ => none) 0 w).2.1, by rw [Ends, ← h]⟩

/-- The VPC had a default route of its own. -/
def routedBlue : World := twoVpcs [routeTo defaultCIDR "10.20.0.254"] []

theorem not_returns : ¬∀ (external : Option External) (g v subnet cidr : String) (w u t : World)
    (info : AttachedVpcInfo), g ≠ "" → allocKey v ∉ w.data g → ',' ∉ subnet.toList → cidr ≠ "" →
      ',' ∉ cidr.toList →
      Alone (attachTenantToGateway external (some g) v subnet cidr) w (.ok (some info)) u →
      Alone (detachTenantFromGateway g v) u (.ok ()) t →
      Restored g v subnet w t ∧
        ∀ o ∈ meets (attachTenantToGateway external (some g) v subnet cidr) w ++
          meets (detachTenantFromGateway g v) u, Spared g v w o := by
  intro h
  have hattach : Alone attachBlue routedBlue (.ok (some blueInfo)) (attachedBlue routedBlue) :=
    alone_perform (by decide +kernel)
  have hdetach : Alone (detachTenantFromGateway "main" "blue") (attachedBlue routedBlue) (.ok ())
      (detachedBlue (attachedBlue routedBlue)) := alone_perform (by decide +kernel)
  have hback := h none "main" "blue" "blue" "10.20.0.0/24" routedBlue _ _ blueInfo (by decide)
    (by decide) (by decide) (by decide) (by decide) hattach hdetach
  have hlost : (detachedBlue (attachedBlue routedBlue)).routes "blue" ≠
      routedBlue.routes "blue" := by
    decide +kernel
  exact hlost hback.1.routes

/-- The VPC had no routes, and its Subnet the rules that an attach lays. -/
def plainBlue : World := twoVpcs [] [allowRule "10.20.0.0/24" "10.255.0.0/29",
  allowRule "10.20.0.0/24" "10.199.0.0/24"]

theorem vacant_plainBlue : Vacant "main" "blue" "blue" "10.20.0.0/24" plainBlue where
  peerings := by decide +kernel
  routes := by decide +kernel
  hubPeerings := by decide +kernel
  hubRoutes := by decide +kernel
  policies := by decide +kernel
  dualRoute h := absurd (by decide +kernel) h
  dualPolicy h := absurd (by decide +kernel) h
  acls found hfound item hitem := by
    have hrules : (plainBlue.subnets.lookup "blue").map Subnet.acls =
      some [allowRule "10.20.0.0/24" "10.255.0.0/29",
        allowRule "10.20.0.0/24" "10.199.0.0/24"] := by decide +kernel
    have hcidrs : (plainBlue.vpcs.lookup (gatewayVpc "main")).map
        (fun item => [item.value.transitCIDR, item.value.gwVpcCIDR]) =
      some ["10.255.0.0/29", "10.199.0.0/24"] := by decide +kernel
    rw [hitem, map_some] at hcidrs
    rw [hfound, map_some] at hrules
    rw [some.inj hcidrs, some.inj hrules]
    decide +kernel

theorem returns_plainBlue :
    Restored "main" "blue" "blue" plainBlue (detachedBlue (attachedBlue plainBlue)) ∧
      ∀ o ∈ meets attachBlue plainBlue ++
        meets (detachTenantFromGateway "main" "blue") (attachedBlue plainBlue),
          Spared "main" "blue" plainBlue o :=
  (returns_iff (by decide) (by decide) (by decide) (by decide)
    (alone_perform (x := .ok (some blueInfo)) (by decide +kernel))
    (alone_perform (x := .ok ()) (by decide +kernel))).mpr vacant_plainBlue

end Egress
