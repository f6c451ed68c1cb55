import KubevirtUi.Egress.Hub
import KubevirtUi.Library.Solo

/-!
# What each part does alone

Where no request fails and nobody else writes, each part of an attach or a detach makes one write
at most. What it writes is a change of one list.
-/

namespace Egress

open Peering Interference

def World.spec? (w : World) (name : String) : Option VpcSpec :=
  (w.vpcs.lookup name).map fun item => item.value.spec

def World.rewrite (w : World) (name : String) (f : VpcSpec → VpcSpec) : World :=
  match w.vpcs.lookup name with
  | none => w
  | some item => w.patchVpc name item (f item.value.spec)

def World.changePolicies (w : World) (name : String) (change : List Policy → List Policy) : World :=
  match w.gateways.lookup name with
  | none => w
  | some gateway =>
    { w with gateways := w.gateways.insert name { gateway with
        policies := change gateway.policies } }

def World.changeAcls (w : World) (name : String) (change : List Acl.Rule → List Acl.Rule) : World :=
  match w.subnets.lookup name with
  | none => w
  | some subnet =>
    { w with subnets := w.subnets.insert name { subnet with acls := change subnet.acls } }

/-- The data of an allocator; there is none without a ConfigMap. -/
def World.data (w : World) (gatewayName : String) : Data :=
  ((w.allocators.lookup (transitCmName gatewayName)).map Versioned.value).getD ∅

def World.save (w : World) (gatewayName : String) (data : Data) : World :=
  { w with
    clock := w.clock + 1
    allocators := w.allocators.insert (transitCmName gatewayName) ⟨w.clock + 1, data⟩ }

variable {change : List Policy → List Policy} {r : Request} {remoteVpc cidr nextHop : String}

section Worlds

variable {w : World} {name other gatewayName : String} {f : VpcSpec → VpcSpec}

theorem spec?_rewrite : (w.rewrite name f).spec? name = (w.spec? name).map f := by
  cases hitem : w.vpcs.lookup name with
  | none => simp [World.rewrite, World.spec?, hitem]
  | some item =>
    simp only [World.rewrite, hitem, World.patchVpc]
    split
    · next hsame => simp [World.spec?, hitem, hsame]
    · simp [World.spec?, hitem]

theorem spec?_rewrite_of_ne (hne : other ≠ name) :
    (w.rewrite name f).spec? other = w.spec? other := by
  cases hitem : w.vpcs.lookup name with
  | none => simp [World.rewrite, hitem]
  | some item =>
    simp only [World.rewrite, hitem, World.patchVpc]
    split
    · rfl
    · simp [World.spec?, AList.lookup_insert_ne hne]

@[simp] theorem subnets_rewrite : (w.rewrite name f).subnets = w.subnets := by
  rw [World.rewrite]
  split
  · rfl
  · rw [World.patchVpc]
    split <;> rfl

@[simp] theorem gateways_rewrite : (w.rewrite name f).gateways = w.gateways := by
  rw [World.rewrite]
  split
  · rfl
  · rw [World.patchVpc]
    split <;> rfl

@[simp] theorem allocators_rewrite : (w.rewrite name f).allocators = w.allocators := by
  rw [World.rewrite]
  split
  · rfl
  · rw [World.patchVpc]
    split <;> rfl

@[simp] theorem data_rewrite : (w.rewrite name f).data gatewayName = w.data gatewayName := by
  rw [World.data, allocators_rewrite, World.data]

theorem config_rewrite : ((w.rewrite name f).vpcs.lookup other).map
      (fun item => (item.value.labels, item.value.annotations)) =
    (w.vpcs.lookup other).map fun item => (item.value.labels, item.value.annotations) := by
  cases hitem : w.vpcs.lookup name with
  | none => simp [World.rewrite, hitem]
  | some item =>
    simp only [World.rewrite, hitem, World.patchVpc]
    split
    · rfl
    · by_cases hname : other = name
      · subst hname
        simp [hitem]
      · simp [AList.lookup_insert_ne hname]

@[simp] theorem vpcs_changePolicies : (w.changePolicies name change).vpcs = w.vpcs := by
  rw [World.changePolicies]
  split <;> rfl

@[simp] theorem subnets_changePolicies : (w.changePolicies name change).subnets = w.subnets := by
  rw [World.changePolicies]
  split <;> rfl

@[simp] theorem allocators_changePolicies :
    (w.changePolicies name change).allocators = w.allocators := by
  rw [World.changePolicies]
  split <;> rfl

def World.policies (w : World) (name : String) : List Policy :=
  ((w.gateways.lookup name).map VpcEgressGateway.policies).getD []

theorem policies_changePolicies (hthere : w.gateways.lookup name ≠ none) :
    (w.changePolicies name change).policies name = change (w.policies name) := by
  obtain ⟨gateway, hgateway⟩ := Option.ne_none_iff_exists'.mp hthere
  simp [World.changePolicies, World.policies, hgateway]

variable {change : List Acl.Rule → List Acl.Rule}

@[simp] theorem vpcs_changeAcls : (w.changeAcls name change).vpcs = w.vpcs := by
  rw [World.changeAcls]
  split <;> rfl

@[simp] theorem gateways_changeAcls : (w.changeAcls name change).gateways = w.gateways := by
  rw [World.changeAcls]
  split <;> rfl

@[simp] theorem allocators_changeAcls : (w.changeAcls name change).allocators = w.allocators := by
  rw [World.changeAcls]
  split <;> rfl

theorem subnets_changeAcls :
    (w.changeAcls name change).subnets.lookup name = (w.subnets.lookup name).map fun subnet =>
      { subnet with acls := change subnet.acls } := by
  cases hsubnet : w.subnets.lookup name with
  | none => simp [World.changeAcls, hsubnet]
  | some subnet => simp [World.changeAcls, hsubnet]

@[simp] theorem data_save {data : Data} : (w.save gatewayName data).data gatewayName = data := by
  simp [World.save, World.data]

end Worlds

/-- Without faults, the program ends so, and meets only such worlds. -/
def Goes (P : World → Prop) {α : Type} (p : Call α) (w : World) (x : Except Failure α)
    (v : World) : Prop :=
  ∀ n, ∃ m, Passes serve (fun _ => none) P p n w x m v

section Parts

variable {P : World → Prop} {α β : Type} {p : Call α} {f : α → Call β} {w v u : World} {a : α}
  {e : Failure} {name : String}

theorem Goes.pure : Goes P (Pure.pure a : Call α) w (.ok a) w := fun n => ⟨n, .pure⟩

theorem Goes.throw : Goes P (MonadExcept.throw e : Call α) w (.error e) w := fun n => ⟨n, .throw⟩

theorem Goes.bind {y : Except Failure β} (hp : Goes P p w (.ok a) v) (hf : Goes P (f a) v y u) :
    Goes P (p >>= f) w y u := by
  intro n
  obtain ⟨m, hm⟩ := hp n
  obtain ⟨k, hk⟩ := hf m
  exact ⟨k, hm.bind hk⟩

theorem Goes.bind_error (hp : Goes P p w (.error e) v) : Goes P (p >>= f) w (.error e) v := by
  intro n
  obtain ⟨m, hm⟩ := hp n
  exact ⟨m, hm.bind_error⟩

theorem Goes.ask {r : Request} (h : P (commit w r).2) :
    Goes P (ask r) w (commit w r).1 (commit w r).2 :=
  fun n => ⟨n + 1, .ask serve (fun _ => none) r n w h⟩

theorem Goes.exceptApi_ok {handler : Nat → Call α} (h : Goes P p w (.ok a) v) :
    Goes P (exceptApi p handler) w (.ok a) v := by
  intro n
  obtain ⟨m, hm⟩ := h n
  exact ⟨m, hm.tryCatch_ok⟩

theorem Goes.exceptApi_api {handler : Nat → Call α} {status : Nat} {y : Except Failure α}
    (h : Goes P p w (.error (.api status)) v) (hh : Goes P (handler status) v y u) :
    Goes P (exceptApi p handler) w y u := by
  intro n
  obtain ⟨m, hm⟩ := h n
  obtain ⟨k, hk⟩ := hh m
  exact ⟨k, hm.tryCatch_error hk⟩

theorem Goes.ends {x y : Except Failure α} (h : Goes P p w x v) {n m : Nat}
    (hends : Ends serve (fun _ => none) p n w y m u) : y = x ∧ u = v := by
  obtain ⟨k, hk⟩ := h n
  obtain ⟨hx, -, hu⟩ := hends.unique hk.ends
  exact ⟨hx, hu⟩

theorem Goes.orNone_some {x : r.Result} (hr : commit w r = (.ok x, w)) (hw : P w) :
    Goes P (orNone (Egress.ask r)) w (.ok (some x)) w := by
  have hask := @Goes.ask P w r (by rw [hr]; exact hw)
  rw [hr] at hask
  have hsome : Goes P (do return some (← Egress.ask r)) w (.ok (some x)) w := hask.bind .pure
  exact hsome.exceptApi_ok

theorem Goes.orNone_none (hr : commit w r = (.error (.api 404), w)) (hw : P w) :
    Goes P (orNone (Egress.ask r)) w (.ok none) w := by
  have hask := @Goes.ask P w r (by rw [hr]; exact hw)
  rw [hr] at hask
  exact Goes.exceptApi_api hask.bind_error .pure

theorem goes_getVpc {item : Versioned Vpc} (hitem : w.vpcs.lookup name = some item) (hw : P w) :
    Goes P (orNone (ask (.getVpc name))) w (.ok (some item)) w :=
  .orNone_some (by simp [commit, hitem]) hw

theorem goes_getVpc_none (hnone : w.vpcs.lookup name = none) (hw : P w) :
    Goes P (orNone (ask (.getVpc name))) w (.ok none) w :=
  .orNone_none (by simp [commit, hnone]) hw

/-- The peerings after a change, or as they are where there is nothing to change. -/
def repeer (mutate : List PeeringEntry → Option (List PeeringEntry)) (spec : VpcSpec) : VpcSpec :=
  { spec with vpcPeerings := (mutate (items spec.vpcPeerings)).or spec.vpcPeerings }

theorem goes_patchSpecWithRetry {mutate : List PeeringEntry → Option (List PeeringEntry)}
    (left : Nat) (hw : P w) (hv : P (w.rewrite name (repeer mutate))) :
    ∃ b, Goes P (patchSpecWithRetry name mutate (left + 1)) w (.ok b)
      (w.rewrite name (repeer mutate)) := by
  cases hitem : w.vpcs.lookup name with
  | none =>
    have hsame : w.rewrite name (repeer mutate) = w := by simp [World.rewrite, hitem]
    rw [hsame]
    exact ⟨false, (goes_getVpc_none hitem hw).bind .pure⟩
  | some item =>
    have hrewrite : w.rewrite name (repeer mutate) =
        w.patchVpc name item (repeer mutate item.value.spec) := by simp [World.rewrite, hitem]
    cases hmutate : mutate (items item.value.spec.vpcPeerings) with
    | none =>
      have hsame : w.rewrite name (repeer mutate) = w := by
        rw [hrewrite, repeer, hmutate, Option.none_or, World.patchVpc, if_pos rfl]
      rw [hsame]
      refine ⟨false, (goes_getVpc hitem hw).bind ?_⟩
      dsimp only
      rw [hmutate]
      exact .pure
    | some peerings =>
      have hpatch : commit w (.patchPeerings name item.version peerings) =
          (.ok (), w.rewrite name (repeer mutate)) := by
        rw [hrewrite, repeer, hmutate]
        simp [commit, hitem]
      have hask := @Goes.ask P w (.patchPeerings name item.version peerings)
        (by rw [hpatch]; exact hv)
      rw [hpatch] at hask
      refine ⟨true, (goes_getVpc hitem hw).bind ?_⟩
      dsimp only
      rw [hmutate]
      have htrue : Goes P (do ask (.patchPeerings name item.version peerings); return true) w
          (.ok true) (w.rewrite name (repeer mutate)) := hask.bind .pure
      exact htrue.exceptApi_ok

theorem goes_ensureVpcPeering {ip : String} (hw : P w)
    (hv : P (w.rewrite name (repeer (withPeer remoteVpc ip)))) :
    ∃ b, Goes P (ensureVpcPeering name remoteVpc ip) w (.ok b)
      (w.rewrite name (repeer (withPeer remoteVpc ip))) := by
  obtain ⟨b, hb⟩ := goes_patchSpecWithRetry 4 hw hv
  cases b with
  | true => exact ⟨true, hb.bind .pure⟩
  | false =>
    generalize hx : w.rewrite name (repeer (withPeer remoteVpc ip)) = x at hb hv
    cases hitem : x.vpcs.lookup name with
    | none => exact ⟨false, hb.bind ((goes_getVpc_none hitem hv).bind .pure)⟩
    | some item => exact ⟨true, hb.bind ((goes_getVpc hitem hv).bind .pure)⟩

theorem goes_removeVpcPeering (hw : P w)
    (hv : P (w.rewrite name (repeer (withoutPeer remoteVpc)))) :
    Goes P (removeVpcPeering name remoteVpc) w (.ok ())
      (w.rewrite name (repeer (withoutPeer remoteVpc))) := by
  obtain ⟨b, hb⟩ := goes_patchSpecWithRetry 4 hw hv
  exact hb.bind .pure

def reroute (change : List StaticRoute → Option (List StaticRoute)) (spec : VpcSpec) : VpcSpec :=
  { spec with staticRoutes := (change (items spec.staticRoutes)).or spec.staticRoutes }

theorem goes_patchRoutes {change : List StaticRoute → Option (List StaticRoute)}
    {item : Versioned Vpc} (hitem : w.vpcs.lookup name = some item)
    (hv : P (w.rewrite name (reroute change))) :
    Goes P (match change (items item.value.spec.staticRoutes) with
      | none => Pure.pure ()
      | some routes => ask (.patchRoutes name routes)) w (.ok ())
        (w.rewrite name (reroute change)) := by
  have hrewrite : w.rewrite name (reroute change) =
      w.patchVpc name item (reroute change item.value.spec) := by simp [World.rewrite, hitem]
  cases hchange : change (items item.value.spec.staticRoutes) with
  | none =>
    have hsame : w.rewrite name (reroute change) = w := by
      rw [hrewrite, reroute, hchange, Option.none_or, World.patchVpc, if_pos rfl]
    rw [hsame]
    exact .pure
  | some routes =>
    have hpatch : commit w (.patchRoutes name routes) =
        (.ok (), w.rewrite name (reroute change)) := by
      rw [hrewrite, reroute, hchange]
      simp [commit, hitem]
    have hask := @Goes.ask P w (.patchRoutes name routes) (by rw [hpatch]; exact hv)
    rw [hpatch] at hask
    exact hask

theorem goes_addStaticRoute (hthere : w.vpcs.lookup name ≠ none) (hw : P w)
    (hv : P (w.rewrite name (reroute (withRoute cidr nextHop)))) :
    Goes P (addStaticRoute name cidr nextHop) w (.ok ())
      (w.rewrite name (reroute (withRoute cidr nextHop))) := by
  obtain ⟨item, hitem⟩ := Option.ne_none_iff_exists'.mp hthere
  exact (goes_getVpc hitem hw).bind (goes_patchRoutes hitem hv)

theorem goes_addStaticRoute_none (hnone : w.vpcs.lookup name = none) (hw : P w) :
    Goes P (addStaticRoute name cidr nextHop) w
      (.error (.http 404 ("VPC '" ++ name ++ "' not found"))) w :=
  (goes_getVpc_none hnone hw).bind .throw

/-- The routes that remain, if some go. -/
def lessRoute (cidr : String) (nextHop : Option String) (routes : List StaticRoute) :
    Option (List StaticRoute) :=
  if (withoutRoute cidr nextHop routes).length = routes.length then none
  else some (withoutRoute cidr nextHop routes)

theorem goes_removeStaticRoute {nextHop : Option String} (hw : P w)
    (hv : P (w.rewrite name (reroute (lessRoute cidr nextHop)))) :
    Goes P (removeStaticRoute name cidr nextHop) w (.ok ())
      (w.rewrite name (reroute (lessRoute cidr nextHop))) := by
  cases hitem : w.vpcs.lookup name with
  | none =>
    have hsame : w.rewrite name (reroute (lessRoute cidr nextHop)) = w := by
      simp [World.rewrite, hitem]
    rw [hsame]
    exact (goes_getVpc_none hitem hw).bind .pure
  | some item =>
    have hpatch := @goes_patchRoutes P w name (lessRoute cidr nextHop) item hitem hv
    refine (goes_getVpc hitem hw).bind ?_
    simp only [lessRoute] at hpatch ⊢
    split
    · next hsame =>
      rw [if_pos hsame] at hpatch
      exact hpatch
    · next hsame =>
      rw [if_neg hsame] at hpatch
      exact hpatch

theorem goes_updateVegPolicies (hw : P w) (hv : P (w.changePolicies name change)) :
    Goes P (updateVegPolicies name change) w (.ok ()) (w.changePolicies name change) := by
  cases hgateway : w.gateways.lookup name with
  | none =>
    have hsame : w.changePolicies name change = w := by simp [World.changePolicies, hgateway]
    rw [hsame]
    have hnone : Goes P (orNone (ask (.getGateway name))) w (.ok none) w :=
      .orNone_none (by simp [commit, hgateway]) hw
    exact hnone.bind .pure
  | some gateway =>
    have hpatch : commit w (.patchPolicies name (change gateway.policies)) =
        (.ok (), w.changePolicies name change) := by
      simp [commit, World.changePolicies, hgateway]
    have hask := @Goes.ask P w (.patchPolicies name (change gateway.policies))
      (by rw [hpatch]; exact hv)
    rw [hpatch] at hask
    have hsome : Goes P (orNone (ask (.getGateway name))) w (.ok (some gateway)) w :=
      .orNone_some (by simp [commit, hgateway]) hw
    exact hsome.bind hask.exceptApi_ok

theorem goes_addAclAllowCIDRs {srcCIDR : String} {allowCIDRs : List String} (hw : P w)
    (hv : P (w.changeAcls name (withAllows srcCIDR allowCIDRs))) :
    Goes P (addAclAllowCIDRs name srcCIDR allowCIDRs) w (.ok ())
      (w.changeAcls name (withAllows srcCIDR allowCIDRs)) := by
  cases hsubnet : w.subnets.lookup name with
  | none =>
    have hsame : w.changeAcls name (withAllows srcCIDR allowCIDRs) = w := by
      simp [World.changeAcls, hsubnet]
    rw [hsame]
    have hnone : Goes P (orNone (ask (.getSubnet name))) w (.ok none) w :=
      .orNone_none (by simp [commit, hsubnet]) hw
    exact hnone.bind .pure
  | some subnet =>
    have hpatch : commit w (.patchAcls name (withAllows srcCIDR allowCIDRs subnet.acls)) =
        (.ok (), w.changeAcls name (withAllows srcCIDR allowCIDRs)) := by
      simp [commit, World.changeAcls, hsubnet]
    have hask := @Goes.ask P w (.patchAcls name (withAllows srcCIDR allowCIDRs subnet.acls))
      (by rw [hpatch]; exact hv)
    rw [hpatch] at hask
    have hsome : Goes P (orNone (ask (.getSubnet name))) w (.ok (some subnet)) w :=
      .orNone_some (by simp [commit, hsubnet]) hw
    exact hsome.bind hask

end Parts

end Egress
