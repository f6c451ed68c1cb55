import KubevirtUi.Egress.Undone

/-!
# What an attach that succeeds has done

Each part is what it is alone; the record comes last. That it succeeds says that there was a
gateway, an address, and the VPC.
-/

namespace Egress

open Peering Interference Python.Ipaddress

variable {data : Data} {text name gwIP tip len other ip : String} {p : Block 32} {config : Vpc}
  {change : List StaticRoute → Option (List StaticRoute)} {f : VpcSpec → VpcSpec}

section Wired

variable {P : World → Prop} {w u : World} {g v subnet cidr : String}

theorem goes_getGatewayConfig (hw : P w) : Goes P (getGatewayConfig g) w
      (match w.vpcs.lookup (gatewayVpc g) with
        | some item => .ok item.value
        | none => .error (.http 404 ("Egress gateway '" ++ g ++ "' not found"))) w := by
  cases hitem : w.vpcs.lookup (gatewayVpc g) with
  | none => exact (goes_getVpc_none hitem hw).bind .throw
  | some item => exact (goes_getVpc hitem hw).bind .pure

/-- The version under which the data are written. -/
def World.dataVersion (w : World) (gatewayName : String) : Option Nat :=
  (w.allocators.lookup (transitCmName gatewayName)).map Versioned.version

theorem goes_getTransitAllocator (hw : P w) :
    Goes P (getTransitAllocator g) w (.ok (w.data g, w.dataVersion g)) w := by
  rw [World.data, World.dataVersion]
  cases hcm : w.allocators.lookup (transitCmName g) with
  | none =>
    have hnone : Goes P (orNone (ask (.readAllocator (transitCmName g)))) w (.ok none) w :=
      .orNone_none (by simp [commit, hcm]) hw
    exact hnone.bind .pure
  | some cm =>
    have hsome : Goes P (orNone (ask (.readAllocator (transitCmName g)))) w (.ok (some cm)) w :=
      .orNone_some (by simp [commit, hcm]) hw
    exact hsome.bind .pure

theorem goes_saveTransitAllocator {version : Option Nat} (hversion : version = w.dataVersion g)
    (hv : P (w.save g data)) :
    Goes P (saveTransitAllocator g data version) w (.ok ()) (w.save g data) := by
  subst hversion
  rw [World.dataVersion]
  cases hcm : w.allocators.lookup (transitCmName g) with
  | none =>
    have hcreate : commit w (.createAllocator (transitCmName g) data) =
        (.ok (), w.save g data) := by simp [commit, hcm, World.save]
    have hask := @Goes.ask P w (.createAllocator (transitCmName g) data) (by rwa [hcreate])
    rw [hcreate] at hask
    exact hask
  | some cm =>
    have hreplace : commit w (.replaceAllocator (transitCmName g) cm.version data) =
        (.ok (), w.save g data) := by simp [commit, hcm, World.save]
    have hask := @Goes.ask P w (.replaceAllocator (transitCmName g) cm.version data)
      (by rwa [hreplace])
    rw [hreplace] at hask
    exact hask

theorem goes_rejectRoutedVpc {external : Option External} (hw : P w) :
    ∃ x, Goes P (rejectRoutedVpc external v) w x w := by
  cases external with
  | none => exact ⟨_, .pure⟩
  | some network =>
    have hask : Goes P (exceptApi (ask .listVpcs) fun _ => pure []) w _ w :=
      (@Goes.ask P w .listVpcs hw).exceptApi_ok
    rw [rejectRoutedVpc]
    by_cases hrouted : (w.vpcs.entries.map fun e => (e.1, e.2.value)).any fun item =>
        item.1 = v ∧ network.routes item.2.spec
    · exact ⟨_, hask.bind (by rw [if_pos hrouted]; exact .throw)⟩
    · exact ⟨_, hask.bind (by rw [if_neg hrouted]; exact .pure)⟩

/-- The text of a network, or an error that says what is wrong with it. -/
theorem goes_transitNetwork {text : String} {p : Block 32}
    (hp : ipv4Network text.toList = some p) : Goes P (transitNetwork text) w (.ok p) w := by
  rw [transitNetwork, hp]
  exact .pure

theorem goes_gatewayTransitIp (hp : ipv4Network text.toList = some p)
    (hbase : p.base ≠ BitVec.allOnes 32) :
    Goes P (gatewayTransitIp text) w (.ok (addressText (p.base + 1))) w := by
  apply (goes_transitNetwork hp).bind
  rw [if_neg hbase]
  exact .pure

theorem goes_transitPrefixLen (hp : ipv4Network text.toList = some p) :
    Goes P (transitPrefixLen text) w (.ok (toString p.bits)) w :=
  (goes_transitNetwork hp).bind .pure

theorem rewrite_id : w.rewrite name (reroute fun _ => none) = w := by
  rw [World.rewrite]
  split
  · rfl
  · exact if_pos rfl

/-- The route as it is, or one that goes to the first of some addresses. -/
def OwnRoute (change : List StaticRoute → Option (List StaticRoute)) : Prop :=
  change = (fun _ => none) ∨ ∃ hop, change = withRoute defaultCIDR hop

/-- The addresses of the pods, as they are asked for or else as they are. -/
def podAddresses : Option VpcEgressGateway → List String
  | none => []
  | some gateway => if gateway.internalIPs ≠ [] then gateway.internalIPs else gateway.observedIPs

/-- The default route goes through the first of the pods. -/
def routeThrough (gatewayName : String) : List String → Call Unit
  | [] => return ()
  | ip :: _ => addStaticRoute (gatewayVpc gatewayName) defaultCIDR
      (String.ofList (ip.toList.takeWhile (· ≠ '/')))

theorem goes_ensureGatewayDefaultRoute (hthere : w.vpcs.lookup (gatewayVpc g) ≠ none)
    (hv : ∀ change, OwnRoute change → P (w.rewrite (gatewayVpc g) (reroute change))) :
    ∃ change, OwnRoute change ∧ Goes P (ensureGatewayDefaultRoute g) w (.ok ())
      (w.rewrite (gatewayVpc g) (reroute change)) := by
  have hw : P w := by
    have hsame := hv (fun _ => none) (.inl rfl)
    rwa [rewrite_id] at hsame
  have hgateway : ∃ gateway, Goes P (orNone (ask (.getGateway g))) w (.ok gateway) w := by
    cases hgateway : w.gateways.lookup g with
    | none => exact ⟨none, .orNone_none (by simp [commit, hgateway]) hw⟩
    | some gateway => exact ⟨some gateway, .orNone_some (by simp [commit, hgateway]) hw⟩
  obtain ⟨gateway, hgateway⟩ := hgateway
  have hroute : ensureGatewayDefaultRoute g = orNone (ask (.getGateway g)) >>= fun gateway =>
      routeThrough g (podAddresses gateway) := by
    rw [ensureGatewayDefaultRoute]
    refine congrArg _ (funext fun gateway => ?_)
    cases gateway with
    | none => rfl
    | some gateway =>
      change _ = routeThrough g (podAddresses (some gateway))
      simp only [podAddresses]
      split
      · next hips =>
        rw [hips]
        rfl
      · next hips =>
        rw [hips]
        rfl
  rw [hroute]
  cases hips : podAddresses gateway with
  | nil =>
    refine ⟨fun _ => none, .inl rfl, hgateway.bind ?_⟩
    rw [rewrite_id, hips]
    exact .pure
  | cons ip ips =>
    refine ⟨withRoute defaultCIDR (String.ofList (ip.toList.takeWhile (· ≠ '/'))), .inr ⟨_, rfl⟩,
      hgateway.bind ?_⟩
    rw [hips]
    exact goes_addStaticRoute hthere hw (hv _ (.inr ⟨_, rfl⟩))

/-- What an attach has written, one after the other, before the record. -/
def World.wired (w : World) (g v subnet cidr gwIP tip len : String) (config : Vpc)
    (change : List StaticRoute → Option (List StaticRoute)) : World :=
  ((((((w.rewrite (gatewayVpc g) (repeer (withPeer v (gwIP ++ "/" ++ len)))).rewrite
    v (repeer (withPeer (gatewayVpc g) (tip ++ "/" ++ len)))).rewrite
    v (reroute (withRoute defaultCIDR gwIP))).rewrite
    (gatewayVpc g) (reroute (withRoute cidr tip))).changePolicies
    g (addCIDR cidr)).rewrite
    (gatewayVpc g) (reroute change)).changeAcls
    subnet (withAllows cidr [config.transitCIDR, config.gwVpcCIDR])

@[simp] theorem allocators_wired :
    (w.wired g v subnet cidr gwIP tip len config change).allocators = w.allocators := by
  simp [World.wired]

theorem data_wired : (w.wired g v subnet cidr gwIP tip len config change).data g = w.data g := by
  rw [World.data, allocators_wired, World.data]

theorem dataVersion_wired :
    (w.wired g v subnet cidr gwIP tip len config change).dataVersion g = w.dataVersion g := by
  rw [World.dataVersion, allocators_wired, World.dataVersion]

theorem rewrite_eq_none_iff :
    (w.rewrite name f).vpcs.lookup other = none ↔ w.vpcs.lookup other = none := by
  rw [← Option.map_eq_none_iff, config_rewrite, Option.map_eq_none_iff]

theorem there_rewrite (h : w.vpcs.lookup other ≠ none) :
    (w.rewrite name f).vpcs.lookup other ≠ none :=
  rewrite_eq_none_iff.not.mpr h

theorem keeps_withPeer : Keeps g v cidr w (w.rewrite (gatewayVpc g) (repeer (withPeer v ip))) :=
  keeps_repeer fun _ _ he hne => mem_withPeer he hne

theorem keeps_withRoute {hop : String} :
    Keeps g v cidr w (w.rewrite (gatewayVpc g) (reroute (withRoute cidr hop))) :=
  keeps_reroute fun _ _ hr _ hc => mem_withRoute hr (hc cidr (.inl rfl))

theorem OwnRoute.keeps {change : List StaticRoute → Option (List StaticRoute)}
    (h : OwnRoute change) : Keeps g v cidr w (w.rewrite (gatewayVpc g) (reroute change)) := by
  apply keeps_reroute
  intro routes r hr hd _
  obtain rfl | ⟨hop, rfl⟩ := h
  · exact hr
  · exact mem_withRoute hr hd

theorem keeps_addCIDR : Keeps g v cidr w (w.changePolicies g (addCIDR cidr)) :=
  keeps_changePolicies fun _ _ _ hc => mem_blocks_addCIDR hc

theorem goes_wire {config : Vpc} {tip : String} {p : Block 32}
    (hp : ipv4Network config.transitCIDR.toList = some p) (hbase : p.base ≠ BitVec.allOnes 32)
    (hne : v ≠ gatewayVpc g) (hcidr : cidr ≠ "") (hhub : u.vpcs.lookup (gatewayVpc g) ≠ none)
    (htenant : u.vpcs.lookup v ≠ none) (hu : Keeps g v cidr w u) : ∃ change, OwnRoute change ∧
      Keeps g v cidr w (u.wired g v subnet cidr (addressText (p.base + 1)) tip
        (toString p.bits) config change) ∧
      Goes (Keeps g v cidr w) (wire g v subnet cidr tip config) u (.ok ())
        (u.wired g v subnet cidr (addressText (p.base + 1)) tip
          (toString p.bits) config change) := by
  let gwIP := addressText (p.base + 1)
  let len := toString p.bits
  let u₁ := u.rewrite (gatewayVpc g) (repeer (withPeer v (gwIP ++ "/" ++ len)))
  let u₂ := u₁.rewrite v (repeer (withPeer (gatewayVpc g) (tip ++ "/" ++ len)))
  let u₃ := u₂.rewrite v (reroute (withRoute defaultCIDR gwIP))
  let u₄ := u₃.rewrite (gatewayVpc g) (reroute (withRoute cidr tip))
  let u₅ := u₄.changePolicies g (addCIDR cidr)
  have h₁ : Keeps g v cidr w u₁ := hu.trans keeps_withPeer
  have h₂ : Keeps g v cidr w u₂ := h₁.trans (keeps_rewrite_tenant hne)
  have h₃ : Keeps g v cidr w u₃ := h₂.trans (keeps_rewrite_tenant hne)
  have h₄ : Keeps g v cidr w u₄ := h₃.trans keeps_withRoute
  have h₅ : Keeps g v cidr w u₅ := h₄.trans keeps_addCIDR
  have hhub₃ : u₃.vpcs.lookup (gatewayVpc g) ≠ none :=
    there_rewrite (there_rewrite (there_rewrite hhub))
  have hhub₅ : u₅.vpcs.lookup (gatewayVpc g) ≠ none := by
    rw [vpcs_changePolicies]
    exact there_rewrite hhub₃
  obtain ⟨b, hb⟩ := goes_ensureVpcPeering hu h₁
  obtain ⟨c, hc⟩ := goes_ensureVpcPeering h₁ h₂
  obtain ⟨change, hchange, hown⟩ := @goes_ensureGatewayDefaultRoute (Keeps g v cidr w) u₅ g hhub₅
    fun _ h => h₅.trans h.keeps
  have h₆ := h₅.trans (@OwnRoute.keeps u₅ g v cidr change hchange)
  have h₇ := h₆.trans (@keeps_changeAcls g v cidr subnet _
    (withAllows cidr [config.transitCIDR, config.gwVpcCIDR]))
  refine ⟨change, hchange, h₇, ?_⟩
  apply (goes_gatewayTransitIp hp hbase).bind
  apply (goes_transitPrefixLen hp).bind
  apply hb.bind
  apply hc.bind
  apply (goes_addStaticRoute (there_rewrite (there_rewrite htenant)) h₂ h₃).bind
  apply (goes_addStaticRoute hhub₃ h₃ h₄).bind
  rw [if_neg hcidr]
  apply (goes_updateVegPolicies h₄ h₅).bind
  apply hown.bind
  exact goes_addAclAllowCIDRs h₆ h₇

variable {n m : Nat} {x : World}

theorem of_allocateTransitIp {used : List String} (hw : P w)
    (h : Ends serve (fun _ => none) (allocateTransitIp text used) n w (.ok tip) m x) :
    ∃ p host, ipv4Network text.toList = some p ∧
      (hosts p).find? (fun host => addressText host ∉ used ∧ host ≠ p.base + 1) = some host ∧
      tip = addressText host ∧ x = w ∧ Goes P (allocateTransitIp text used) w (.ok tip) w := by
  obtain ⟨p, k, y, hnetwork, hrest⟩ := h.of_bind_ok
  cases hp : ipv4Network text.toList with
  | none =>
    rw [transitNetwork, hp] at hnetwork
    exact nomatch (Ends.throw.unique hnetwork).1
  | some q =>
    obtain ⟨hq, rfl⟩ := (@goes_transitNetwork P w text q hp).ends hnetwork
    obtain rfl := Except.ok.inj hq
    have hfirst := @goes_transitNetwork P y text p hp
    cases hfound : (hosts p).find? fun host =>
        addressText host ∉ used ∧ host ≠ p.base + 1 with
    | none =>
      rw [hfound] at hrest
      exact nomatch (Ends.throw.unique hrest).1
    | some host =>
      rw [hfound] at hrest
      obtain ⟨htip, -, rfl⟩ := Ends.pure.unique hrest
      obtain rfl := Except.ok.inj htip
      refine ⟨p, host, rfl, hfound, rfl, rfl, hfirst.bind ?_⟩
      rw [hfound]
      exact .pure

theorem of_gatewayTransitIp (hp : ipv4Network text.toList = some p)
    (h : Ends serve (fun _ => none) (gatewayTransitIp text) n w (.ok ip) m x) :
    p.base ≠ BitVec.allOnes 32 := by
  intro hbase
  have hthrow : Goes (fun _ => True) (gatewayTransitIp text) w _ w :=
    (goes_transitNetwork hp).bind (by rw [if_pos hbase]; exact .throw)
  exact nomatch (hthrow.ends h).1

theorem of_wire (hp : ipv4Network config.transitCIDR.toList = some p)
    (h : Ends serve (fun _ => none) (wire g v subnet cidr tip config) n w (.ok ()) m x) :
    p.base ≠ BitVec.allOnes 32 ∧ w.vpcs.lookup v ≠ none := by
  have hbase : p.base ≠ BitVec.allOnes 32 := by
    obtain ⟨ip, _, _, hip, -⟩ := Ends.of_bind_ok h
    exact of_gatewayTransitIp hp hip
  refine ⟨hbase, fun hnone => ?_⟩
  let w₁ := w.rewrite (gatewayVpc g)
    (repeer (withPeer v (addressText (p.base + 1) ++ "/" ++ toString p.bits)))
  let w₂ := w₁.rewrite v (repeer (withPeer (gatewayVpc g) (tip ++ "/" ++ toString p.bits)))
  have hnone₂ : w₂.vpcs.lookup v = none :=
    rewrite_eq_none_iff.mpr (rewrite_eq_none_iff.mpr hnone)
  obtain ⟨b, hb⟩ : ∃ b, Goes (fun _ => True) (ensureVpcPeering (gatewayVpc g) v _) w (.ok b) w₁ :=
    goes_ensureVpcPeering trivial trivial
  obtain ⟨c, hc⟩ : ∃ c, Goes (fun _ => True) (ensureVpcPeering v (gatewayVpc g) _) w₁ (.ok c) w₂ :=
    goes_ensureVpcPeering trivial trivial
  have hthrow : Goes (fun _ => True) (wire g v subnet cidr tip config) w
      (.error (.http 404 ("VPC '" ++ v ++ "' not found"))) w₂ := by
    apply (goes_gatewayTransitIp hp hbase).bind
    apply (goes_transitPrefixLen hp).bind
    apply hb.bind
    apply hc.bind
    exact Goes.bind_error (goes_addStaticRoute_none hnone₂ trivial)
  exact nomatch (hthrow.ends h).1

theorem recordFields_eq_nil (h : allocKey v ∉ data) : recordFields data v = [] := by
  rw [recordFields, AList.lookup_eq_none.mpr h, Option.getD_none]
  rfl

/-- What an attach of a VPC without a record has found, and what it has written. -/
theorem of_attachTo {external : Option External} {info : AttachedVpcInfo}
    (hnew : allocKey v ∉ w.data g) (hcidr : cidr ≠ "")
    (h : Ends serve (fun _ => none) (attachTo external g v subnet cidr) n w (.ok info) m u) :
    ∃ item p host change, v ≠ gatewayVpc g ∧ w.vpcs.lookup (gatewayVpc g) = some item ∧
      item.value.transitCIDR ≠ "" ∧ ipv4Network item.value.transitCIDR.toList = some p ∧
      p.base ≠ BitVec.allOnes 32 ∧ w.nextTransitIP g = some (addressText host) ∧
      w.vpcs.lookup v ≠ none ∧ OwnRoute change ∧
      u = (w.wired g v subnet cidr (addressText (p.base + 1)) (addressText host)
        (toString p.bits) item.value change).save g
          ((w.data g).insert (allocKey v) (addressText host ++ "," ++ subnet ++ "," ++ cidr)) ∧
      Keeps g v cidr w u ∧
      Goes (Keeps g v cidr w) (attachTo external g v subnet cidr) w (.ok info) u := by
  have hw : Keeps g v cidr w w := .refl w
  obtain ⟨_, n₁, w₁, hself, h₁⟩ := h.of_bind_ok
  by_cases hne : v = gatewayVpc g
  · rw [rejectSelfAttach, if_pos hne] at hself
    exact nomatch (Ends.throw.unique hself).1
  have gself : Goes (Keeps g v cidr w) (rejectSelfAttach g v) w (.ok ()) w := by
    rw [rejectSelfAttach, if_neg hne]
    exact .pure
  obtain rfl := (gself.ends hself).2
  obtain ⟨_, n₂, w₂, hrouted, h₂⟩ := h₁.of_bind_ok
  obtain ⟨x, grouted⟩ := @goes_rejectRoutedVpc _ _ v external hw
  obtain ⟨rfl, rfl⟩ := grouted.ends hrouted
  obtain ⟨config, n₃, w₃, hconfig, h₃⟩ := h₂.of_bind_ok
  have gconfig := @goes_getGatewayConfig _ _ g hw
  cases hitem : w₂.vpcs.lookup (gatewayVpc g) with
  | none =>
    rw [hitem] at gconfig
    exact nomatch (gconfig.ends hconfig).1
  | some item =>
    rw [hitem] at gconfig
    obtain ⟨hvalue, rfl⟩ := gconfig.ends hconfig
    obtain rfl := Except.ok.inj hvalue
    by_cases htransit : item.value.transitCIDR = ""
    · rw [if_pos htransit] at h₃
      exact nomatch (Ends.throw.unique h₃).1
    rw [if_neg htransit] at h₃
    obtain ⟨_, n₄, w₄, hallocator, h₄⟩ := h₃.of_bind_ok
    have gallocator := @goes_getTransitAllocator _ _ g hw
    obtain ⟨hdata, rfl⟩ := gallocator.ends hallocator
    obtain rfl := Except.ok.inj hdata
    simp only [recordFields_eq_nil hnew] at h₄
    obtain ⟨tip, n₅, w₅, htip, h₅⟩ := h₄.of_bind_ok
    obtain ⟨p, host, hp, hfound, rfl, rfl, gtip⟩ := of_allocateTransitIp hw htip
    obtain ⟨_, n₆, w₆, hwire, h₆⟩ := h₅.of_bind_ok
    obtain ⟨hbase, htenant⟩ := of_wire hp hwire
    have hhub : w₅.vpcs.lookup (gatewayVpc g) ≠ none := by simp [hitem]
    obtain ⟨change, hown, hkeeps, gwire⟩ := @goes_wire w₅ w₅ g v subnet cidr item.value
      (addressText host) p hp hbase hne hcidr hhub htenant hw
    obtain rfl := (gwire.ends hwire).2
    obtain ⟨_, n₇, w₇, hsave, h₇⟩ := h₆.of_bind_ok
    let wired := w₅.wired g v subnet cidr (addressText (p.base + 1)) (addressText host)
      (toString p.bits) item.value change
    let record := addressText host ++ "," ++ subnet ++ "," ++ cidr
    have hsaved : Keeps g v cidr w₅ (wired.save g ((w₅.data g).insert (allocKey v) record)) := by
      refine hkeeps.trans (keeps_save fun key hkey => ?_)
      rw [AList.lookup_insert_ne hkey, data_wired]
    have gsave := goes_saveTransitAllocator (w := wired) dataVersion_wired.symm hsaved
    obtain rfl := (gsave.ends hsave).2
    obtain ⟨hinfo, -, rfl⟩ := Ends.pure.unique h₇
    have hnext : w₅.nextTransitIP g = some (addressText host) := by
      simp only [World.nextTransitIP, hitem, hp, hfound, Option.bind_eq_bind, Option.bind_some,
        Option.pure_def]
    refine ⟨item, p, host, change, hne, rfl, htransit, hp, hbase, hnext, htenant, hown, rfl,
      hsaved, ?_⟩
    apply gself.bind
    apply grouted.bind
    apply gconfig.bind
    rw [if_neg htransit]
    apply gallocator.bind
    simp only [recordFields_eq_nil hnew]
    apply gtip.bind
    apply gwire.bind
    apply gsave.bind
    rw [← hinfo]
    exact .pure

end Wired

end Egress
