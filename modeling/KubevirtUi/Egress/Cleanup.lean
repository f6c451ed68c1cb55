import KubevirtUi.Egress.Sweep

/-!
# When the clean-up is an undoing

The clean-up deletes by name and by label. It is the undoing of an unfinished creation only where
nothing else goes by these: no gateway of the name, no labelled Subnet, no VPC of an earlier record.
-/

namespace Egress

open Peering Interference Python.Ipaddress AList

/-- Every object is as it was, and there is no other. -/
structure Unchanged (w u : World) : Prop where
  vpcs : ∀ name, u.vpcs.lookup name = w.vpcs.lookup name
  subnets : ∀ name, u.subnets.lookup name = w.subnets.lookup name
  nads : ∀ name, u.nads.lookup name = w.nads.lookup name
  gateways : ∀ name, u.gateways.lookup name = w.gateways.lookup name
  allocators : ∀ name, u.allocators.lookup name = w.allocators.lookup name

/-- An unfinished creation: the VPC is made, and so many Subnets. -/
structure Begun (w y : World) (name : String) (made : Nat) : Prop where
  hub : w.vpcs.lookup (gatewayVpc name) = none
  vpc : ∃ item, y.vpcs.lookup (gatewayVpc name) = some item ∧ item.value.spec = {}
  others : ∀ other, other ≠ gatewayVpc name → y.vpcs.lookup other = w.vpcs.lookup other
  subnets : ∀ other, y.subnets.lookup other = w.subnets.lookup other ∨
    w.subnets.lookup other = none ∧ ∃ subnet, (other, subnet) ∈ y.labelled name
  own : 0 < made → ∃ other, w.subnets.lookup other = none ∧ y.subnets.lookup other ≠ none
  count : (y.labelled name).length = made + (w.labelled name).length
  nads : y.nads = w.nads
  gateways : y.gateways = w.gateways
  allocators : y.allocators = w.allocators

/-- What the read of an allocator comes to; a call that fails with a 404 finds no record. -/
def Recorded (fault : Fault) (data found : Data) : Prop :=
  fault = none ∧ found = data ∨ fault = some (.api 404) ∧ found = ∅

/-- From this call on the clean-up takes away what has been made, and nothing else. -/
structure CleansUp (faults : Nat → Fault) (again : Nat) (w : World) (name : String)
    (made n : Nat) : Prop where
  gateway : w.gateways.lookup name = none
  labelled : w.labelled name = []
  rest : ∃ data k, Recorded (faults (n + 1)) (w.data name) data ∧
    VpcsLeft faults w (gatewayVpc name) (attachedVpcs data) (n + 2) k ∧
    faults k = none ∧ Gone faults again (k + 1 + made)

variable {x : Except Failure (List String)}

section Cleanup

variable {faults : Nat → Fault} {w y z u : World} {name : String} {again made n m k : Nat}

theorem Unchanged.refl (w : World) : Unchanged w w :=
  ⟨fun _ => rfl, fun _ => rfl, fun _ => rfl, fun _ => rfl, fun _ => rfl⟩

theorem commit_readAllocator : commit w (.readAllocator name) =
    (((w.allocators.lookup name).map Except.ok).getD (.error (.api 404)), w) := by
  rw [commit]
  cases w.allocators.lookup name <;> rfl

theorem of_getTransitAllocator {α : Type} {f : Data × Option Nat → Call α} {x : Except Failure α}
    (h : Runs faults (getTransitAllocator name >>= f) n w x m u) :
    (∃ found, Recorded (faults n) (w.data name) found.1 ∧
      Runs faults (f found) (n + 1) w x m u) ∨
    (∀ found, ¬Recorded (faults n) (w.data name) found) ∧ u = w := by
  cases hfault : faults n with
  | none =>
    refine .inl ⟨(w.data name, w.dataVersion name), .inl ⟨rfl, rfl⟩, h.rest ?_⟩
    apply (runs_orNone commit_readAllocator hfault).bind
    rw [World.data, World.dataVersion]
    cases w.allocators.lookup (transitCmName name) <;> exact .pure
  | some e =>
    by_cases h404 : e = .api 404
    · subst h404
      refine .inl ⟨(∅, none), .inr ⟨rfl, rfl⟩, h.rest ?_⟩
      exact (runs_orNone_missing rfl hfault).bind .pure
    · have hread : Runs faults (orNone (ask (.readAllocator (transitCmName name)))) n w _ _ _ :=
        runs_orNone_error rfl h404 hfault
      refine .inr ⟨fun found hrecorded => ?_, (h.unique hread.bind_error.bind_error).2.2⟩
      obtain ⟨hnone, -⟩ | ⟨hsome, -⟩ := hrecorded
      · contradiction
      · exact h404 (Option.some.inj hsome)

theorem Recorded.unique {fault : Fault} {data found found' : Data} (h : Recorded fault data found)
    (h' : Recorded fault data found') : found = found' := by
  obtain ⟨rfl, rfl⟩ | ⟨rfl, rfl⟩ := h
  · obtain ⟨-, rfl⟩ | ⟨hsome, -⟩ := h'
    · rfl
    · contradiction
  · obtain ⟨hnone, -⟩ | ⟨-, rfl⟩ := h'
    · contradiction
    · rfl

theorem runs_sweepSubnets (z : World) (k : Nat) :
    let sweep := exceptApi (do
      let found ← ask (.listLabelledSubnets gatewayLabel name)
      deleteSubnets found) fun _ => pure ()
    faults k = none ∧ Runs faults sweep k z (.ok ()) (k + 1 + (z.labelled name).length)
      (z.withoutSubnets (z.labelled name)) ∨
    faults k ≠ none ∧ ∃ x, Runs faults sweep k z x (k + 1) z := by
  intro sweep
  obtain hnone | ⟨status, hfailure, hraised⟩ | ⟨e, hfailure, hother, hraised⟩ :=
    fault_cases (faults k)
  · have hask : Runs faults (ask (.listLabelledSubnets gatewayLabel name)) k z _ _ _ :=
      Runs.ask_none hnone
    exact .inl ⟨hnone, Runs.exceptApi_ok (hask.bind runs_deleteSubnets)⟩
  · have hask : Runs faults (ask (.listLabelledSubnets gatewayLabel name)) k z _ _ _ :=
      Runs.ask_failure hfailure rfl
    refine .inr ⟨fun hnone => ?_, _, Runs.exceptApi_api hask.bind_error .pure⟩
    rw [hnone] at hfailure
    contradiction
  · have hask : Runs faults (ask (.listLabelledSubnets gatewayLabel name)) k z _ _ _ :=
      Runs.ask_failure hfailure rfl
    refine .inr ⟨fun hnone => ?_, _, Runs.exceptApi_raised hother hask.bind_error⟩
    rw [hnone] at hfailure
    contradiction

theorem of_lastSteps
    (h : Runs faults (do
      let left ← awaitGatewayGone name again
      if left ≠ [] then return left
      else do
        cleanupGatewayVpc (gatewayVpc name)
        return []) n z x m u) : (∃ k, Runs faults (awaitGatewayGone name again) n z (.ok []) k z) ∧
      u = z.withoutVpc (gatewayVpc name) ∨
    (∀ k, ¬Runs faults (awaitGatewayGone name again) n z (.ok []) k z) ∧ u = z := by
  obtain ⟨left, l, v, hawait, hrest⟩ | ⟨e, rfl, hawait⟩ := h.of_bind
  · obtain rfl := Runs.of_reads reads_awaitGatewayGone hawait
    by_cases hleft : left = []
    · rw [if_neg (not_not.mpr hleft)] at hrest
      obtain ⟨-, -, rfl⟩ := hrest.unique (runs_cleanupGatewayVpc.bind .pure)
      exact .inl ⟨⟨l, hleft ▸ hawait⟩, rfl⟩
    · rw [if_pos hleft] at hrest
      obtain ⟨-, -, rfl⟩ := hrest.unique .pure
      exact .inr ⟨fun k hk => hleft (Except.ok.inj (hawait.unique hk).1), rfl⟩
  · obtain rfl := Runs.of_reads reads_awaitGatewayGone hawait
    exact .inr ⟨fun k hk => absurd (hawait.unique hk).1 nofun, rfl⟩

theorem of_sweep (hgateway : z.gateways.lookup name = none)
    (h : Runs faults (do
      exceptApi (do
        let found ← ask (.listLabelledSubnets gatewayLabel name)
        deleteSubnets found) fun _ => pure ()
      let left ← awaitGatewayGone name again
      if left ≠ [] then return left
      else do
        cleanupGatewayVpc (gatewayVpc name)
        return []) k z x m u) :
    (faults k = none ∧ Gone faults again (k + 1 + (z.labelled name).length)) ∧
      u = (z.withoutSubnets (z.labelled name)).withoutVpc (gatewayVpc name) ∨
    ¬(faults k = none ∧ Gone faults again (k + 1 + (z.labelled name).length)) ∧
      (u.vpcs = z.vpcs ∨ u.subnets = z.subnets ∧ u.vpcs = z.vpcs.erase (gatewayVpc name)) := by
  obtain ⟨hnone, hsweep⟩ | ⟨hsome, y, hsweep⟩ := @runs_sweepSubnets faults name z k
  · have hgone : (z.withoutSubnets (z.labelled name)).gateways.lookup name = none := by
      rw [gateways_withoutSubnets]
      exact hgateway
    have hlabelled : (z.withoutSubnets (z.labelled name)).labelled name = [] :=
      labelled_withoutSubnets rfl
    obtain ⟨⟨l, hawait⟩, rfl⟩ | ⟨hawait, rfl⟩ := of_lastSteps (h.rest hsweep)
    · exact .inl ⟨⟨hnone, (await_iff hgone hlabelled hawait).mp rfl⟩, rfl⟩
    · refine .inr ⟨fun hboth => ?_, .inl vpcs_withoutSubnets⟩
      obtain ⟨x, l, v, hend⟩ := Ends.exists_end serveSparing faults
        (awaitGatewayGone name again) (k + 1 + (z.labelled name).length)
        (z.withoutSubnets (z.labelled name))
      obtain rfl := Runs.of_reads reads_awaitGatewayGone hend
      obtain rfl := (await_iff hgone hlabelled hend).mpr hboth.2
      exact hawait l hend
  · refine .inr ⟨fun hboth => hsome hboth.1, ?_⟩
    cases y with
    | ok =>
      obtain ⟨-, rfl⟩ | ⟨-, rfl⟩ := of_lastSteps (h.rest hsweep)
      · exact .inr ⟨rfl, rfl⟩
      · exact .inl rfl
    | error e =>
      obtain ⟨-, -, rfl⟩ := h.unique hsweep.bind_error
      exact .inl rfl

theorem VpcsLeft.congr {gwVpcName : String} {items : List (String × String)}
    (hpeerings : y.peerings = w.peerings) (hroutes : y.routes = w.routes)
    (h : VpcsLeft faults w gwVpcName items n k) : VpcsLeft faults y gwVpcName items n k := by
  induction h with
  | nil => exact .nil
  | @cons item items n m k hitem hitems ih =>
    have hpeered : Peered y gwVpcName item.1 = Peered w gwVpcName item.1 := by
      rw [Peered, hpeerings, Peered]
    have hrouted : Routed y item = Routed w item := by rw [Routed, hroutes, Routed]
    refine .cons ?_ ih
    cases hitem with
    | refused hleft =>
      rw [← hpeered] at hleft
      exact .refused hleft
    | both hleft hrest =>
      rw [← hpeered] at hleft
      rw [← hrouted] at hrest
      exact .both hleft hrest

namespace Begun

section

variable (h : Begun w y name made)

include h

theorem peerings : y.peerings = w.peerings := by
  funext other
  by_cases hother : other = gatewayVpc name
  · obtain ⟨item, hitem, hspec⟩ := h.vpc
    rw [hother, peerings_of_lookup hitem, hspec, World.peerings, World.spec?, h.hub]
    rfl
  · rw [World.peerings, World.spec?, h.others other hother]
    rfl

theorem routes : y.routes = w.routes := by
  funext other
  by_cases hother : other = gatewayVpc name
  · obtain ⟨item, hitem, hspec⟩ := h.vpc
    rw [hother, routes_of_lookup hitem, hspec, World.routes, World.spec?, h.hub]
    rfl
  · rw [World.routes, World.spec?, h.others other hother]
    rfl

theorem not_unchanged (hthere : u.vpcs.lookup (gatewayVpc name) ≠ none) : ¬Unchanged w u := by
  intro hsame
  rw [hsame.vpcs, h.hub] at hthere
  exact hthere rfl

theorem vpc_ne_none : y.vpcs.lookup (gatewayVpc name) ≠ none := by
  obtain ⟨item, hitem, -⟩ := h.vpc
  rw [hitem]
  exact Option.some_ne_none _

theorem labelled_of_mem {item : String × Subnet} (hitem : item ∈ w.labelled name) :
    item ∈ y.labelled name := by
  obtain ⟨hfound, hlabel⟩ := mem_labelled.mp hitem
  obtain hsame | ⟨hnone, -⟩ := h.subnets item.1
  · exact mem_labelled.mpr ⟨hsame.trans hfound, hlabel⟩
  · rw [hfound] at hnone
    contradiction

/-- The whole sweep restores what was there, but for what went by the name before. -/
theorem swept_iff :
    Unchanged w ((((y.withoutGateway name).withoutSubnets (y.labelled name))).withoutVpc
      (gatewayVpc name)) ↔ w.gateways.lookup name = none ∧ w.labelled name = [] := by
  let z := (y.withoutGateway name).withoutSubnets (y.labelled name)
  have hgateways : z.gateways = w.gateways.erase name := by
    rw [gateways_withoutSubnets, World.withoutGateway, h.gateways]
  have hsubnets : ∀ other, z.subnets.lookup other =
      if other ∈ (y.labelled name).map Prod.fst then none else y.subnets.lookup other :=
    fun other => lookup_withoutSubnets
  constructor
  · intro hsame
    constructor
    · have hgateway := hsame.gateways name
      change z.gateways.lookup name = _ at hgateway
      rw [hgateways, lookup_erase] at hgateway
      exact hgateway.symm
    · rw [List.eq_nil_iff_forall_not_mem]
      intro item hitem
      have hsubnet := hsame.subnets item.1
      change z.subnets.lookup item.1 = _ at hsubnet
      rw [hsubnets, if_pos (List.mem_map_of_mem (h.labelled_of_mem hitem)),
        (mem_labelled.mp hitem).1] at hsubnet
      contradiction
  · rintro ⟨hgateway, hlabelled⟩
    constructor
    · intro other
      change (z.vpcs.erase (gatewayVpc name)).lookup other = _
      rw [vpcs_withoutSubnets]
      by_cases hother : other = gatewayVpc name
      · rw [hother, lookup_erase, h.hub]
      · rw [lookup_erase_ne hother]
        exact h.others other hother
    · intro other
      change z.subnets.lookup other = _
      rw [hsubnets]
      split
      · next hmem =>
        obtain ⟨item, hitem, rfl⟩ := List.mem_map.mp hmem
        obtain hsame | ⟨hnone, -⟩ := h.subnets item.1
        · obtain ⟨hfound, hlabel⟩ := mem_labelled.mp hitem
          rw [hsame] at hfound
          have hbefore : item ∈ w.labelled name := mem_labelled.mpr ⟨hfound, hlabel⟩
          rw [hlabelled] at hbefore
          contradiction
        · exact hnone.symm
      · next hmem =>
        obtain hsame | ⟨-, subnet, hsubnet⟩ := h.subnets other
        · exact hsame
        · exact absurd (List.mem_map_of_mem hsubnet) hmem
    · intro other
      change z.nads.lookup other = _
      rw [nads_withoutSubnets, World.withoutGateway, h.nads]
    · intro other
      change z.gateways.lookup other = _
      rw [hgateways]
      by_cases hother : other = name
      · rw [hother, lookup_erase, hgateway]
      · rw [lookup_erase_ne hother]
    · intro other
      change z.allocators.lookup other = _
      rw [allocators_withoutSubnets, World.withoutGateway, h.allocators]

end

end Begun

theorem Begun.not_unchanged_of_taken (h : Begun w y name made)
    (hlessPeerings : ∀ other, (z.peerings other).Sublist (y.peerings other))
    (hlessRoutes : ∀ other, (z.routes other).Sublist (y.routes other)) (htaken : Taken y z)
    (hothers : ∀ other, other ≠ gatewayVpc name → u.vpcs.lookup other = z.vpcs.lookup other) :
    ¬Unchanged w u := by
  intro hsame
  obtain ⟨other, hdiffers⟩ := htaken
  have hpeerings : y.peerings other = w.peerings other := congrFun h.peerings other
  have hroutes : y.routes other = w.routes other := congrFun h.routes other
  by_cases hother : other = gatewayVpc name
  · have hnoPeerings : w.peerings other = [] := by
      rw [hother, World.peerings, World.spec?, h.hub]
      rfl
    have hnoRoutes : w.routes other = [] := by
      rw [hother, World.routes, World.spec?, h.hub]
      rfl
    have hlessPeerings := hlessPeerings other
    have hlessRoutes := hlessRoutes other
    rw [hpeerings, hnoPeerings] at hlessPeerings
    rw [hroutes, hnoRoutes] at hlessRoutes
    obtain hdiffers | hdiffers := hdiffers
    · exact hdiffers (by rw [hpeerings, hnoPeerings, List.sublist_nil.mp hlessPeerings])
    · exact hdiffers (by rw [hroutes, hnoRoutes, List.sublist_nil.mp hlessRoutes])
  · have hlookup : z.vpcs.lookup other = w.vpcs.lookup other :=
      (hothers other hother).symm.trans (hsame.vpcs other)
    obtain hdiffers | hdiffers := hdiffers
    · exact hdiffers (by rw [hpeerings, World.peerings, World.spec?, hlookup]; rfl)
    · exact hdiffers (by rw [hroutes, World.routes, World.spec?, hlookup]; rfl)

theorem cleanup_iff (hbegun : Begun w y name made) (hmade : 0 < made)
    (h : Runs faults (cleanupGatewayResources again name) n y x m u) :
    Unchanged w u ↔ CleansUp faults again w name made n := by
  let z := y.withoutGateway name
  have hpeerings : z.peerings = w.peerings := hbegun.peerings
  have hroutes : z.routes = w.routes := hbegun.routes
  have hdata : z.data name = w.data name := by
    change y.data name = w.data name
    rw [World.data, hbegun.allocators, World.data]
  obtain ⟨⟨data, version⟩, hrecorded, hrest⟩ | ⟨hnone, rfl⟩ :=
    of_getTransitAllocator (h.rest runs_deleteGateway)
  · have hrecorded : Recorded (faults (n + 1)) (w.data name) data := hdata ▸ hrecorded
    have hruns : ∀ {data' l}, Recorded (faults (n + 1)) (w.data name) data' →
        VpcsLeft faults w (gatewayVpc name) (attachedVpcs data') (n + 2) l →
        Runs faults (unpeerAll (gatewayVpc name) (attachedVpcs data)) (n + 2) z (.ok ()) l z := by
      intro data' l hrecorded' hleft
      rw [← hrecorded'.unique hrecorded]
      exact (hleft.congr hpeerings hroutes).runs
    obtain ⟨x, l, t, hunpeer, hrest⟩ := hrest.exists_first
    obtain ⟨hless, ⟨e, rfl⟩ | ⟨rfl, hends⟩⟩ := of_unpeerAll hunpeer
    · obtain ⟨-, -, rfl⟩ := hrest
      refine iff_of_false ?_ fun hclean => ?_
      · apply hbegun.not_unchanged
        rw [Ne, hless.there]
        exact hbegun.vpc_ne_none
      · obtain ⟨data', l, hrecorded', hleft, -⟩ := hclean.rest
        cases (hunpeer.unique (hruns hrecorded' hleft)).1
    · have hgone : t.gateways.lookup name = none := by
        rw [hless.gateways]
        exact lookup_erase _ _
      have hsweep := of_sweep hgone hrest
      obtain ⟨hleft, rfl⟩ | htaken := hends
      · have hleft := hleft.congr hpeerings.symm hroutes.symm
        have hcount : (z.labelled name).length = made + (w.labelled name).length := hbegun.count
        obtain ⟨⟨hlist, hlooks⟩, rfl⟩ | ⟨hnot, hkept⟩ := hsweep
        · apply hbegun.swept_iff.trans
          constructor
          · rintro ⟨hgateway, hlabelled⟩
            rw [hcount, hlabelled, List.length_nil, Nat.add_zero] at hlooks
            exact ⟨hgateway, hlabelled, data, l, hrecorded, hleft, hlist, hlooks⟩
          · exact fun hclean => ⟨hclean.gateway, hclean.labelled⟩
        · refine iff_of_false ?_ fun hclean => ?_
          · obtain hvpcs | ⟨hsubnets, -⟩ := hkept
            · apply hbegun.not_unchanged
              rw [hvpcs]
              exact hbegun.vpc_ne_none
            · intro hsame
              obtain ⟨other, hnew, hthere⟩ := hbegun.own hmade
              have hsubnet := hsame.subnets other
              rw [hsubnets, hnew] at hsubnet
              exact hthere hsubnet
          · obtain ⟨data', l', hrecorded', hleft', hlist, hlooks⟩ := hclean.rest
            obtain ⟨-, rfl, -⟩ := hunpeer.unique (hruns hrecorded' hleft')
            rw [hcount, hclean.labelled, List.length_nil, Nat.add_zero] at hnot
            exact hnot ⟨hlist, hlooks⟩
      · refine iff_of_false ?_ fun hclean => ?_
        · apply hbegun.not_unchanged_of_taken hless.peerings hless.routes htaken
          intro other hother
          obtain ⟨-, rfl⟩ | ⟨-, hvpcs | ⟨-, hvpcs⟩⟩ := hsweep
          · rw [World.withoutVpc, vpcs_withoutSubnets, lookup_erase_ne hother]
          · rw [hvpcs]
          · rw [hvpcs, lookup_erase_ne hother]
        · obtain ⟨data', l', hrecorded', hleft, -⟩ := hclean.rest
          obtain ⟨-, -, rfl⟩ := hunpeer.unique (hruns hrecorded' hleft)
          obtain ⟨other, hdiffers⟩ := htaken
          exact hdiffers.elim (absurd rfl) (absurd rfl)
  · refine iff_of_false (hbegun.not_unchanged hbegun.vpc_ne_none) fun hclean => ?_
    obtain ⟨data', l, hrecorded, -⟩ := hclean.rest
    rw [← hdata] at hrecorded
    exact hnone data' hrecorded

end Cleanup

end Egress
