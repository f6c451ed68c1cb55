import KubevirtUi.Egress.Cleanup

/-!
# What a failed creation costs

A creation that fails costs nothing where the step that fails is refused by the API and the clean-up
that follows is an undoing. Any other exception is met by no clean-up, and an attachment that has
been made stays in any case.
-/

namespace Egress

open Peering Interference Python.Ipaddress AList

/-- A range is empty, or it is one of IPv4. -/
def Legible (cidr : String) : Prop := cidr = "" ∨ (ipv4Network cidr.toList).isSome

instance (cidr : String) : Decidable (Legible cidr) := inferInstanceAs (Decidable (_ ∨ _))

def World.rangeOf (w : World) (subnetName : String) : String :=
  ((w.subnets.lookup subnetName).map Subnet.cidrBlock).getD ""

/-- No exception of another kind comes up while addresses are sought. -/
structure AddressesFound (faults : Nat → Fault) (internal external : String) (k : Nat) : Prop where
  pinned : ¬Raised (faults k)
  internalRead : ¬Raised (faults (k + 1))
  internalRange : faults (k + 1) = none → Legible internal
  externalRead : ¬Raised (faults (k + 2))
  externalRange : faults (k + 2) = none → Legible external

variable {cidr subnetName internal external name gwVpcCIDR transitCIDR : String}
  {count replicas : Nat} {taken : List String} {r : Request} {x : Except Failure (List String)}
  {fault : Fault} {there : Prop} {e : Failure} {subnet : Subnet} {rest : Call GatewayResponse}

variable {faults : Nat → Fault} {u : World} {n m : Nat} {α : Type} {plan : Plan}

section Addresses

variable {w : World}

theorem reads_transitNetwork : Reads (transitNetwork cidr) := by
  rw [transitNetwork]
  split
  · exact .pure _
  · exact .throw _

theorem reads_addressesPinnedElsewhere : Reads addressesPinnedElsewhere := by
  apply reads_exceptApi
  · exact (reads_ask rfl).bind fun _ => .pure _
  · exact fun _ => .pure _

theorem reads_freeAddresses : Reads (freeAddresses subnetName count taken) := by
  apply Every.bind
  · apply reads_exceptApi
    · exact (reads_ask rfl).bind fun _ => .pure _
    · exact fun _ => .pure _
  · intro found
    cases found with
    | none => exact .pure _
    | some subnet =>
      dsimp only
      split
      · exact .pure _
      · exact reads_transitNetwork.bind fun _ => .pure _

theorem reads_allocateGatewayIps : Reads (allocateGatewayIps internal external replicas) :=
  reads_addressesPinnedElsewhere.bind fun _ => reads_freeAddresses.bind fun _ =>
    reads_freeAddresses.bind fun _ => .pure _

/-- A read with a handler that gives up: it raises only where the call does. -/
theorem of_readOr {f : r.Result → α} {b : α} {x : Except Failure α} {found : Option r.Result}
    (hdeletes : r.deletes = false)
    (hcommit : commit w r = ((found.map Except.ok).getD (.error (.api 404)), w))
    (h : Runs faults (exceptApi (do return f (← ask r)) fun _ => pure b) n w x m u) :
    (∃ a, x = .ok a ∧ (faults n = none → a = (found.map f).getD b) ∧ (faults n ≠ none → a = b)) ∧
      m = n + 1 ∧ ¬Raised (faults n) ∨ (∃ e, x = .error e) ∧ Raised (faults n) := by
  obtain hnone | ⟨status, hfailure, hraised⟩ | ⟨e, hfailure, hother, hraised⟩ :=
    fault_cases (faults n)
  · have hask : Runs faults (ask r) n w _ _ _ := Runs.ask_none hnone
    rw [hcommit] at hask
    cases found with
    | none =>
      obtain ⟨rfl, rfl, -⟩ := h.unique (Runs.exceptApi_api hask.bind_error .pure)
      refine .inl ⟨⟨b, rfl, fun _ => rfl, fun _ => rfl⟩, rfl, ?_⟩
      exact hnone ▸ not_raised_none
    | some a =>
      obtain ⟨rfl, rfl, -⟩ := h.unique (Runs.exceptApi_ok (hask.bind .pure))
      refine .inl ⟨⟨f a, rfl, fun _ => rfl, absurd hnone⟩, rfl, ?_⟩
      exact hnone ▸ not_raised_none
  · have hask : Runs faults (ask r) n w _ _ _ := Runs.ask_failure hfailure hdeletes
    obtain ⟨rfl, rfl, -⟩ := h.unique (Runs.exceptApi_api hask.bind_error .pure)
    refine .inl ⟨⟨b, rfl, fun hnone => ?_, fun _ => rfl⟩, rfl, hraised⟩
    rw [hnone] at hfailure
    contradiction
  · have hask : Runs faults (ask r) n w _ _ _ := Runs.ask_failure hfailure hdeletes
    obtain ⟨rfl, -⟩ := h.unique (Runs.exceptApi_raised hother hask.bind_error)
    exact .inr ⟨⟨e, rfl⟩, hraised⟩

theorem of_addressesPinnedElsewhere (h : Runs faults addressesPinnedElsewhere n w x m u) :
    (∃ taken, x = .ok taken) ∧ m = n + 1 ∧ ¬Raised (faults n) ∨
      (∃ e, x = .error e) ∧ Raised (faults n) := by
  have hcommit : commit w .listGateways =
      ((Option.map Except.ok (some (w.gateways.entries.map fun e => (e.1, e.2)))).getD
        (.error (.api 404)), w) := rfl
  obtain ⟨⟨taken, rfl, -⟩, hrest⟩ | hraised := of_readOr rfl hcommit h
  · exact .inl ⟨⟨taken, rfl⟩, hrest⟩
  · exact .inr hraised

theorem of_freeAddresses (h : Runs faults (freeAddresses subnetName count taken) n w x m u) :
    (∃ free, x = .ok free) ∧ m = n + 1 ∧ ¬Raised (faults n) ∧
      (faults n = none → Legible (w.rangeOf subnetName)) ∨ (∃ e, x = .error e) ∧
      (Raised (faults n) ∨ faults n = none ∧ ¬Legible (w.rangeOf subnetName)) := by
  have hcommit : commit w (.getSubnet subnetName) =
      (((w.subnets.lookup subnetName).map Except.ok).getD (.error (.api 404)), w) := by
    rw [commit]
    cases w.subnets.lookup subnetName <;> rfl
  obtain ⟨y, k, v, hread, hrest⟩ := h.exists_first
  obtain ⟨⟨found, rfl, hnone, hsome⟩, rfl, hraised⟩ | ⟨⟨e, rfl⟩, hraised⟩ :=
    of_readOr rfl hcommit hread
  · have hrest : Runs faults _ _ _ _ _ _ := hrest
    by_cases hfault : faults n = none
    · have hfound := hnone hfault
      cases hlookup : w.subnets.lookup subnetName with
      | none =>
        rw [hlookup] at hfound
        obtain rfl := hfound
        obtain ⟨rfl, rfl, -⟩ := hrest.unique .pure
        refine .inl ⟨⟨[], rfl⟩, rfl, hraised, fun _ => .inl ?_⟩
        rw [World.rangeOf, hlookup]
        rfl
      | some subnet =>
        rw [hlookup] at hfound
        obtain rfl := hfound
        have hrange : w.rangeOf subnetName = subnet.cidrBlock := by
          rw [World.rangeOf, hlookup]
          rfl
        rw [hrange]
        simp only [Option.map_some, Option.getD_some] at hrest
        split at hrest
        · next hempty =>
          obtain ⟨rfl, rfl, -⟩ := hrest.unique .pure
          exact .inl ⟨⟨[], rfl⟩, rfl, hraised, fun _ => .inl hempty⟩
        · next hgiven =>
          rw [transitNetwork] at hrest
          cases hnetwork : ipv4Network subnet.cidrBlock.toList with
          | none =>
            rw [hnetwork] at hrest
            obtain ⟨rfl, -⟩ := hrest.unique (Ends.bind_error .throw)
            refine .inr ⟨⟨_, rfl⟩, .inr ⟨hfault, ?_⟩⟩
            rintro (hempty | hsome)
            · exact hgiven hempty
            · rw [hnetwork] at hsome
              contradiction
          | some p =>
            rw [hnetwork] at hrest
            obtain ⟨rfl, rfl, -⟩ := hrest.unique (Ends.bind .pure .pure)
            refine .inl ⟨⟨_, rfl⟩, rfl, hraised, fun _ => .inr ?_⟩
            rw [hnetwork]
            rfl
    · obtain rfl := hsome hfault
      obtain ⟨rfl, rfl, -⟩ := hrest.unique .pure
      exact .inl ⟨⟨[], rfl⟩, rfl, hraised, fun hnone => absurd hnone hfault⟩
  · obtain ⟨rfl, -⟩ := hrest
    exact .inr ⟨⟨e, rfl⟩, .inl hraised⟩

theorem of_allocateGatewayIps {x : Except Failure (List String × List String)}
    (h : Runs faults (allocateGatewayIps internal external replicas) n w x m u) :
    (∃ ips, x = .ok ips) ∧ m = n + 3 ∧
      AddressesFound faults (w.rangeOf internal) (w.rangeOf external) n ∨ (∃ e, x = .error e) ∧
      ¬AddressesFound faults (w.rangeOf internal) (w.rangeOf external) n := by
  obtain ⟨taken, k, v, hpinned, hrest⟩ := h.exists_first
  obtain rfl := Runs.of_reads reads_addressesPinnedElsewhere hpinned
  obtain ⟨⟨taken, rfl⟩, rfl, hpinnedRaised⟩ | ⟨⟨e, rfl⟩, hraised⟩ :=
    of_addressesPinnedElsewhere hpinned
  · obtain ⟨free, k, v, hinternal, hrest⟩ := Ends.exists_first hrest
    obtain rfl := Runs.of_reads reads_freeAddresses hinternal
    obtain ⟨⟨free, rfl⟩, rfl, hinternalRead, hinternalRange⟩ | ⟨⟨e, rfl⟩, hraised⟩ :=
      of_freeAddresses hinternal
    · obtain ⟨free', k, v, hexternal, hrest⟩ := Ends.exists_first hrest
      obtain rfl := Runs.of_reads reads_freeAddresses hexternal
      obtain ⟨⟨free', rfl⟩, rfl, hexternalRead, hexternalRange⟩ | ⟨⟨e, rfl⟩, hraised⟩ :=
        of_freeAddresses hexternal
      · obtain ⟨rfl, rfl, -⟩ := Ends.unique hrest .pure
        exact .inl ⟨⟨_, rfl⟩, rfl, hpinnedRaised, hinternalRead, hinternalRange,
          hexternalRead, hexternalRange⟩
      · refine .inr ⟨⟨e, hrest.1⟩, fun hfound => ?_⟩
        obtain hraised | ⟨hnone, hillegible⟩ := hraised
        · exact hfound.externalRead hraised
        · exact hillegible (hfound.externalRange hnone)
    · refine .inr ⟨⟨e, hrest.1⟩, fun hfound => ?_⟩
      obtain hraised | ⟨hnone, hillegible⟩ := hraised
      · exact hfound.internalRead hraised
      · exact hillegible (hfound.internalRange hnone)
  · exact .inr ⟨⟨e, hrest.1⟩, fun hfound => hfound.pinned hraised⟩

end Addresses

/-- The range of the external network. -/
def externalRange (w : World) (data : CreateRequest) : String :=
  if data.createExternal then data.externalCIDR.getD "" else w.rangeOf data.externalSubnet

section Harmless

variable (faults : Nat → Fault) (again : Nat) (w : World) (data : CreateRequest)

/-- Addresses are found, and the gateway is refused. -/
def GatewayHarmless (made k : Nat) : Prop :=
  AddressesFound faults data.gwVpcCIDR (externalRange w data) k ∧ Declined (faults (k + 3)) ∧
    CleansUp faults again w data.name made (k + 4)

/-- The attachment is refused, or it is there and then the Subnet is refused, or the gateway is. -/
def ExternalHarmless (n : Nat) : Prop :=
  (∃ status, status ≠ 409 ∧ RefusedWith (faults n) (w.nads.lookup data.nadName ≠ none) status) ∧
    CleansUp faults again w data.name 1 (n + 1) ∨
  RefusedWith (faults n) (w.nads.lookup data.nadName ≠ none) 409 ∧
    (Refused (faults (n + 1)) (w.subnets.lookup data.externalSubnet ≠ none) ∧
      CleansUp faults again w data.name 1 (n + 2) ∨
    (faults (n + 1) = none ∧ w.subnets.lookup data.externalSubnet = none) ∧
      GatewayHarmless faults again w data 2 (n + 2))

/-- The step that fails costs nothing. -/
def BuildHarmless (n : Nat) : Prop :=
  (faults n ≠ none ∨ w.vpcs.lookup (gatewayVpc data.name) ≠ none) ∨
  Refused (faults (n + 1)) (w.subnets.lookup data.gwSubnet ≠ none) ∨
  (faults (n + 1) = none ∧ w.subnets.lookup data.gwSubnet = none) ∧
    if data.createExternal then ExternalHarmless faults again w data (n + 2)
    else GatewayHarmless faults again w data 1 (n + 2)

end Harmless

def createMain : CreateRequest where
  name := "main"
  gwVpcCIDR := "10.199.0.0/29"
  transitCIDR := "10.255.0.0/29"
  macvlanSubnet := some "alv111"

/-- The networks that the request needs, and these gateways. -/
def underlay (gateways : AList fun _ : String => VpcEgressGateway) : World where
  clock := 0
  vpcs := ∅
  subnets := (AList.singleton "external" { cidrBlock := "192.168.110.0/29" }).insert
    "alv111" { cidrBlock := "192.168.111.0/29", gateway := "192.168.111.1" }
  nads := ∅
  gateways := gateways
  allocators := ∅

def unnamed : World := underlay ∅

/-- Only the gateway is refused, as by a webhook. -/
def refusedGateway (n : Nat) : Fault := if n = 8 then some (.api 500) else none

theorem harmless_refusedGateway : BuildHarmless refusedGateway 0 unnamed createMain 3 := by
  have hnone : ∀ n, n ≠ 8 → refusedGateway n = none := fun n hn => if_neg hn
  have hcalm : ∀ n, n ≠ 8 → ¬Raised (refusedGateway n) := fun n hn =>
    hnone n hn ▸ not_raised_none
  refine .inr (.inr ⟨⟨rfl, by decide +kernel⟩, ?_⟩)
  rw [if_neg (by decide)]
  refine ⟨⟨hcalm 5 (by decide), hcalm 6 (by decide), ?_, hcalm 7 (by decide), ?_⟩, ⟨500, rfl⟩, ?_⟩
  · exact fun _ => by decide +kernel
  · exact fun _ => by decide +kernel
  · refine ⟨by decide +kernel, by decide +kernel, unnamed.data "main", 11, .inl ⟨rfl, rfl⟩, ?_, rfl,
      .inl rfl, hcalm 14 (by decide)⟩
    have hattached : attachedVpcs (unnamed.data "main") = [] := by decide +kernel
    rw [show createMain.name = "main" from rfl, hattached]
    exact .nil

section Stages

variable {again made k : Nat} {w y v : World} {data : CreateRequest}

theorem Refused.not_raised (h : Refused fault there) : ¬Raised fault := by
  obtain ⟨status, hdeclined | ⟨rfl, -⟩⟩ := h
  · exact Declined.not_raised ⟨status, hdeclined⟩
  · exact not_raised_none

theorem Refused.not_made (h : Refused fault there) : ¬(fault = none ∧ ¬there) := by
  rintro ⟨rfl, hnot⟩
  obtain ⟨status, hdeclined | ⟨-, hthere, -⟩⟩ := h
  · contradiction
  · exact hnot hthere

theorem RefusedWith.unique {status other : Nat} (h : RefusedWith fault there status)
    (h' : RefusedWith fault there other) : status = other := by
  obtain hdeclined | ⟨rfl, -, rfl⟩ := h
  · obtain hother | ⟨rfl, -⟩ := h'
    · simpa using hdeclined.symm.trans hother
    · contradiction
  · obtain hother | ⟨-, -, rfl⟩ := h'
    · contradiction
    · rfl

variable {x : Except Failure α} {p : Call α}

theorem of_cleanupAll
    (h : Runs faults (do
      cleanupAll again data
      throw e) n y x m u) : (∃ e, x = .error e) ∧
      ∃ z k, Runs faults (cleanupGatewayResources again data.name) n y z k u := by
  obtain ⟨y, k, t, hcleanup, hrest⟩ := h.exists_first
  obtain ⟨z, k', t', hall, hpure⟩ := hcleanup.exists_first
  cases z with
  | ok left =>
    obtain ⟨rfl, rfl, rfl⟩ := Ends.unique hpure .pure
    obtain ⟨rfl, rfl, rfl⟩ := Ends.unique hrest .throw
    exact ⟨⟨_, rfl⟩, _, _, hall⟩
  | error e =>
    obtain ⟨rfl, rfl, rfl⟩ := hpure
    obtain ⟨rfl, rfl, rfl⟩ := hrest
    exact ⟨⟨_, rfl⟩, _, _, hall⟩

/-- The object is made, or the clean-up follows a refusal, or nothing follows an exception. -/
theorem of_orElseCleanup {a : r.Result} {action : String} {x : r.Response}
    (hdeletes : r.deletes = false) (hthere : there → commit y r = (.error (.api 409), y))
    (hnew : ¬there → commit y r = (.ok a, v))
    (h : Runs faults (orElseCleanup (ask r) action (cleanupAll again data)) n y x m u) :
    (faults n = none ∧ ¬there) ∧ x = .ok a ∧ m = n + 1 ∧ u = v ∨
    Refused (faults n) there ∧ (∃ e, x = .error e) ∧
      (∃ z k, Runs faults (cleanupGatewayResources again data.name) (n + 1) y z k u) ∨
    Raised (faults n) ∧ (∃ e, x = .error e) ∧ u = y := by
  obtain ⟨hnone, hnot, hmade⟩ | ⟨status, hrefused, hhandler⟩ | ⟨hraised, hsame, herror⟩ :=
    Runs.of_creates hdeletes hthere hnew h
  · exact .inl ⟨⟨hnone, hnot⟩, hmade⟩
  · exact .inr (.inl ⟨⟨status, hrefused⟩, of_cleanupAll hhandler⟩)
  · exact .inr (.inr ⟨hraised, herror, hsame⟩)

theorem vpcs_kept (hp : Every (fun r => ∀ w, (commit w r).2.vpcs = w.vpcs) p.run)
    (h : Runs faults p n w x m u) : u.vpcs = w.vpcs := by
  have hstep : ∀ (f : Fault) (w : World) (r : Request), (∀ w, (commit w r).2.vpcs = w.vpcs) →
      (serveSparing f w r).2.vpcs = w.vpcs := by
    intro f w r hr
    rw [serveSparing]
    split
    · exact hr w
    · cases f with
      | none => exact hr w
      | some e => rfl
  exact h.of_every (R := fun w v : World => v.vpcs = w.vpcs) hp (fun _ => rfl)
    (fun _ _ _ hv hu => hu.trans hv) hstep

theorem nad_kept (h : Runs faults p n w x m u) (hthere : w.nads.lookup name ≠ none) :
    u.nads.lookup name ≠ none := by
  have hcommit : ∀ (w : World) (r : Request), w.nads.lookup name ≠ none →
      (commit w r).2.nads.lookup name ≠ none := by
    intro w r hthere
    cases r <;> simp only [commit, World.patchVpc] <;> (repeat' split) <;> try exact hthere
    next hnew =>
      rw [Ne, lookup_eq_none, mem_insert]
      exact fun hnot => hnot (.inr (lookup_isSome.mp (Option.isSome_iff_ne_none.mpr hthere)))
  have hstep : ∀ (f : Fault) (w : World) (r : Request), True → w.nads.lookup name ≠ none →
      (serveSparing f w r).2.nads.lookup name ≠ none := by
    intro f w r _ hthere
    rw [serveSparing]
    split
    · exact hcommit w r hthere
    · cases f with
      | none => exact hcommit w r hthere
      | some e => exact hthere
  exact h.of_every
    (R := fun w v : World => w.nads.lookup name ≠ none → v.nads.lookup name ≠ none)
    (Every.always p.run) (fun _ h => h) (fun _ _ _ hv hu h => hu (hv h)) hstep hthere

theorem commit_createGateway {gateway : VpcEgressGateway} : (y.gateways.lookup name ≠ none →
      commit y (.createGateway name gateway) = (.error (.api 409), y)) ∧
    (¬y.gateways.lookup name ≠ none → commit y (.createGateway name gateway) =
      (.ok (), { y with gateways := y.gateways.insert name gateway })) := by
  cases hgateway : y.gateways.lookup name with
  | none => simp [commit, hgateway]
  | some found => simp [commit, hgateway]

theorem commit_createSubnet : (y.subnets.lookup name ≠ none →
      commit y (.createSubnet name subnet) = (.error (.api 409), y)) ∧
    (¬y.subnets.lookup name ≠ none → commit y (.createSubnet name subnet) =
      (.ok (), { y with subnets := y.subnets.insert name subnet })) := by
  cases hsubnet : y.subnets.lookup name with
  | none => simp [commit, hsubnet]
  | some found => simp [commit, hsubnet]

theorem commit_createNad {nad : NetworkAttachmentDefinition} :
    (y.nads.lookup name ≠ none → commit y (.createNad name nad) = (.error (.api 409), y)) ∧
    (¬y.nads.lookup name ≠ none → commit y (.createNad name nad) =
      (.ok (), { y with nads := y.nads.insert name nad })) := by
  cases hnad : y.nads.lookup name with
  | none => simp [commit, hnad]
  | some found => simp [commit, hnad]

theorem commit_createVpc {vpc : Vpc} :
    (y.vpcs.lookup name ≠ none → commit y (.createVpc name vpc) = (.error (.api 409), y)) ∧
    (¬y.vpcs.lookup name ≠ none → commit y (.createVpc name vpc) = (.ok (), { y with
      clock := y.clock + 1, vpcs := y.vpcs.insert name ⟨y.clock + 1, vpc⟩ })) := by
  cases hvpc : y.vpcs.lookup name with
  | none => simp [commit, hvpc]
  | some found => simp [commit, hvpc]

theorem labelled_insert (hnew : y.subnets.lookup subnetName = none)
    (hlabel : subnet.labels.lookup gatewayLabel = some name) :
    World.labelled { y with subnets := y.subnets.insert subnetName subnet } name =
      (subnetName, subnet) :: y.labelled name := by
  have hentries : (y.subnets.insert subnetName subnet).entries =
      ⟨subnetName, subnet⟩ :: y.subnets.entries := by
    rw [insert_of_notMem (lookup_eq_none.mp hnew)]
  rw [World.labelled]
  dsimp only
  rw [hentries, List.map_cons, List.filter_cons_of_pos (by simpa using hlabel)]
  rfl

theorem Begun.addSubnet {name subnetName : String} {subnet : Subnet} (h : Begun w y name made)
    (hbefore : w.subnets.lookup subnetName = none) (hnew : y.subnets.lookup subnetName = none)
    (hlabel : subnet.labels.lookup gatewayLabel = some name) :
    Begun w { y with subnets := y.subnets.insert subnetName subnet } name (made + 1) where
  hub := h.hub
  vpc := h.vpc
  others := h.others
  subnets other := by
    by_cases hother : other = subnetName
    · refine .inr ⟨hother ▸ hbefore, subnet, ?_⟩
      rw [labelled_insert hnew hlabel, hother]
      exact List.mem_cons_self
    · rw [lookup_insert_ne hother]
      obtain hsame | ⟨hnone, found, hfound⟩ := h.subnets other
      · exact .inl hsame
      · refine .inr ⟨hnone, found, ?_⟩
        rw [labelled_insert hnew hlabel]
        exact List.mem_cons_of_mem _ hfound
  own _ := by
    refine ⟨subnetName, hbefore, ?_⟩
    rw [lookup_insert]
    exact Option.some_ne_none _
  count := by
    rw [labelled_insert hnew hlabel, List.length_cons, h.count]
    omega
  nads := h.nads
  gateways := h.gateways
  allocators := h.allocators

theorem gateway_iff (hbegun : Begun w y data.name made) (hmade : 0 < made)
    (hinternal : y.rangeOf data.gwSubnet = data.gwVpcCIDR)
    (hexternal : y.rangeOf data.externalSubnet = externalRange w data)
    (hrest : Every (fun r => ∀ w, (commit w r).2.vpcs = w.vpcs) rest.run)
    (h : Runs faults (do
      let (internalIPs, externalIPs) ←
        allocateGatewayIps data.gwSubnet data.externalSubnet data.replicas
      createVeg again data internalIPs externalIPs
      rest) k y (.error e) m u) : Unchanged w u ↔ GatewayHarmless faults again w data made k := by
  have hfound : AddressesFound faults (y.rangeOf data.gwSubnet) (y.rangeOf data.externalSubnet) k ↔
      AddressesFound faults data.gwVpcCIDR (externalRange w data) k := by
    rw [hinternal, hexternal]
  have hthere : ¬Unchanged w y := hbegun.not_unchanged hbegun.vpc_ne_none
  obtain ⟨ips, k', v, hips, hnext⟩ := h.exists_first
  obtain rfl := Runs.of_reads reads_allocateGatewayIps hips
  obtain ⟨⟨ips, rfl⟩, rfl, haddresses⟩ | ⟨⟨e', rfl⟩, haddresses⟩ := of_allocateGatewayIps hips
  · obtain ⟨z, k', t, hveg, hlast⟩ := Ends.exists_first hnext
    obtain ⟨⟨hnone, -⟩, rfl, -, rfl⟩ | ⟨hrefused, ⟨e', rfl⟩, z, l, hcleanup⟩ |
      ⟨hraised, ⟨e', rfl⟩, rfl⟩ :=
        of_orElseCleanup rfl commit_createGateway.1 commit_createGateway.2 hveg
    · refine iff_of_false ?_ fun hharmless => ?_
      · apply hbegun.not_unchanged
        rw [vpcs_kept hrest hlast]
        exact hbegun.vpc_ne_none
      · obtain ⟨status, hdeclined⟩ := hharmless.2.1
        rw [hnone] at hdeclined
        contradiction
    · obtain ⟨-, -, rfl⟩ := hlast
      rw [cleanup_iff hbegun hmade hcleanup]
      refine ⟨fun hclean => ⟨hfound.mp haddresses, ?_, hclean⟩, fun hharmless => hharmless.2.2⟩
      obtain ⟨status, hdeclined | ⟨-, hthere, -⟩⟩ := hrefused
      · exact ⟨status, hdeclined⟩
      · rw [hbegun.gateways] at hthere
        exact absurd hclean.gateway hthere
    · obtain ⟨-, -, rfl⟩ := hlast
      exact iff_of_false hthere fun hharmless => hharmless.2.1.not_raised hraised
  · obtain ⟨-, -, rfl⟩ := hnext
    exact iff_of_false hthere fun hharmless => haddresses (hfound.mpr hharmless.1)

theorem of_createNad {x : Except Failure Unit} (h : Runs faults (createNad again data) n y x m u) :
    (faults n = none ∧ ¬y.nads.lookup data.nadName ≠ none) ∧
      u.nads.lookup data.nadName ≠ none ∨
    RefusedWith (faults n) (y.nads.lookup data.nadName ≠ none) 409 ∧ x = .ok () ∧ m = n + 1 ∧
      u = y ∨ (∃ status, status ≠ 409 ∧
      RefusedWith (faults n) (y.nads.lookup data.nadName ≠ none) status) ∧ (∃ e, x = .error e) ∧
      (∃ z k, Runs faults (cleanupGatewayResources again data.name) (n + 1) y z k u) ∨
    Raised (faults n) ∧ (∃ e, x = .error e) ∧ u = y := by
  obtain ⟨hnone, hnot, -, -, rfl⟩ | ⟨status, hrefused, hhandler⟩ | ⟨hraised, hsame, herror⟩ :=
    Runs.of_creates rfl commit_createNad.1 commit_createNad.2 h
  · refine .inl ⟨⟨hnone, hnot⟩, ?_⟩
    rw [lookup_insert]
    exact Option.some_ne_none _
  · by_cases hconflict : status = 409
    · rw [if_pos hconflict] at hhandler
      obtain ⟨rfl, rfl, rfl⟩ := hhandler.unique .pure
      exact .inr (.inl ⟨hconflict ▸ hrefused, rfl, rfl, rfl⟩)
    · rw [if_neg hconflict] at hhandler
      exact .inr (.inr (.inl ⟨⟨status, hconflict, hrefused⟩, of_cleanupAll hhandler⟩))
  · exact .inr (.inr (.inr ⟨hraised, herror, hsame⟩))

section

variable (hcreate : data.createExternal) (hbegun : Begun w y data.name 1)
  (hinternal : y.rangeOf data.gwSubnet = data.gwVpcCIDR)

include hcreate hbegun hinternal

theorem externalSubnet_iff (hne : data.externalSubnet ≠ data.gwSubnet)
    (hlookup : y.subnets.lookup data.externalSubnet = w.subnets.lookup data.externalSubnet)
    (hrest : Every (fun r => ∀ w, (commit w r).2.vpcs = w.vpcs) rest.run)
    (h : Runs faults (do
      createExternalSubnet again data
      let (internalIPs, externalIPs) ←
        allocateGatewayIps data.gwSubnet data.externalSubnet data.replicas
      createVeg again data internalIPs externalIPs
      rest) n y (.error e) m u) : Unchanged w u ↔
      Refused (faults n) (y.subnets.lookup data.externalSubnet ≠ none) ∧
        CleansUp faults again w data.name 1 (n + 1) ∨
      (faults n = none ∧ y.subnets.lookup data.externalSubnet = none) ∧
        GatewayHarmless faults again w data 2 (n + 1) := by
  obtain ⟨x, k, v, hsubnet, hgateway⟩ := h.exists_first
  obtain ⟨hnew, rfl, rfl, rfl⟩ | ⟨hrefused, ⟨e', rfl⟩, z, k, hcleanup⟩ |
    ⟨hraised, ⟨e', rfl⟩, rfl⟩ :=
      of_orElseCleanup rfl commit_createSubnet.1 commit_createSubnet.2 hsubnet
  · have hnone : y.subnets.lookup data.externalSubnet = none := not_not.mp hnew.2
    have hnext : Begun w { y with
        subnets := y.subnets.insert data.externalSubnet data.extSubnetManifest } data.name 2 :=
      hbegun.addSubnet (hlookup.symm.trans hnone) hnone rfl
    rw [or_iff_right fun hother => hother.1.not_made hnew, and_iff_right ⟨hnew.1, hnone⟩]
    refine gateway_iff hnext Nat.two_pos ?_ ?_ hrest hgateway
    · rw [World.rangeOf, lookup_insert_ne hne.symm]
      exact hinternal
    · rw [World.rangeOf, lookup_insert, externalRange, if_pos hcreate]
      rfl
  · obtain ⟨-, -, rfl⟩ := hgateway
    rw [cleanup_iff hbegun Nat.one_pos hcleanup, or_iff_left, and_iff_right hrefused]
    rintro ⟨⟨hnone, hnew⟩, -⟩
    exact hrefused.not_made ⟨hnone, not_not.mpr hnew⟩
  · obtain ⟨-, -, rfl⟩ := hgateway
    refine iff_of_false (hbegun.not_unchanged hbegun.vpc_ne_none) ?_
    rintro (⟨hrefused, -⟩ | ⟨⟨hnone, -⟩, -⟩)
    · exact hrefused.not_raised hraised
    · rw [hnone] at hraised
      exact not_raised_none hraised

theorem external_iff
    (hlookup : y.subnets.lookup data.externalSubnet = w.subnets.lookup data.externalSubnet)
    (hne : data.externalSubnet ≠ data.gwSubnet)
    (hrest : Every (fun r => ∀ w, (commit w r).2.vpcs = w.vpcs) rest.run)
    (h : Runs faults (do
      createNad again data
      createExternalSubnet again data
      let (internalIPs, externalIPs) ←
        allocateGatewayIps data.gwSubnet data.externalSubnet data.replicas
      createVeg again data internalIPs externalIPs
      rest) n y (.error e) m u) : Unchanged w u ↔ ExternalHarmless faults again w data n := by
  rw [ExternalHarmless, ← hbegun.nads, ← hlookup]
  have hthere : ¬Unchanged w y := hbegun.not_unchanged hbegun.vpc_ne_none
  obtain ⟨x, k, v, hnad, hnext⟩ := h.exists_first
  obtain ⟨hnew, hkept⟩ | ⟨hconflict, rfl, rfl, rfl⟩ |
    ⟨⟨status, hne409, hrefused⟩, ⟨e', rfl⟩, z, k, hcleanup⟩ | ⟨hraised, ⟨e', rfl⟩, rfl⟩ :=
      of_createNad hnad
  · have hleft : u.nads.lookup data.nadName ≠ none := by
      cases x with
      | ok => exact nad_kept hnext hkept
      | error => exact hnext.2.2 ▸ hkept
    refine iff_of_false (fun hsame => ?_) ?_
    · rw [hsame.nads, ← hbegun.nads] at hleft
      exact hnew.2 hleft
    · rintro (⟨⟨status, -, hrefused⟩, -⟩ | ⟨hrefused, -⟩)
      · exact Refused.not_made ⟨status, hrefused⟩ hnew
      · exact Refused.not_made ⟨409, hrefused⟩ hnew
  · rw [or_iff_right fun hother => ?_, and_iff_right hconflict]
    · exact externalSubnet_iff hcreate hbegun hinternal hne hlookup hrest hnext
    · obtain ⟨⟨status, hne409, hrefused⟩, -⟩ := hother
      exact hne409 (hrefused.unique hconflict)
  · obtain ⟨-, -, rfl⟩ := hnext
    rw [cleanup_iff hbegun Nat.one_pos hcleanup, or_iff_left]
    · exact (and_iff_right ⟨status, hne409, hrefused⟩).symm
    · exact fun hother => hne409 (hrefused.unique hother.1)
  · obtain ⟨-, -, rfl⟩ := hnext
    refine iff_of_false hthere ?_
    rintro (⟨⟨status, -, hrefused⟩, -⟩ | ⟨hrefused, -⟩)
    · exact Refused.not_raised ⟨status, hrefused⟩ hraised
    · exact Refused.not_raised ⟨409, hrefused⟩ hraised

end

theorem every_lastSteps {response : GatewayResponse} {allocator : Data} :
    Every (fun r => ∀ w, (commit w r).2.vpcs = w.vpcs) (do
      if data.excludeIps ≠ [] ∧ ¬data.createExternal then
        exceptApi (ask (.patchExcludeIps data.externalSubnet data.excludeIps)) fun _ => pure ()
      else pure ()
      saveTransitAllocator data.name allocator none
      return response : Call GatewayResponse).run := by
  have hsave : Every (fun r => ∀ w, (commit w r).2.vpcs = w.vpcs)
      (do saveTransitAllocator data.name allocator none; return response : Call _).run := by
    refine .bind (Every.ask fun w => ?_) fun _ => .pure _
    rw [commit]
    split <;> rfl
  split
  · refine .bind (Every.tryCatch (Every.ask fun w => ?_) fun e => ?_) fun _ => hsave
    · rw [commit]
      split <;> rfl
    · cases e with
      | api status => exact .pure _
      | http status detail => exact .throw _
      | other text => exact .throw _
  · exact hsave

theorem begun_gwVpc {vpc : Vpc} (hnew : w.vpcs.lookup (gatewayVpc data.name) = none)
    (hspec : vpc.spec = {}) : Begun w { w with
      clock := w.clock + 1
      vpcs := w.vpcs.insert (gatewayVpc data.name) ⟨w.clock + 1, vpc⟩ } data.name 0 where
  hub := hnew
  vpc := ⟨_, lookup_insert _, hspec⟩
  others _ hother := lookup_insert_ne hother
  subnets _ := .inl rfl
  own hmade := absurd hmade (Nat.lt_irrefl 0)
  count := (Nat.zero_add _).symm
  nads := rfl
  gateways := rfl
  allocators := rfl

theorem Begun.withoutVpc (h : Begun w y name 0) (hsubnets : y.subnets = w.subnets) :
    Unchanged w (y.withoutVpc (gatewayVpc name)) where
  vpcs other := by
    by_cases hother : other = gatewayVpc name
    · rw [hother, h.hub]
      exact lookup_erase _ _
    · rw [World.withoutVpc, lookup_erase_ne hother]
      exact h.others other hother
  subnets _ := by rw [World.withoutVpc, hsubnets]
  nads _ := by rw [World.withoutVpc, h.nads]
  gateways _ := by rw [World.withoutVpc, h.gateways]
  allocators _ := by rw [World.withoutVpc, h.allocators]

/-- The first Subnet is made, or the VPC is deleted again, or it stays. -/
theorem of_createGwSubnet {x : Except Failure Unit}
    (h : Runs faults (createGwSubnet data plan) n y x m u) :
    (faults n = none ∧ ¬y.subnets.lookup data.gwSubnet ≠ none) ∧ x = .ok () ∧ m = n + 1 ∧
      u = { y with subnets := y.subnets.insert data.gwSubnet (data.gwSubnetManifest plan) } ∨
    Refused (faults n) (y.subnets.lookup data.gwSubnet ≠ none) ∧ (∃ e, x = .error e) ∧
      u = y.withoutVpc (gatewayVpc data.name) ∨
    Raised (faults n) ∧ (∃ e, x = .error e) ∧ u = y := by
  obtain ⟨hnone, hnot, hmade⟩ | ⟨status, hrefused, hhandler⟩ | ⟨hraised, hsame, herror⟩ :=
    Runs.of_creates rfl commit_createSubnet.1 commit_createSubnet.2 h
  · exact .inl ⟨⟨hnone, hnot⟩, hmade⟩
  · obtain ⟨rfl, -, rfl⟩ := hhandler.unique (runs_cleanupGatewayVpc.bind .throw)
    exact .inr (.inl ⟨⟨status, hrefused⟩, ⟨_, rfl⟩, rfl⟩)
  · exact .inr (.inr ⟨hraised, herror, hsame⟩)

theorem build_iff (hmacvlan : ¬data.createExternal → w.subnets.lookup data.externalSubnet ≠ none)
    (hne : data.createExternal → data.externalSubnet ≠ data.gwSubnet)
    (h : Runs faults (build again data plan) n w (.error e) m u) :
    Unchanged w u ↔ BuildHarmless faults again w data n := by
  obtain ⟨x, k, y, hvpc, hnext⟩ := h.exists_first
  obtain ⟨hnone, hnot, rfl, rfl, rfl⟩ | ⟨status, hrefused, hhandler⟩ |
    ⟨⟨e', hraised, -⟩, rfl, e'', rfl⟩ :=
      Runs.of_creates rfl commit_createVpc.1 commit_createVpc.2 hvpc
  · have hbegun := @begun_gwVpc w data (data.vpcManifest plan) (not_not.mp hnot) rfl
    rw [BuildHarmless, or_iff_right fun hother => hother.elim (absurd hnone) hnot]
    obtain ⟨x, k, z, hsubnet, hrest⟩ := Ends.exists_first hnext
    obtain ⟨hnew, rfl, rfl, rfl⟩ | ⟨hrefused, ⟨e', rfl⟩, rfl⟩ | ⟨hraised, ⟨e', rfl⟩, rfl⟩ :=
      of_createGwSubnet hsubnet
    · have hbefore : w.subnets.lookup data.gwSubnet = none := not_not.mp hnew.2
      have hbegun := @Begun.addSubnet 0 w _ data.name data.gwSubnet (data.gwSubnetManifest plan)
        hbegun hbefore hbefore rfl
      rw [or_iff_right fun hother => hother.not_made hnew, and_iff_right ⟨hnew.1, hbefore⟩]
      have hrest : Runs faults _ _ _ _ _ _ := hrest
      split
      · next hcreate =>
        rw [if_pos hcreate] at hrest
        refine external_iff hcreate hbegun ?_ ?_ (hne hcreate) every_lastSteps hrest
        · rw [World.rangeOf, lookup_insert]
          rfl
        · exact lookup_insert_ne (hne hcreate)
      · next hexisting =>
        rw [if_neg hexisting] at hrest
        refine gateway_iff hbegun Nat.one_pos ?_ ?_ every_lastSteps hrest
        · rw [World.rangeOf, lookup_insert]
          rfl
        · have hother : data.externalSubnet ≠ data.gwSubnet := by
            intro hsame
            rw [← hsame] at hbefore
            exact hmacvlan hexisting hbefore
          rw [externalRange, if_neg hexisting, World.rangeOf, lookup_insert_ne hother]
          rfl
    · obtain ⟨-, -, rfl⟩ := hrest
      exact iff_of_true (hbegun.withoutVpc rfl) (.inl hrefused)
    · obtain ⟨-, -, rfl⟩ := hrest
      refine iff_of_false (hbegun.not_unchanged hbegun.vpc_ne_none) ?_
      rintro (hrefused | ⟨⟨hnone, -⟩, -⟩)
      · exact hrefused.not_raised hraised
      · rw [hnone] at hraised
        exact not_raised_none hraised
  · have hthrown : (∃ e, x = .error e) ∧ y = w := by
      split at hhandler <;> exact ⟨⟨_, (hhandler.unique .throw).1⟩, (hhandler.unique .throw).2.2⟩
    obtain ⟨⟨e', rfl⟩, rfl⟩ := hthrown
    obtain ⟨-, -, rfl⟩ := hnext
    refine iff_of_true (.refl _) (.inl ?_)
    obtain hdeclined | ⟨-, hthere, -⟩ := hrefused
    · refine .inl fun hnone => ?_
      rw [hnone] at hdeclined
      contradiction
    · exact .inr hthere
  · obtain ⟨-, -, rfl⟩ := hnext
    refine iff_of_true (.refl _) (.inl (.inl fun hnone => ?_))
    rw [hnone] at hraised
    contradiction

end Stages

section Checks

variable {w : World} {data : CreateRequest} {parse6 : String → Option (Block 128)}

theorem reads_cidrsOverlap {cidr1 cidr2 : String} : Reads (cidrsOverlap parse6 cidr1 cidr2) := by
  have hread : ∀ cidr, Reads (readNetwork parse6 cidr) := by
    intro cidr
    rw [readNetwork]
    split
    · exact .pure _
    · exact .throw _
  exact (hread _).bind fun _ => (hread _).bind fun _ => .pure _

theorem reads_checkSubnets {subnets : List (String × Subnet)} :
    Reads (checkSubnets parse6 gwVpcCIDR transitCIDR subnets) := by
  induction subnets with
  | nil => exact .pure _
  | cons item rest ih =>
    rw [checkSubnets]
    split
    · exact ih
    · refine reads_cidrsOverlap.bind fun overlap => ?_
      split
      · exact .throw _
      · refine reads_cidrsOverlap.bind fun overlap => ?_
        split
        · exact .throw _
        · exact ih

theorem reads_validateCidrNoOverlap :
    Reads (validateCidrNoOverlap parse6 gwVpcCIDR transitCIDR) := by
  refine reads_cidrsOverlap.bind fun overlap => ?_
  split
  · exact .throw _
  · apply Every.bind
    · exact reads_exceptApi ((reads_ask rfl).bind fun _ => .pure _) fun _ => .pure _
    · intro found
      cases found with
      | none => exact .pure _
      | some subnets => exact reads_checkSubnets

theorem reads_addressIn {number : Nat} : Reads (addressIn cidr number) := by
  refine reads_transitNetwork.bind fun p => ?_
  split
  · exact .throw _
  · exact .pure _

theorem reads_checkMacvlan {subnet : String} : Reads (checkMacvlan subnet) := by
  rw [checkMacvlan]
  split
  · exact .throw _
  · apply reads_exceptApi
    · exact (reads_ask rfl).bind fun _ => .pure _
    · intro status
      split
      · exact .throw _
      · exact .throw _

theorem reads_requireExternalSubnet : Reads requireExternalSubnet := by
  apply reads_exceptApi
  · exact (reads_ask rfl).bind fun _ => .pure _
  · intro status
    split
    · exact .pure _
    · exact .throw _

theorem reads_checks : Reads (checks parse6 data) := by
  have hplan : ∀ gateway : String, Reads (do
      let transitGateway ← addressIn data.transitCIDR 1
      return (⟨gateway, transitGateway, ← bfdPort data⟩ : Plan)) := by
    intro gateway
    refine reads_addressIn.bind fun transit => .bind ?_ fun _ => .pure _
    rw [bfdPort]
    split
    · exact reads_addressIn.bind fun _ => .pure _
    · exact .pure _
  have hrest : Reads (do
      requireExternalSubnet
      validateCidrNoOverlap parse6 data.gwVpcCIDR data.transitCIDR
      let gateway ← addressIn data.gwVpcCIDR 1
      let transitGateway ← addressIn data.transitCIDR 1
      return (⟨gateway, transitGateway, ← bfdPort data⟩ : Plan)) :=
    reads_requireExternalSubnet.bind fun _ => reads_validateCidrNoOverlap.bind fun _ =>
      reads_addressIn.bind hplan
  rw [checks]
  split
  · exact .throw _
  · split
    · exact .throw _
    · split
      · exact reads_checkMacvlan.bind fun _ => hrest
      · exact hrest

theorem of_checkMacvlan {subnet : String}
    (h : Runs faults (checkMacvlan subnet) n w (.ok ()) m u) : w.subnets.lookup subnet ≠ none := by
  rw [checkMacvlan] at h
  split at h
  · cases (h.unique .throw).1
  · obtain ⟨a, -, hbody⟩ | ⟨status, k, v, -, hhandler⟩ | ⟨e, hx, -⟩ := h.of_exceptApi
    · obtain ⟨found, k, v, hask, -⟩ := hbody.of_bind_ok
      intro hnone
      cases hfault : faults n with
      | none =>
        have hget : Runs faults (ask (.getSubnet subnet)) n w _ _ _ := Runs.ask_none hfault
        have hanswer := (hask.unique hget).1
        simp [commit, hnone] at hanswer
      | some e =>
        have hget : Runs faults (ask (.getSubnet subnet)) n w (.error e) _ _ :=
          Runs.ask_failure hfault rfl
        cases (hask.unique hget).1
    · split at hhandler
      · cases (hhandler.unique .throw).1
      · cases (hhandler.unique .throw).1
    · cases hx

theorem external_ne_gwSubnet (name : String) :
    "egw-" ++ name ++ "-external" ≠ "egw-" ++ name ++ "-subnet" := by
  intro h
  have hlists := congrArg String.toList h
  simp only [String.toList_append, List.append_assoc, List.append_cancel_left_eq] at hlists
  revert hlists
  decide

theorem of_checks (h : Runs faults (checks parse6 data) n w (.ok plan) m u) :
    (¬data.createExternal → w.subnets.lookup data.externalSubnet ≠ none) ∧
      (data.createExternal → data.externalSubnet ≠ data.gwSubnet) := by
  rw [checks] at h
  split at h
  · exact nomatch (h.unique .throw).1
  · next hsome =>
    split at h
    · exact nomatch (h.unique .throw).1
    · next hone =>
      split at h
      · next hmacvlan =>
        obtain ⟨⟨⟩, k, v, hcheck, -⟩ := h.of_bind_ok
        refine ⟨fun _ => ?_, fun hcreate => absurd ⟨hmacvlan, hcreate⟩ hone⟩
        rw [CreateRequest.externalSubnet, if_pos hmacvlan]
        exact of_checkMacvlan hcheck
      · next hmacvlan =>
        refine ⟨fun hexisting => absurd ⟨hmacvlan, hexisting⟩ hsome, fun _ => ?_⟩
        rw [CreateRequest.externalSubnet, if_neg hmacvlan]
        exact external_ne_gwSubnet data.name

/-- A creation that fails costs nothing where the checks refuse it, or the step that fails is
harmless; and only there. -/
theorem costsNothing_iff {again : Nat} {e : Failure}
    (h : Runs faults (createEgressGateway again data parse6) n w (.error e) m u) :
    Unchanged w u ↔ ∀ plan k v, Runs faults (checks parse6 data) n w (.ok plan) k v →
      BuildHarmless faults again w data k := by
  obtain ⟨plan, k, v, hchecks, hbuild⟩ | ⟨e', -, hchecks⟩ := h.of_bind
  · obtain rfl := Runs.of_reads reads_checks hchecks
    obtain ⟨hmacvlan, hne⟩ := of_checks hchecks
    rw [build_iff hmacvlan hne hbuild]
    constructor
    · intro hharmless plan' k' v' hchecks'
      obtain ⟨-, rfl, -⟩ := hchecks'.unique hchecks
      exact hharmless
    · exact fun hall => hall plan k v hchecks
  · obtain rfl := Runs.of_reads reads_checks hchecks
    exact iff_of_true (.refl u) fun plan k v hpass => nomatch (hpass.unique hchecks).1

end Checks

/-- A gateway of that name runs in another VPC. -/
def takenName : World := underlay (AList.singleton "main" { vpc := "blue", policies := [] })

/-- What is left of a request. -/
def afterCreate (faults : Nat → Fault) (w : World) : World :=
  ((createEgressGateway 0 createMain fun _ => none).run.perform serveSparing faults 0 w).2.2

theorem runs_create {faults : Nat → Fault} {w : World} {x : Except Failure GatewayResponse}
    (h : ((createEgressGateway 0 createMain fun _ => none).run.perform serveSparing faults 0 w).1 =
      x) : ∃ m, Runs faults (createEgressGateway 0 createMain fun _ => none) 0 w x m
        (afterCreate faults w) :=
  ⟨_, Prod.ext h (Prod.ext rfl rfl)⟩

theorem not_costsNothing : ¬∀ (parse6 : String → Option (Block 128)) (faults : Nat → Fault)
    (again : Nat) (data : CreateRequest) (w u : World) (e : Failure) (m : Nat),
      Runs faults (createEgressGateway again data parse6) 0 w (.error e) m u → Unchanged w u := by
  intro h
  obtain ⟨m, hruns⟩ := @runs_create (fun _ => none) takenName
    (.error (k8sErrorToHttp 409 "creating VpcEgressGateway")) (by decide +kernel)
  have hsame := h (fun _ => none) (fun _ => none) 0 createMain takenName _ _ m hruns
  have hgone : (afterCreate (fun _ => none) takenName).gateways.lookup "main" = none := by
    decide +kernel
  have hthere : takenName.gateways.lookup "main" ≠ none := by decide +kernel
  rw [← hsame.gateways, hgone] at hthere
  exact hthere rfl

theorem costsNothing_refused : Unchanged unnamed (afterCreate refusedGateway unnamed) := by
  obtain ⟨m, hruns⟩ := @runs_create refusedGateway unnamed
    (.error (k8sErrorToHttp 500 "creating VpcEgressGateway")) (by decide +kernel)
  apply (costsNothing_iff hruns).mpr
  intro plan k v hchecks
  have hcount : ((checks (fun _ => none) createMain).run.perform serveSparing refusedGateway 0
      unnamed).2.1 = 3 := by decide +kernel
  have hend : (checks (fun _ => none) createMain).run.perform serveSparing refusedGateway 0
      unnamed = (.ok plan, k, v) := hchecks
  rw [hend] at hcount
  rw [show k = 3 from hcount]
  exact harmless_refusedGateway

end Egress
