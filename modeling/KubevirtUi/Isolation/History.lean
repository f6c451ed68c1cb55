import KubevirtUi.Isolation.Settle
import KubevirtUi.Library.Machine

/-!
# Passes among creations, peerings and deletions

A VPC is created with its subnet and the rules that it needs at once, and is peered with the owners
of what it is given as shared; ends of peerings come and go, a VPC is deleted in steps, and passes
run in between. What a subnet was given as shared when it was created is remembered here, next to
the cluster, and nowhere in it.
-/

namespace Isolation

open Acl Go.Netip Machine Python.Ipaddress List

/-- The cluster, and the prefixes that each subnet was given as shared. -/
structure State where
  subnets : List Subnet
  vpcs : List Vpc
  given : String → List String

structure VpcCreateRequest where
  name : String
  subnetCIDR : String
  role : String
  isolated : Bool
  sharedCIDRs : List String

inductive Event where
  | create (data : VpcCreateRequest)
  /-- one end of a peering is written -/
  | link (vpc remote : String)
  | unlink (vpc remote : String)
  /-- the subnets of a VPC are marked for deletion -/
  | release (vpc : String)
  | subnetsGone (vpc : String)
  | vpcGone (vpc : String)
  | pass

namespace State

def empty : State := ⟨[], [], fun _ => []⟩

end State

def tenantVpcCidrs (subnets : List Subnet) (exclude : String) : List String :=
  (subnets.filter fun s => s.isTenant && s.cidrBlock ≠ "" && s.vpc ≠ exclude &&
    (vpcRole s).isNone).map (·.cidrBlock)

def VpcCreateRequest.subnetName (data : VpcCreateRequest) : String := data.name ++ "-default"

section Machine

-- the configuration: how IPv6 texts are read, the supernet and the management prefixes
variable (parse6 : String → Option (Block 128)) (supernet : String) (mgmt : List String)

namespace State

def reading (st : State) : Reading := readAll supernet mgmt st.subnets st.vpcs

def afterPass (st : State) : State :=
  { st with subnets := Isolation.afterPass parse6 (st.reading supernet mgmt) st.subnets }

end State

/-- The rules that a subnet is created with. -/
def createAcls (st : State) (data : VpcCreateRequest) : Option (List Rule) :=
  let peerCIDRs := tenantVpcCidrs st.subnets data.name
  let isolation := if data.isolated ∧ (peerCIDRs ≠ [] ∨ supernet ≠ "") then
      buildIsolationAcls data.subnetCIDR supernet data.sharedCIDRs peerCIDRs
    else some []
  isolation.map (· ++ buildMgmtDenyAcls mgmt)

/-- The subnet that a VPC is created with. -/
def defaultSubnet (data : VpcCreateRequest) (acls : List Rule) : Subnet where
  name := data.subnetName
  vpc := data.name
  vlan := ""
  cidrBlock := data.subnetCIDR
  deleting := false
  role := data.role
  egressGateway := ""
  isolation := if data.isolated then "" else isolationOptOutValue
  aclOwner := ""
  acls := acls

/-- The cluster with the new VPC and its subnet. -/
def State.add (st : State) (data : VpcCreateRequest) (acls : List Rule) : State where
  subnets := st.subnets ++ [defaultSubnet data acls]
  vpcs := st.vpcs ++ [⟨data.name, []⟩]
  given name := if name = data.subnetName then data.sharedCIDRs else st.given name

/-- The VPC of the first subnet that lies in the prefix, or has it inside. Two families cannot be
compared, and that failure is not caught. -/
def vpcOwningCidr (subnets : List Subnet) (cidr : String) : Option (Option String) :=
  match ipNetwork parse6 cidr with
  | none => some none
  | some wanted => subnets.findSomeM? fun s =>
    if s.vpc = "" ∨ s.cidrBlock = "" ∨ s.vpc = systemVPCName then some none
    else match ipNetwork parse6 s.cidrBlock with
    | none => some none
    | some other => do
      return if (← wanted.subnetOf other) || (← other.subnetOf wanted) then some s.vpc else none

def State.link (st : State) (vpc remote : String) : State :=
  { st with vpcs := st.vpcs.map fun v =>
    if v.name = vpc then { v with remotes := v.remotes.filter (· ≠ remote) ++ [remote] } else v }

/-- The new VPC is peered with the owners of what it is given as shared. A pairing that is refused
does not fail the creation; it is as one that is removed at once. -/
def State.peerSharedCidrs (st : State) (vpc : String) : List String → State
  | [] => st
  | cidr :: rest =>
    match vpcOwningCidr parse6 st.subnets cidr with
    | none => st
    | some none => st.peerSharedCidrs vpc rest
    | some (some peer) =>
      if peer = vpc ∨ ¬ st.vpcs.any (·.name = peer) then st.peerSharedCidrs vpc rest
      else ((st.link vpc peer).link peer vpc).peerSharedCidrs vpc rest

def step (st : State) : Event → Option State
  | .create data =>
    if st.vpcs.any (·.name = data.name) || st.subnets.any (·.name = data.subnetName) then none
    else (createAcls supernet mgmt st data).map fun acls =>
      (st.add data acls).peerSharedCidrs parse6 data.name data.sharedCIDRs
  | .link vpc remote => some (st.link vpc remote)
  | .unlink vpc remote => some { st with vpcs := st.vpcs.map fun v =>
    if v.name = vpc then { v with remotes := v.remotes.filter (· ≠ remote) } else v }
  | .release vpc => some { st with subnets := st.subnets.map fun s =>
    if s.vpc = vpc then { s with deleting := true } else s }
  | .subnetsGone vpc =>
    some { st with subnets := st.subnets.filter fun s => !(s.vpc = vpc && s.deleting) }
  | .vpcGone vpc =>
    -- the router has to outlive everything finalized against it
    if st.subnets.any (·.vpc = vpc) then none
    else some { st with vpcs := st.vpcs.filter (·.name ≠ vpc) }
  | .pass => some (st.afterPass parse6 supernet mgmt)

/-- A VPC is created from IPv4 prefixes, few of them, and what it is given as shared is written
down, because there is something to scope the drop to; and the exceptions that a pass writes stay
below the subnets' own band. -/
def Admissible (st : State) : Event → Prop
  | .create data => IsIPv4 data.subnetCIDR ∧ (∀ c ∈ data.sharedCIDRs, IsIPv4 c) ∧
      data.sharedCIDRs.length ≤ 100 ∧ (data.sharedCIDRs = [] ∨
        dropTargets data.subnetCIDR supernet (tenantVpcCidrs st.subnets data.name) ≠ [])
  | .pass => ∀ s ∈ st.subnets, Limited parse6 (st.reading supernet mgmt) s
  | _ => True

instance (st : State) (event : Event) : Decidable (Admissible parse6 supernet mgmt st event) :=
  match event with
  | .create _ => inferInstanceAs (Decidable (_ ∧ _ ∧ _ ∧ _))
  | .pass => inferInstanceAs (Decidable (∀ s ∈ st.subnets, _))
  | .link _ _ | .unlink _ _ | .release _ | .subnetsGone _ | .vpcGone _ =>
    inferInstanceAs (Decidable True)

structure Sound (st : State) : Prop where
  wellFormed : WellFormed supernet mgmt st.subnets st.vpcs
  owner : ∀ s ∈ st.subnets, s.aclOwner = ""
  written : ∀ s ∈ st.subnets, ∀ rule ∈ s.acls, Written mgmt rule
  given : ∀ s ∈ st.subnets, ∀ c ∈ st.given s.name, IsIPv4 c
  stands : ∀ s ∈ st.subnets, isolationOptedOut s = false → ∀ c ∈ st.given s.name,
    ¬ Inside c supernet → Stands s.acls c
  opened : ∀ s ∈ st.subnets, isolationOptedOut s = true →
    ∀ rule ∈ s.acls, rule ∈ buildMgmtDenyAcls mgmt

end Machine

section Sound

variable {parse6 : String → Option (Block 128)} {supernet : String} {mgmt : List String}
  {st st' : State} {event : Event} {data : VpcCreateRequest} {acls : List Rule}

theorem sound_empty (hsupernet : supernet = "" ∨ IsIPv4 supernet) (hmgmt : ∀ c ∈ mgmt, IsIPv4 c) :
    Sound supernet mgmt .empty where
  wellFormed := ⟨nodup_nil, nodup_nil, hsupernet, hmgmt, by simp [State.empty]⟩
  owner := by simp [State.empty]
  written := by simp [State.empty]
  given := by simp [State.empty]
  stands := by simp [State.empty]
  opened := by simp [State.empty]

namespace Sound

section

variable (h : Sound supernet mgmt st)

include h

theorem of_vpcs {vpcs : List Vpc} (hnames : (vpcs.map (·.name)).Nodup) :
    Sound supernet mgmt { st with vpcs := vpcs } :=
  ⟨{ h.wellFormed with vpcNames := hnames }, h.owner, h.written, h.given, h.stands, h.opened⟩

theorem of_subnets {subnets : List Subnet} (hnames : (subnets.map (·.name)).Nodup)
    (hfrom : ∀ t ∈ subnets, ∃ s ∈ st.subnets, ∃ deleting, t = { s with deleting := deleting } ∧
      (t.isTenant = true → s.isTenant = true)) :
    Sound supernet mgmt { st with subnets := subnets } where
  wellFormed := { h.wellFormed with
    names := hnames
    tenants := by
      intro t ht htenant
      obtain ⟨s, hs, deleting, rfl, himp⟩ := hfrom t ht
      exact h.wellFormed.tenants s hs (himp htenant) }
  owner t ht := by
    obtain ⟨s, hs, deleting, rfl, -⟩ := hfrom t ht
    exact h.owner s hs
  written t ht := by
    obtain ⟨s, hs, deleting, rfl, -⟩ := hfrom t ht
    exact h.written s hs
  given t ht := by
    obtain ⟨s, hs, deleting, rfl, -⟩ := hfrom t ht
    exact h.given s hs
  stands t ht := by
    obtain ⟨s, hs, deleting, rfl, -⟩ := hfrom t ht
    exact h.stands s hs
  opened t ht := by
    obtain ⟨s, hs, deleting, rfl, -⟩ := hfrom t ht
    exact h.opened s hs

theorem release (vpc : String) : Sound supernet mgmt { st with subnets := st.subnets.map fun s =>
      if s.vpc = vpc then { s with deleting := true } else s } := by
  refine h.of_subnets ?_ fun t ht => ?_
  · have hname : (fun s : Subnet => s.name) ∘ (fun s =>
        if s.vpc = vpc then { s with deleting := true } else s) = fun s => s.name := by
      funext s
      rw [Function.comp_apply]
      split <;> rfl
    rw [map_map, hname]
    exact h.wellFormed.names
  · obtain ⟨s, hs, rfl⟩ := mem_map.mp ht
    refine ⟨s, hs, ?_⟩
    split
    · exact ⟨true, rfl, by simp [Subnet.isTenant]⟩
    · exact ⟨s.deleting, rfl, id⟩

theorem subnetsGone (p : Subnet → Bool) :
    Sound supernet mgmt { st with subnets := st.subnets.filter p } :=
  h.of_subnets (h.wellFormed.names.sublist (filter_sublist.map _)) fun t ht =>
    ⟨t, mem_of_mem_filter ht, t.deleting, rfl, id⟩

theorem remotes (vpc : String) (f : List String → List String) :
    Sound supernet mgmt { st with vpcs := st.vpcs.map fun v =>
      if v.name = vpc then { v with remotes := f v.remotes } else v } := by
  have hname : (fun v : Vpc => v.name) ∘ (fun v =>
      if v.name = vpc then { v with remotes := f v.remotes } else v) = fun v => v.name := by
    funext v
    rw [Function.comp_apply]
    split <;> rfl
  refine h.of_vpcs ?_
  rw [map_map, hname]
  exact h.wellFormed.vpcNames

theorem link (vpc remote : String) : Sound supernet mgmt (st.link vpc remote) :=
  h.remotes vpc fun remotes => remotes.filter (· ≠ remote) ++ [remote]

omit h in
theorem peerSharedCidrs (h : Sound supernet mgmt st) (vpc : String) (cidrs : List String) :
    Sound supernet mgmt (st.peerSharedCidrs parse6 vpc cidrs) := by
  induction cidrs generalizing st with
  | nil => exact h
  | cons cidr rest ih =>
    rw [State.peerSharedCidrs]
    split
    · exact h
    · exact ih h
    · split
      · exact ih h
      · exact ih ((h.link _ _).link _ _)

theorem afterPass (hlimit : ∀ s ∈ st.subnets, Limited parse6 (st.reading supernet mgmt) s) :
    (st.afterPass parse6 supernet mgmt).subnets =
        st.subnets.map (settle parse6 (st.reading supernet mgmt)) ∧
      Sound supernet mgmt (st.afterPass parse6 supernet mgmt) := by
  have hmap : (st.afterPass parse6 supernet mgmt).subnets =
      st.subnets.map (settle parse6 (st.reading supernet mgmt)) :=
    afterPass_eq_map fun s hs htenant =>
      h.wellFormed.rewrite_ne_raised (h.written s hs) htenant (hlimit s hs)
  -- a subnet after the pass is one from before, with other rules
  have hfrom : ∀ t ∈ (st.afterPass parse6 supernet mgmt).subnets, ∃ s ∈ st.subnets, ∃ acls,
      t = { s with acls := acls } ∧ t = settle parse6 (st.reading supernet mgmt) s := by
    intro t ht
    rw [hmap] at ht
    obtain ⟨s, hs, rfl⟩ := mem_map.mp ht
    obtain ⟨acls, hacls⟩ := exists_settle parse6 (st.reading supernet mgmt) s
    exact ⟨s, hs, acls, hacls, rfl⟩
  have hnames : (st.afterPass parse6 supernet mgmt).subnets.map (·.name) =
      st.subnets.map (·.name) := by
    rw [hmap, map_map]
    refine map_congr_left fun s _ => ?_
    obtain ⟨acls, hacls⟩ := exists_settle parse6 (st.reading supernet mgmt) s
    rw [Function.comp_apply, hacls]
  refine ⟨hmap, { h.wellFormed with names := hnames ▸ h.wellFormed.names, tenants := ?_ },
    ?_, ?_, ?_, ?_, ?_⟩
  · intro t ht
    obtain ⟨s, hs, acls, rfl, -⟩ := hfrom t ht
    exact h.wellFormed.tenants s hs
  · intro t ht
    obtain ⟨s, hs, acls, rfl, -⟩ := hfrom t ht
    exact h.owner s hs
  · intro t ht rule hrule
    obtain ⟨s, hs, -, -, rfl⟩ := hfrom t ht
    exact h.wellFormed.written_settle hs (h.written s hs) (hlimit s hs) hrule
  · intro t ht
    obtain ⟨s, hs, acls, rfl, -⟩ := hfrom t ht
    exact h.given s hs
  · intro t ht hclosed c hc hout
    obtain ⟨s, hs, acls, heq, rfl⟩ := hfrom t ht
    rw [heq] at hclosed hc
    exact h.wellFormed.stands_settle hs (h.written s hs) (hlimit s hs) (h.given s hs c hc) hout
      (h.stands s hs hclosed c hc hout)
  · intro t ht hopted rule hrule
    obtain ⟨s, hs, acls, heq, rfl⟩ := hfrom t ht
    have hopted : isolationOptedOut s = true := by
      rw [heq] at hopted
      exact hopted
    exact h.opened s hs hopted rule (mem_of_mem_settle_of_optedOut hopted hrule)

end

/-- A new subnet has rules of its own if it is isolated and there is something to scope the drop
to, and else the management deny only. -/
theorem of_createAcls (hown : data.subnetCIDR ≠ "")
    (hacls : createAcls supernet mgmt st data = some acls) : (data.isolated = true →
        dropTargets data.subnetCIDR supernet (tenantVpcCidrs st.subnets data.name) = []) ∧
      acls = buildMgmtDenyAcls mgmt ∨ data.isolated = true ∧
      acls = rulePair "allow-related" data.subnetCIDR isolationPriorityOwn ++
        sharedAcls data.sharedCIDRs ++ dropAcls (dropTargets data.subnetCIDR supernet
          (tenantVpcCidrs st.subnets data.name)) ++ buildMgmtDenyAcls mgmt := by
  obtain ⟨isolation, hisolation, rfl⟩ := Option.map_eq_some_iff.mp hacls
  split at hisolation
  · next hisolated =>
    obtain ⟨hnone, rfl⟩ | rfl := of_buildIsolationAcls hisolation
    · exact .inl ⟨fun _ => hnone.resolve_left hown, rfl⟩
    · exact .inr ⟨hisolated.1, rfl⟩
  · next hopen =>
    obtain rfl := Option.some.inj hisolation
    refine .inl ⟨fun hisolated => ?_, rfl⟩
    obtain ⟨hpeers, hsupernet⟩ := not_or.mp fun hscope => hopen ⟨hisolated, hscope⟩
    rw [not_not] at hpeers hsupernet
    simp [dropTargets, hpeers, hsupernet]

theorem add (h : Sound supernet mgmt st) (hadm : Admissible parse6 supernet mgmt st (.create data))
    (hvpc : ∀ v ∈ st.vpcs, v.name ≠ data.name) (hname : ∀ s ∈ st.subnets, s.name ≠ data.subnetName)
    (hacls : createAcls supernet mgmt st data = some acls) :
    Sound supernet mgmt (st.add data acls) := by
  obtain ⟨hown, hshared, hlength, hscoped⟩ := hadm
  have htargets : ∀ c ∈ dropTargets data.subnetCIDR supernet
      (tenantVpcCidrs st.subnets data.name), IsIPv4 c := by
    intro c hc
    obtain hpeer | ⟨rfl, hne⟩ := of_mem_dropTargets hc
    · obtain ⟨t, ht, rfl⟩ := mem_map.mp hpeer
      obtain ⟨ht, htenant⟩ := mem_filter.mp ht
      simp only [Bool.and_eq_true] at htenant
      exact h.wellFormed.tenants t ht htenant.1.1.1
    · exact h.wellFormed.supernet.resolve_left hne
  have hgiven : ∀ s ∈ st.subnets, (st.add data acls).given s.name = st.given s.name :=
    fun s hs => if_neg (hname s hs)
  have hnew : (st.add data acls).given (defaultSubnet data acls).name = data.sharedCIDRs :=
    if_pos rfl
  -- what holds of the old subnets and of the new one holds of all
  have hall {P : Subnet → Prop} (hold : ∀ s ∈ st.subnets, P s)
      (hlast : P (defaultSubnet data acls)) : ∀ s ∈ (st.add data acls).subnets, P s := by
    intro s hs
    obtain hs | hs := mem_append.mp hs
    · exact hold s hs
    · exact mem_singleton.mp hs ▸ hlast
  have hcases := of_createAcls hown.trimmed.2 hacls
  refine ⟨⟨?_, ?_, h.wellFormed.supernet, h.wellFormed.mgmt, ?_⟩, ?_, ?_, ?_, ?_, ?_⟩
  · rw [State.add, map_append, map_singleton, ← concat_eq_append,
      nodup_concat]
    refine ⟨fun hmem => ?_, h.wellFormed.names⟩
    obtain ⟨s, hs, heq⟩ := mem_map.mp hmem
    exact hname s hs heq
  · rw [State.add, map_append, map_singleton, ← concat_eq_append,
      nodup_concat]
    refine ⟨fun hmem => ?_, h.wellFormed.vpcNames⟩
    obtain ⟨v, hv, heq⟩ := mem_map.mp hmem
    exact hvpc v hv heq
  · exact hall h.wellFormed.tenants fun _ => hown
  · exact hall h.owner rfl
  · refine hall h.written fun rule hrule => ?_
    obtain ⟨-, rfl⟩ | ⟨-, rfl⟩ := hcases
    · obtain ⟨c, hc, -, rfl⟩ := mem_buildMgmtDenyAcls.mp hrule
      exact ⟨⟨c, h.wellFormed.mgmt c hc, .inl rfl⟩, .inr (.inr hrule)⟩
    · exact written_of_mem hown hshared htargets h.wellFormed.mgmt hrule
  · refine hall (fun s hs => ?_) ?_
    · rw [hgiven s hs]
      exact h.given s hs
    · rw [hnew]
      exact hshared
  · refine hall (fun s hs => ?_) fun hclosed c hc _ => ?_
    · rw [hgiven s hs]
      exact h.stands s hs
    · rw [hnew] at hc
      obtain ⟨hnone, -⟩ | ⟨-, rfl⟩ := hcases
      · -- nothing was given as shared, or the subnet is open
        have hisolated : data.isolated = true := by
          by_contra hopen
          simp [isolationOptedOut, defaultSubnet, hopen] at hclosed
        rw [hscoped.resolve_right fun hsome => hsome (hnone hisolated)] at hc
        exact absurd hc not_mem_nil
      · exact (stands_of_mem hlength hshared hc).mono fun rule hrule _ _ => by
          simp [defaultSubnet, hrule]
  · refine hall h.opened fun hopted rule hrule => ?_
    obtain ⟨-, rfl⟩ | ⟨hisolated, -⟩ := hcases
    · exact hrule
    · simp [isolationOptedOut, defaultSubnet, hisolated, isolationOptOutValue] at hopted

theorem step (h : Sound supernet mgmt st) (hadm : Admissible parse6 supernet mgmt st event)
    (hstep : Isolation.step parse6 supernet mgmt st event = some st') :
    Sound supernet mgmt st' := by
  cases event with
  | create data =>
    simp only [Isolation.step] at hstep
    split at hstep
    · cases hstep
    · next hfresh =>
      obtain ⟨acls, hacls, rfl⟩ := Option.map_eq_some_iff.mp hstep
      simp only [Bool.or_eq_true, any_eq_true, decide_eq_true_eq, not_or, not_exists,
        not_and] at hfresh
      exact (h.add hadm hfresh.1 hfresh.2 hacls).peerSharedCidrs _ _
  | link vpc remote =>
    obtain rfl := Option.some.inj hstep
    exact h.link vpc remote
  | unlink vpc remote =>
    obtain rfl := Option.some.inj hstep
    exact h.remotes vpc fun remotes => remotes.filter (· ≠ remote)
  | release vpc =>
    obtain rfl := Option.some.inj hstep
    exact h.release vpc
  | subnetsGone vpc =>
    obtain rfl := Option.some.inj hstep
    exact h.subnetsGone _
  | vpcGone vpc =>
    simp only [Isolation.step] at hstep
    split at hstep
    · cases hstep
    · obtain rfl := Option.some.inj hstep
      exact h.of_vpcs (h.wellFormed.vpcNames.sublist (filter_sublist.map _))
  | pass =>
    obtain rfl := Option.some.inj hstep
    exact (h.afterPass hadm).2

end Sound

end Sound

end Isolation
