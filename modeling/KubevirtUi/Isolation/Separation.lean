import KubevirtUi.Isolation.Traffic

/-!
# Tenants are kept apart

What a pass leaves on the subnets that it rewrites, told by where an address is and not by how the
list is made. A subnet with a role serves the others and is not kept apart from them, and a subnet
that is being deleted does not count any more.
-/

namespace Isolation

open Acl Go.Netip List

/-- Some rule that counts allows a prefix that holds the address and is not inside the supernet. -/
def AllowedBefore (counts : Rule → Prop) (supernet : String) (existing : List Rule)
    (x : BitVec 32) : Prop :=
  ∃ rule ∈ existing, counts rule ∧
    ∃ cidr, Compares rule cidr ∧ inCIDR (.v4 x) cidr = true ∧ ¬ Inside cidr supernet

/-- A subnet that counts holds the address and belongs to a VPC that this one's is peered with. -/
def InPeer (counts : Subnet → Prop) (subnets : List Subnet) (vpcs : List Vpc) (s : Subnet)
    (x : BitVec 32) : Prop :=
  ∃ v ∈ vpcs, v.name = s.vpc ∧
    ∃ t ∈ subnets, counts t ∧ t.vpc ∈ v.remotes ∧ inCIDR (.v4 x) t.cidrBlock = true

/-- A subnet that counts holds the address; it has no role and belongs to another VPC. -/
def InOtherTenant (counts : Subnet → Prop) (subnets : List Subnet) (s : Subnet) (x : BitVec 32) :
    Prop :=
  ∃ t ∈ subnets, counts t ∧ vpcRole t = none ∧ t.vpc ≠ s.vpc ∧
    inCIDR (.v4 x) t.cidrBlock = true

/-- The list has plain rules, but for those that stay, and tells the addresses apart: management
may not come in, what the subnet may reach passes, and other tenants do not. -/
structure Separates (acls : List Rule) (stays : Rule → Prop) (mgmt reach other : BitVec 32 → Prop) :
    Prop where
  plain : ∀ rule ∈ acls, Plain rule ∨ stays rule
  mgmt_dropped : ∀ x, mgmt x → evaluate acls (.v4 x) "to-lport" = .dropped
  reach_allowed : ∀ x d, d = "from-lport" ∨ d = "to-lport" → ¬ (d = "to-lport" ∧ mgmt x) →
    reach x → evaluate acls (.v4 x) d = .allowed
  other_dropped : ∀ x d, d = "from-lport" ∨ d = "to-lport" → ¬ (d = "to-lport" ∧ mgmt x) →
    ¬ reach x → other x → evaluate acls (.v4 x) d = .dropped

/-- A cluster whose names are unique and whose prefixes are IPv4 prefixes. -/
structure WellFormed (supernet : String) (mgmt : List String) (subnets : List Subnet)
    (vpcs : List Vpc) : Prop where
  names : (subnets.map (·.name)).Nodup
  vpcNames : (vpcs.map (·.name)).Nodup
  supernet : supernet = "" ∨ IsIPv4 supernet
  mgmt : ∀ c ∈ mgmt, IsIPv4 c
  tenants : ∀ s ∈ subnets, s.isTenant = true → IsIPv4 s.cidrBlock

variable {tenants : List Subnet} {vpc : String} {x : BitVec 32}

section Cluster

variable {parse6 : String → Option (Block 128)} {supernet : String} {mgmt : List String}
  {subnets : List Subnet} {vpcs : List Vpc} {s t : Subnet} {shared : List String} {c : String}

theorem mem_cidrsOf : c ∈ cidrsOf tenants vpc ↔
    ∃ t ∈ tenants, t.vpc = vpc ∧ t.cidrBlock ≠ "" ∧ t.cidrBlock = c := by
  simp only [cidrsOf, mem_map, mem_filter, Bool.and_eq_true, decide_eq_true_eq, and_assoc]

theorem mem_peered (hnames : (vpcs.map (·.name)).Nodup) : c ∈ peered vpcs tenants vpc ↔
      ∃ v ∈ vpcs, v.name = vpc ∧ ∃ remote ∈ v.remotes, c ∈ cidrsOf tenants remote := by
  rw [peered]
  cases hfind : vpcs.reverse.find? (·.name = vpc) with
  | none =>
    simp only [not_mem_nil, false_iff]
    rintro ⟨v, hv, hname, -⟩
    have hnone := List.find?_eq_none.mp hfind v (mem_reverse.mpr hv)
    exact hnone (decide_eq_true hname)
  | some v =>
    have hv : v ∈ vpcs := mem_reverse.mp (mem_of_find?_eq_some hfind)
    have hname : v.name = vpc := by simpa using List.find?_some hfind
    simp only [mem_flatMap]
    constructor
    · exact fun h => ⟨v, hv, hname, h⟩
    · rintro ⟨w, hw, hname', h⟩
      have hsame := inj_on_of_nodup_map hnames hw hv (hname'.trans hname.symm)
      exact hsame ▸ h

namespace WellFormed

section

variable (h : WellFormed supernet mgmt subnets vpcs)

include h

theorem exists_peered_iff :
    (∃ c ∈ (readAll supernet mgmt subnets vpcs).peered s.vpc, inCIDR (.v4 x) c = true) ↔
      InPeer (·.isTenant = true) subnets vpcs s x := by
  simp only [readAll, mem_peered h.vpcNames, mem_cidrsOf, mem_filter]
  constructor
  · rintro ⟨c, ⟨v, hv, hname, remote, hremote, t, ⟨ht, htenant⟩, rfl, -, rfl⟩, hx⟩
    exact ⟨v, hv, hname, t, ht, htenant, hremote, hx⟩
  · rintro ⟨v, hv, hname, t, ht, htenant, hremote, hx⟩
    exact ⟨_, ⟨v, hv, hname, _, hremote, t, ⟨ht, htenant⟩, rfl,
      (h.tenants t ht htenant).trimmed.2, rfl⟩, hx⟩

theorem isIPv4_of_mem_targets (hc : c ∈ (readAll supernet mgmt subnets vpcs).targets s) :
    IsIPv4 c := by
  obtain hpeer | ⟨rfl, hne⟩ := of_mem_dropTargets hc
  · obtain ⟨-, t, ht, -, -, rfl⟩ := mem_peers.mp hpeer
    obtain ⟨ht, htenant⟩ := mem_filter.mp ht
    exact h.tenants t ht htenant
  · exact h.supernet.resolve_left hne

theorem isIPv4_of_mem_peered (hc : c ∈ (readAll supernet mgmt subnets vpcs).peered vpc) :
    IsIPv4 c := by
  obtain ⟨v, -, -, remote, -, hcidr⟩ := (mem_peered h.vpcNames).mp hc
  obtain ⟨t, ht, -, -, rfl⟩ := mem_cidrsOf.mp hcidr
  obtain ⟨ht, htenant⟩ := mem_filter.mp ht
  exact h.tenants t ht htenant

theorem legible (hs : s ∈ subnets) (htenant : s.isTenant = true)
    (hplain : ∀ rule ∈ s.acls, BelowOwn rule → Plain rule)
    (hshared : ∀ c ∈ shared, c ∈ allowTexts s.acls) :
    Legible (readAll supernet mgmt subnets vpcs) s shared where
  own := h.tenants s hs htenant
  exceptions c hc := by
    obtain hc | hc := mem_append.mp (mem_sortedSet.mp hc)
    · exact isIPv4_of_mem_allowTexts hplain (hshared c hc)
    · exact h.isIPv4_of_mem_peered hc
  targets _ hc := h.isIPv4_of_mem_targets hc
  mgmt := h.mgmt

/-- Apart from its own addresses, what the subnet may reach is where its peers are, and what was
allowed outside the supernet. -/
theorem exists_exception_iff (hplain : ∀ rule ∈ s.acls, BelowOwn rule → Plain rule)
    (hshared : ∀ c, c ∈ shared ↔ c ∈ allowTexts s.acls ∧ ¬ Inside c supernet) :
    (∃ c ∈ (readAll supernet mgmt subnets vpcs).exceptions s shared, inCIDR (.v4 x) c = true) ↔
      InPeer (·.isTenant = true) subnets vpcs s x ∨ AllowedBefore BelowOwn supernet s.acls x := by
  rw [← h.exists_peered_iff]
  simp only [Reading.exceptions, mem_sortedSet, mem_append, hshared, mem_allowTexts hplain]
  constructor
  · rintro ⟨c, ⟨⟨rule, hrule, hbelow, hcidr⟩, hout⟩ | hpeer, hx⟩
    · exact .inr ⟨rule, hrule, hbelow, c, hcidr, hx, hout⟩
    · exact .inl ⟨c, hpeer, hx⟩
  · rintro (⟨c, hpeer, hx⟩ | ⟨rule, hrule, hbelow, c, hcidr, hx, hout⟩)
    · exact ⟨c, .inr hpeer, hx⟩
    · exact ⟨c, .inl ⟨⟨rule, hrule, hbelow, hcidr⟩, hout⟩, hx⟩

/-- An address of another tenant is one of the subnet's own, or the drop is scoped to it. -/
theorem own_or_target (hs : s ∈ subnets) (hother : InOtherTenant (·.isTenant = true) subnets s x) :
    inCIDR (.v4 x) s.cidrBlock = true ∨
      ∃ c ∈ (readAll supernet mgmt subnets vpcs).targets s, inCIDR (.v4 x) c = true := by
  obtain ⟨t, ht, htenant, hrole, hvpc, hx⟩ := hother
  by_cases hself : t.cidrBlock = s.cidrBlock
  · exact .inl (hself ▸ hx)
  · have hname : t.name ≠ s.name := by
      intro hname
      obtain rfl := inj_on_of_nodup_map h.names ht hs hname
      exact hvpc rfl
    have hpeer : t.cidrBlock ∈ (readAll supernet mgmt subnets vpcs).peers s :=
      mem_peers.mpr ⟨(h.tenants t ht htenant).trimmed.2, t,
        mem_filter.mpr ⟨ht, htenant⟩, hname, hrole, rfl⟩
    exact .inr ⟨_, mem_targets_of_mem_peers hpeer hself, hx⟩

end

end WellFormed

/-- No rule takes the management deny's place: none of those that stay where there is nothing to be
isolated from, and elsewhere none of the exceptions that are written. -/
def DenyOnTop (parse6 : String → Option (Block 128)) (r : Reading) (s : Subnet) : Prop :=
  (r.targets s = [] → DenyAlone r.mgmt s.acls) ∧
    ∀ shared, r.targets s ≠ [] → sharedFrom parse6 r.supernet s.acls = some shared →
      DenyAbove r s shared

/-- Every subnet without a role that a pass rewrites is kept apart from the other tenants. -/
theorem separates (h : WellFormed supernet mgmt subnets vpcs) {acls : List Rule}
    (hmem : (s, some acls) ∈ outcomes parse6 (readAll supernet mgmt subnets vpcs) subnets)
    (hrole : vpcRole s = none) (hplain : ∀ rule ∈ s.acls, BelowOwn rule → Plain rule)
    (hdeny : DenyOnTop parse6 (readAll supernet mgmt subnets vpcs) s) : Separates acls
      (fun rule => (readAll supernet mgmt subnets vpcs).targets s = [] ∧ rule ∈ s.acls ∧
        rule.action ≠ "drop")
      (fun x => mgmt.any (inCIDR (.v4 x)) = true)
      (fun x => inCIDR (.v4 x) s.cidrBlock = true ∨
        InPeer (·.isTenant = true) subnets vpcs s x ∨ AllowedBefore BelowOwn supernet s.acls x)
      (InOtherTenant (·.isTenant = true) subnets s) := by
  obtain ⟨hs, htenant, hpatched⟩ := of_mem_outcomes hmem
  have hown := h.tenants s hs htenant
  obtain ⟨shared, hshared, hread⟩ := exists_sharedFrom parse6 hplain h.supernet
  obtain ⟨shared', hshared', hacls⟩ := of_rewrite_eq_patched hpatched hrole
  obtain rfl := Option.mem_unique hshared hshared'
  have hlegible := h.legible hs htenant hplain fun c hc => ((hread c).mp hc).1
  have hreach (x : BitVec 32) := h.exists_exception_iff (x := x) hplain hread
  obtain ⟨hnone, rfl⟩ | ⟨hsome, rfl⟩ := hacls
  · have hnone := hnone.resolve_left hown.trimmed.2
    refine ⟨fun rule hrule => ?_, fun x hx => ?_, fun x d _ hmgmt _ => ?_,
      fun x d _ _ hx hother => ?_⟩
    · obtain ⟨hmem, hallow⟩ | ⟨c, hc, -, -, hmatch⟩ := of_mem_retire hrule
      · exact .inr ⟨hnone, hmem, hallow⟩
      · exact .inl ⟨c, h.mgmt c hc, .inl hmatch⟩
    · exact evaluate_retire_mgmt h.mgmt (hdeny.1 hnone) hx
    · exact evaluate_retire_other h.mgmt hmgmt
    · obtain hself | ⟨c, hc, -⟩ := h.own_or_target hs hother
      · exact absurd (.inl hself) hx
      · rw [hnone] at hc
        exact absurd hc not_mem_nil
  · have habove := hdeny.2 shared (fun hnone => hsome (.inr hnone)) hshared
    refine ⟨fun rule hrule => .inl (hlegible.plain_rules hrule), fun x hx => ?_,
      fun x d hd hmgmt hx => ?_, fun x d hd hmgmt hx hother => ?_⟩
    · exact hlegible.evaluate_mgmt habove hx
    · exact hlegible.evaluate_reach hd hmgmt (hx.imp_right (hreach x).mpr)
    · have hexempt := fun hexempt => hx (Or.imp_right (hreach x).mp hexempt)
      obtain hself | htarget := h.own_or_target hs hother
      · exact absurd (.inl hself) hx
      · exact hlegible.evaluate_target hd hexempt htarget

end Cluster

/-- A network of a VPC, with these rules. -/
def tenantSubnet (vpc cidrBlock : String) (acls : List Rule) : Subnet where
  name := vpc ++ "-default"
  vpc := vpc
  vlan := ""
  cidrBlock := cidrBlock
  deleting := false
  role := ""
  egressGateway := ""
  isolation := ""
  aclOwner := ""
  acls := acls

/-- One tenant that has a shared network and is peered with the second of three. -/
def web : Subnet :=
  tenantSubnet "web" "10.16.1.0/24" (rulePair "allow-related" "10.200.0.0/24" 3100)

def townSubnets : List Subnet :=
  [web, tenantSubnet "db" "10.16.2.0/24" [], tenantSubnet "lab" "172.20.0.0/16" []]

def townVpcs : List Vpc := [⟨"web", ["db"]⟩, ⟨"db", ["web"]⟩, ⟨"lab", []⟩]

def townReading : Reading :=
  readAll "10.16.0.0/12" ["192.168.196.0/24"] townSubnets townVpcs

theorem town_wellFormed : WellFormed "10.16.0.0/12" ["192.168.196.0/24"] townSubnets townVpcs where
  names := by decide
  vpcNames := by decide
  supernet := .inr (by decide)
  mgmt := by decide
  tenants := by decide

theorem separates_web : Separates (townReading.rules web ["10.200.0.0/24", "10.200.0.0/24"])
    (fun rule => townReading.targets web = [] ∧ rule ∈ web.acls ∧ rule.action ≠ "drop")
    (fun x => ["192.168.196.0/24"].any (inCIDR (.v4 x)) = true)
    (fun x => inCIDR (.v4 x) web.cidrBlock = true ∨
      InPeer (·.isTenant = true) townSubnets townVpcs web x ∨
        AllowedBefore BelowOwn "10.16.0.0/12" web.acls x)
    (InOtherTenant (·.isTenant = true) townSubnets web) := by
  refine @separates (fun _ => none) _ _ _ _ _ town_wellFormed _ (by decide +kernel) rfl
    (fun rule hrule _ => ⟨_, compares_of_mem_rulePair (by decide) hrule⟩) ⟨?_, ?_⟩
  · intro hnone
    exact absurd hnone (by decide)
  · intro shared _ hshared k c hk hc
    have hlength : ((townReading.exceptions web shared)).length ≤ 200 := by
      have hread : sharedFrom (fun _ => none) "10.16.0.0/12" web.acls =
          some ["10.200.0.0/24", "10.200.0.0/24"] := by decide +kernel
      obtain rfl := Option.mem_unique hread hshared
      decide +kernel
    rw [show (readAll _ _ townSubnets townVpcs).exceptions web shared =
      townReading.exceptions web shared from rfl, List.getElem?_eq_none (hlength.trans hk)] at hc
    cases hc

/-- Whatever a pass rewrites is kept apart from every other tenant, be it on its way out or not,
and what any rule of the old list allowed outside the supernet still passes. -/
def PassIsolates (parse6 : String → Option (Block 128)) (supernet : String) (mgmt : List String)
    (subnets : List Subnet) (vpcs : List Vpc) : Prop :=
  ∀ s acls, (s, some acls) ∈ outcomes parse6 (readAll supernet mgmt subnets vpcs) subnets →
    Separates acls (fun _ => False) (fun x => mgmt.any (inCIDR (.v4 x)) = true)
      (fun x => inCIDR (.v4 x) s.cidrBlock = true ∨
        InPeer (fun t => t.vpc ≠ systemVPCName ∧ t.vlan = "") subnets vpcs s x ∨
          AllowedBefore (·.action ≠ "drop") supernet s.acls x)
      (InOtherTenant (fun t => t.vpc ≠ systemVPCName ∧ t.vlan = "") subnets s)

/-- A network that serves the others, with a drop that it was given by mistake. -/
def gateway : Subnet :=
  { tenantSubnet "gateway" "10.16.9.0/24" (rulePair "drop" "10.16.1.0/24" 3000) with
    role := "infrastructure" }

/-- A tenant on its way out. -/
def leaving : Subnet := { tenantSubnet "lab" "10.16.3.0/24" [] with deleting := true }

/-- A tenant with an allow of its own making, above the band that is read back. -/
def handmade : Subnet :=
  tenantSubnet "web" "10.16.1.0/24" (rulePair "allow" "172.20.0.0/16" 3250)

/-- The last tenant there is, with a rule of its own making, and a drop of one that has gone. -/
def alone : Subnet :=
  tenantSubnet "web" "10.16.1.0/24"
    (⟨"reject", "from-lport", "tcp", 3300⟩ :: rulePair "drop" "10.16.2.0/24" 3000)

/-- The drops are taken off a subnet with a role, a tenant that is being deleted is not dropped,
an allow above the band that is read back is lost, and where there is nothing to be isolated from,
what is no drop stays. -/
theorem not_passIsolates : ¬ PassIsolates (fun _ => none) "10.16.0.0/12" []
        [gateway, tenantSubnet "web" "10.16.1.0/24" []] [] ∧
      ¬ PassIsolates (fun _ => none) "10.16.0.0/12" []
        [tenantSubnet "web" "10.16.1.0/24" [], leaving, tenantSubnet "db" "10.16.2.0/24" []] [] ∧
      ¬ PassIsolates (fun _ => none) "10.16.0.0/12" []
        [handmade, tenantSubnet "lab" "172.20.0.0/16" []] [] ∧
      ¬ PassIsolates (fun _ => none) "" [] [alone] [] := by
  refine ⟨fun h => ?_, fun h => ?_, fun h => ?_, fun h => ?_⟩
  · have hsep := h gateway [] (by decide +kernel)
    have hverdict := hsep.other_dropped 0x0A100105 "from-lport" (.inl rfl) (by decide) ?_ ?_
    · exact absurd hverdict (by decide)
    · rintro (hown | ⟨v, hv, -⟩ | ⟨rule, hrule, hallow, -⟩)
      · exact absurd hown (by decide)
      · exact not_mem_nil hv
      · have hdrops : ∀ rule ∈ gateway.acls, rule.action = "drop" := by decide
        exact hallow (hdrops rule hrule)
    · exact ⟨_, mem_cons_of_mem _ mem_cons_self, by decide, rfl, by decide, by decide⟩
  · have hsep := h (tenantSubnet "web" "10.16.1.0/24" [])
      (rulePair "allow-related" "10.16.1.0/24" 3200 ++ rulePair "drop" "10.16.2.0/24" 3000)
      (by decide +kernel)
    have hverdict := hsep.other_dropped 0x0A100305 "from-lport" (.inl rfl) (by decide) ?_ ?_
    · exact absurd hverdict (by decide +kernel)
    · rintro (hown | ⟨v, hv, -⟩ | ⟨rule, hrule, -⟩)
      · exact absurd hown (by decide)
      · exact not_mem_nil hv
      · exact not_mem_nil hrule
    · exact ⟨leaving, by decide, by decide, rfl, by decide, by decide⟩
  · have hsep := h handmade
      (rulePair "allow-related" "10.16.1.0/24" 3200 ++ rulePair "drop" "172.20.0.0/16" 3000)
      (by decide +kernel)
    have hverdict := hsep.reach_allowed 0xAC140005 "from-lport" (.inl rfl) (by decide)
      (.inr (.inr ⟨_, mem_cons_self, by decide, "172.20.0.0/16",
        compares_of_mem_rulePair (by decide) mem_cons_self, by decide, fun hinside => ?_⟩))
    · exact absurd hverdict (by decide +kernel)
    · exact absurd (hinside 0xAC140005 (by decide)) (by decide)
  · have hsep := h alone [⟨"reject", "from-lport", "tcp", 3300⟩] (by decide +kernel)
    obtain ⟨cidr, -, hmatch⟩ | hstays := hsep.plain _ mem_cons_self
    · have hlength : ∀ op : String, op.length = 11 → "tcp" ≠ op ++ cidr := by
        intro op hop heq
        have hlen := congrArg String.length heq
        rw [String.length_append, hop, show "tcp".length = 3 from rfl] at hlen
        omega
      exact hmatch.elim (hlength _ rfl) (hlength _ rfl)
    · exact hstays

end Isolation
