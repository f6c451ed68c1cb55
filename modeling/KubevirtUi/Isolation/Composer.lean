import KubevirtUi.Isolation.Reads

/-!
# The composer that cannot read everything

The operator composes the list of a network from the census, the peerings, declared and live, and
the management sources. A list that cannot be read ends the pass. A router that cannot be read does
not: its peerings then count as gone.
-/

namespace Isolation

open Go Acl List
open Option hiding mem_map

/-- A Vpc as the operator reads it. -/
structure Router where
  name : String
  role : String
  remotes : List String

/-- A ManagedNetworkPeering, and whether it has been accepted. -/
structure DeclaredPeering where
  accepted : Bool
  networks : List String

structure ManagedNetwork where
  name : String
  cidr : String
  sharedCIDRs : List String
  isolated : Bool
  role : String
  deletionDelete : Bool

structure ComposerConfig where
  tenantSupernet : String
  mgmtCIDRs : List String

structure ComposerCluster where
  routers : List Router
  subnets : List Subnet
  declared : List DeclaredPeering
  nodes : List Node

/-- Which of the reads fail. -/
structure ComposerFailed where
  routers : Bool
  census : Bool
  declared : Bool
  router : Bool
  peerSubnets : Bool
  nodes : Bool
  subnet : Bool

def ComposerFailed.none : ComposerFailed := ⟨false, false, false, false, false, false, false⟩

def cascadeOnDelete (net : ManagedNetwork) : Bool := net.deletionDelete

def defaultSubnetName (net : ManagedNetwork) : String := net.name ++ "-default"

/-- `sort.Strings` -/
def sortStrings (xs : List String) : List String := xs.insertionSort (· ≤ ·)

/-- The label of the router of this name; among routers of one name the last one counts. -/
def roleOf (routers : List Router) (vpc : String) : String :=
  ((routers.reverse.find? (·.name = vpc)).map (·.role)).getD ""

def tenantCIDRs (c : ComposerCluster) (f : ComposerFailed) : Option (List String) := do
  let routers ← unlessFailed f.routers c.routers
  let subnets ← unlessFailed f.census c.subnets
  return sortStrings ((subnets.filter fun s =>
    s.vpc ≠ "" && s.vpc ≠ systemVPCName && roleOf routers s.vpc = "" && s.cidrBlock ≠ "").map
      (·.cidrBlock))

/-- The other network of an accepted peering of this one. -/
def declaredRemotes (declared : List DeclaredPeering) (vpc : String) : List String :=
  declared.flatMap fun peering =>
    if peering.accepted then
      match peering.networks with
      | [a, b] => if vpc = a then [b] else if vpc = b then [a] else []
      | _ => []
    else []

/-- What the router's own entries say; there may be no router. -/
def liveRemotes (router : Option Router) : List String :=
  match router with
  | some router => router.remotes.filter (· ≠ "")
  | none => []

/-- The prefixes of the subnets of these VPCs. -/
def prefixesOf (subnets : List Subnet) (remotes : List String) : List String :=
  (subnets.filter fun s => s.vpc ∈ remotes && s.cidrBlock ≠ "").map (·.cidrBlock)

def ComposerCluster.router (c : ComposerCluster) (vpc : String) : Option Router :=
  c.routers.find? (·.name = vpc)

def peerCIDRs (c : ComposerCluster) (f : ComposerFailed) (vpc : String) :
    Option (List String) := do
  let declared ← unlessFailed f.declared c.declared
  -- the error of this one read is not looked at
  let router := if f.router then none else c.router vpc
  let remotes := declaredRemotes declared vpc ++ liveRemotes router
  if remotes = [] then return []
  let subnets ← unlessFailed f.peerSubnets c.subnets
  return sortStrings (prefixesOf subnets remotes)

def mgmtSources (cfg : ComposerConfig) (c : ComposerCluster) (f : ComposerFailed) :
    Option (List String) :=
  if cfg.mgmtCIDRs ≠ [] then some cfg.mgmtCIDRs
  else do
    let nodes ← unlessFailed f.nodes c.nodes
    return sortStrings (nodes.flatMap fun node =>
      (node.addresses.filter fun (kind, address) => kind = "InternalIP" && address ≠ "").map
        fun (_, address) => address ++ "/32")

def aclInput (cfg : ComposerConfig) (c : ComposerCluster) (f : ComposerFailed)
    (net : ManagedNetwork) : Option Input := do
  let tenants ← tenantCIDRs c f
  let peers ← peerCIDRs c f net.name
  let mgmt ← mgmtSources cfg c f
  return {
    subnetCIDR := net.cidr
    supernet := cfg.tenantSupernet
    tenantCIDRs := tenants
    peerCIDRs := peers
    sharedCIDRs := net.sharedCIDRs
    mgmtCIDRs := mgmt
    manual := []
    isolated := net.isolated
    role := net.role }

/-- `acl.Equal`: the lists are the same up to their order. -/
def aclEqual (a b : List Rule) : Bool := normalise a = normalise b

/-- `acl.Unaccounted`: what of the one list is not in the other. -/
def unaccounted (live rendered : List Rule) : List Rule := normalise (live.diff rendered)

/-- What a pass does with the Subnet: nothing, or it becomes its owner, or it writes the list. -/
inductive Composed where
  | kept
  | claimed
  | written (acls : List Rule)
  deriving DecidableEq

/-- The list is taken over only if that changes nothing. -/
def adoptACLs (live rendered : List Rule) : Composed :=
  if unaccounted live rendered ≠ [] then .kept
  else if !aclEqual live rendered then .kept
  else .claimed

def reconcileACLs (cfg : ComposerConfig) (c : ComposerCluster) (f : ComposerFailed)
    (net : ManagedNetwork) : Composed :=
  if cfg.tenantSupernet = "" ∧ net.isolated ∧ net.role = "" then .kept
  else match aclInput cfg c f net with
  | none => .kept
  | some input =>
    let rendered := (render input).1
    match (unlessFailed f.subnet c.subnets).bind (·.find? (·.name = defaultSubnetName net)) with
    | none => .kept
    | some subnet =>
      if subnet.aclOwner ≠ aclOwnerOperator ∧ ¬ (cascadeOnDelete net ∧ subnet.acls = []) then
        adoptACLs subnet.acls rendered
      else if aclEqual subnet.acls rendered then .kept
      else .written rendered

/-- The list of the network's Subnet after the pass. -/
def aclsAfter (s : Subnet) : Composed → List Rule
  | .written acls => acls
  | .kept | .claimed => s.acls

section Order

variable {texts texts' : List String} {v own : String}

/-- The allows of the peers. -/
def peerRules (own : String) (peers : List String) : List Rule :=
  ((dedupe peers).filter (· ≠ own)).flatMap fun peer =>
    rulePair "allow-related" peer priorityException

theorem perm_peerRules_iff : (peerRules own texts).Perm (peerRules own texts') ↔
    ∀ v, v ≠ own → (v ∈ dedupe texts ↔ v ∈ dedupe texts') := by
  have hallowed (peers : List String) : allowedTo (peerRules own peers) =
      ((dedupe peers).filter (· ≠ own)).map ("ip4.dst == " ++ ·) := by
    rw [allowedTo, peerRules, filterMap_flatMap, map_eq_flatMap]
    exact flatMap_congr fun peer _ => allowedTo_rulePair peer _
  have hnodup (peers : List String) : ((dedupe peers).filter (· ≠ own)).Nodup :=
    (nodup_dedupeFrom [] peers).filter _
  constructor
  · intro h v hv
    have hperm : (allowedTo (peerRules own texts)).Perm (allowedTo (peerRules own texts')) :=
      h.filterMap _
    rw [hallowed, hallowed,
      map_perm_map_iff fun _ _ heq => (String.append_right_inj _).mp heq] at hperm
    have hmem := hperm.mem_iff (a := v)
    simpa [hv] using hmem
  · intro h
    refine List.Perm.flatMap_right _ ?_
    refine (perm_ext_iff_of_nodup (hnodup texts) (hnodup texts')).mpr fun v => ?_
    rw [mem_filter, mem_filter]
    by_cases hv : v = own
    · simp [hv]
    · simp [hv, h v hv]

end Order

section Composer

variable {cfg : ComposerConfig} {c : ComposerCluster} {f : ComposerFailed} {net : ManagedNetwork}
  {s : Subnet} {declared live own mgmt : List String} {rules : List Rule}

/-- The networks that count as peers, with the router read or not. -/
def ComposerCluster.remotes (c : ComposerCluster) (f : ComposerFailed) (vpc : String) :
    List String :=
  declaredRemotes c.declared vpc ++ liveRemotes (if f.router then none else c.router vpc)

/-- The reads that end a pass when they fail. -/
structure Readable (cfg : ComposerConfig) (c : ComposerCluster) (f : ComposerFailed)
    (net : ManagedNetwork) : Prop where
  routers : f.routers = false
  census : f.census = false
  declared : f.declared = false
  peerSubnets : c.remotes f net.name = [] ∨ f.peerSubnets = false
  nodes : cfg.mgmtCIDRs ≠ [] ∨ f.nodes = false
  subnet : f.subnet = false

/-- What a list is composed from, once the peers' prefixes are known. -/
def ComposerCluster.input (cfg : ComposerConfig) (c : ComposerCluster) (net : ManagedNetwork)
    (peers : List String) : Input where
  subnetCIDR := net.cidr
  supernet := cfg.tenantSupernet
  tenantCIDRs := (tenantCIDRs c .none).getD []
  peerCIDRs := peers
  sharedCIDRs := net.sharedCIDRs
  mgmtCIDRs := (mgmtSources cfg c .none).getD []
  manual := []
  isolated := net.isolated
  role := net.role

/-- The list of an isolated network with these peers. -/
def composed (cfg : ComposerConfig) (c : ComposerCluster) (net : ManagedNetwork)
    (peers : List String) : List Rule :=
  (dedupe (c.input cfg net peers).mgmtCIDRs).map mgmtRule ++ isolationRules (c.input cfg net peers)

/-- Whatever the router's own entries allow is the network's own prefix or allowed by an accepted
peering too. -/
def Covered (c : ComposerCluster) (net : ManagedNetwork) : Prop :=
  ∀ cidr ∈ prefixesOf c.subnets (liveRemotes (c.router net.name)),
    trimSpace cidr = "" ∨ trimSpace cidr = net.cidr ∨
      ∃ other ∈ prefixesOf c.subnets (declaredRemotes c.declared net.name),
        trimSpace other = trimSpace cidr

/-- The Subnet's list is for the operator to write. -/
def Composes (net : ManagedNetwork) (s : Subnet) : Prop :=
  s.aclOwner = aclOwnerOperator ∨ (cascadeOnDelete net = true ∧ s.acls = [])

instance (net : ManagedNetwork) (s : Subnet) : Decidable (Composes net s) :=
  inferInstanceAs (Decidable (_ ∨ _))

/-- A router that cannot be read makes no difference: the pass ends for another reason, the network
is not a tenant's isolated one, the Subnet is not the operator's, the router's entries allow nothing
that is not allowed without them, or the list that stands there is without them already. -/
def ComposerHarmless (cfg : ComposerConfig) (c : ComposerCluster) (f : ComposerFailed)
    (net : ManagedNetwork) : Prop :=
  f.router = true → Readable cfg c f net → cfg.tenantSupernet ≠ "" → net.isolated = true →
    net.role = "" → ∀ s, c.subnets.find? (·.name = defaultSubnetName net) = some s →
      Composes net s → Covered c net ∨
        s.acls.Perm (composed cfg c net
          (prefixesOf c.subnets (declaredRemotes c.declared net.name)))

/-- The Subnet of the network keeps its list, or gets the one that it would have got with everything
read. -/
def ComposerUnharmed (cfg : ComposerConfig) (c : ComposerCluster) (f : ComposerFailed)
    (net : ManagedNetwork) : Prop :=
  ∀ s, c.subnets.find? (·.name = defaultSubnetName net) = some s →
    aclsAfter s (reconcileACLs cfg c f net) = s.acls ∨
      aclsAfter s (reconcileACLs cfg c f net) = aclsAfter s (reconcileACLs cfg c .none net)

theorem peerCIDRs_eq (h : f.declared = false) (vpc : String) :
    peerCIDRs c f vpc = if c.remotes f vpc = [] then some []
      else (unlessFailed f.peerSubnets c.subnets).bind fun subnets =>
        some (sortStrings (prefixesOf subnets (c.remotes f vpc))) := by
  rw [peerCIDRs, h]
  rfl

theorem aclInput_of_readable (h : Readable cfg c f net) : aclInput cfg c f net =
      some (c.input cfg net (sortStrings (prefixesOf c.subnets (c.remotes f net.name)))) := by
  have htenants : tenantCIDRs c f = some ((tenantCIDRs c .none).getD []) := by
    simp [tenantCIDRs, unlessFailed, h.routers, h.census, ComposerFailed.none]
  have hmgmt : mgmtSources cfg c f = some ((mgmtSources cfg c .none).getD []) := by
    by_cases hconfigured : cfg.mgmtCIDRs = []
    · have hnodes := h.nodes.resolve_left (not_not_intro hconfigured)
      simp [mgmtSources, unlessFailed, hconfigured, hnodes, ComposerFailed.none]
    · simp [mgmtSources, hconfigured]
  have hpeers : peerCIDRs c f net.name =
      some (sortStrings (prefixesOf c.subnets (c.remotes f net.name))) := by
    rw [peerCIDRs_eq h.declared]
    split
    · next hnone =>
      simp [hnone, prefixesOf, sortStrings]
    · next hsome =>
      rw [h.peerSubnets.resolve_left hsome]
      rfl
  simp only [aclInput, htenants, hpeers, hmgmt]
  rfl

theorem of_unlessFailed {α : Type} {failed : Bool} {a b : α}
    (h : unlessFailed failed a = some b) : failed = false ∧ a = b := by
  cases failed
  · exact ⟨rfl, some.inj h⟩
  · cases h

theorem readable_of_aclInput {input : Input} (h : aclInput cfg c f net = some input)
    (hsubnet : f.subnet = false) : Readable cfg c f net := by
  simp only [aclInput, bind_eq_bind, bind_eq_some_iff] at h
  obtain ⟨tenants, htenants, peers, hpeers, mgmt, hmgmt, -⟩ := h
  simp only [tenantCIDRs, bind_eq_bind, bind_eq_some_iff] at htenants
  obtain ⟨routers, hrouters, subnets, hcensus, -⟩ := htenants
  have hdeclared : f.declared = false := by
    rw [peerCIDRs, bind_eq_bind, bind_eq_some_iff] at hpeers
    obtain ⟨_, hread, -⟩ := hpeers
    exact (of_unlessFailed hread).1
  rw [peerCIDRs_eq hdeclared] at hpeers
  refine ⟨(of_unlessFailed hrouters).1, (of_unlessFailed hcensus).1, hdeclared, ?_, ?_, hsubnet⟩
  · split at hpeers
    · next hnone => exact .inl hnone
    · obtain ⟨_, hread, -⟩ := bind_eq_some_iff.mp hpeers
      exact .inr (of_unlessFailed hread).1
  · rw [mgmtSources] at hmgmt
    split at hmgmt
    · next hconfigured => exact .inl hconfigured
    · simp only [bind_eq_bind, bind_eq_some_iff] at hmgmt
      obtain ⟨_, hread, -⟩ := hmgmt
      exact .inr (of_unlessFailed hread).1

theorem aclsAfter_of_not_readable (h : ¬ Readable cfg c f net) :
    aclsAfter s (reconcileACLs cfg c f net) = s.acls := by
  rw [reconcileACLs]
  split
  · rfl
  · cases hinput : aclInput cfg c f net with
    | none => rfl
    | some input =>
      cases hsubnet : f.subnet with
      | false => exact absurd (readable_of_aclInput hinput hsubnet) h
      | true =>
        simp only [unlessFailed, if_true, bind_none]
        rfl

theorem aclsAfter_of_readable (h : Readable cfg c f net)
    (hopen : ¬ (cfg.tenantSupernet = "" ∧ net.isolated = true ∧ net.role = ""))
    (hs : c.subnets.find? (·.name = defaultSubnetName net) = some s) {rendered : List Rule}
    (hrendered : (render (c.input cfg net (sortStrings (prefixesOf c.subnets
      (c.remotes f net.name))))).1 = rendered) : aclsAfter s (reconcileACLs cfg c f net) =
      if Composes net s ∧ aclEqual s.acls rendered = false then rendered else s.acls := by
  have hsubnet : (unlessFailed f.subnet c.subnets).bind
      (·.find? (·.name = defaultSubnetName net)) = some s := by
    rw [h.subnet]
    exact hs
  rw [reconcileACLs, if_neg hopen, aclInput_of_readable h]
  simp only [hsubnet, hrendered]
  split
  · next hother =>
    have hnot : ¬ Composes net s := by
      rintro (howner | hfresh)
      · exact hother.1 howner
      · exact hother.2 hfresh
    rw [if_neg fun hboth => hnot hboth.1, adoptACLs]
    split
    · rfl
    · split <;> rfl
  · next hours =>
    have hcomposes : Composes net s := by
      by_contra hnot
      obtain ⟨howner, hfresh⟩ := not_or.mp hnot
      exact hours ⟨howner, hfresh⟩
    split
    · next hsame =>
      rw [if_neg fun hboth => by simp [hsame] at hboth]
      rfl
    · next hother =>
      rw [if_pos ⟨hcomposes, Bool.not_eq_true _ ▸ hother⟩]
      rfl

theorem mem_prefixesOf_append {subnets : List Subnet} {remotes others : List String}
    {cidr : String} : cidr ∈ prefixesOf subnets (remotes ++ others) ↔
      cidr ∈ prefixesOf subnets remotes ∨ cidr ∈ prefixesOf subnets others := by
  simp only [prefixesOf, mem_map, mem_filter, mem_append, Bool.and_eq_true, decide_eq_true_eq]
  constructor
  · rintro ⟨t, ⟨ht, hvpc | hvpc, hcidr⟩, rfl⟩
    · exact .inl ⟨t, ⟨ht, hvpc, hcidr⟩, rfl⟩
    · exact .inr ⟨t, ⟨ht, hvpc, hcidr⟩, rfl⟩
  · rintro (⟨t, ⟨ht, hvpc, hcidr⟩, rfl⟩ | ⟨t, ⟨ht, hvpc, hcidr⟩, rfl⟩)
    · exact ⟨t, ⟨ht, .inl hvpc, hcidr⟩, rfl⟩
    · exact ⟨t, ⟨ht, .inr hvpc, hcidr⟩, rfl⟩

theorem mem_dedupe_sortStrings {texts : List String} {v : String} :
    v ∈ dedupe (sortStrings texts) ↔ v ∈ dedupe texts := by
  simp only [mem_dedupe_iff, sortStrings, mem_insertionSort]

theorem composed_eq (cfg : ComposerConfig) (c : ComposerCluster) (net : ManagedNetwork) :
    ∃ above below, ∀ peers,
      composed cfg c net peers = above ++ peerRules net.cidr peers ++ below := by
  let i := c.input cfg net []
  refine ⟨(dedupe i.mgmtCIDRs).map mgmtRule ++
      (if i.subnetCIDR ≠ "" then rulePair "allow-related" i.subnetCIDR priorityOwn else []) ++
      ((dedupe i.sharedCIDRs).zipIdx.flatMap fun shared =>
        rulePair "allow-related" shared.1 (priorityException + shared.2)),
    (dedupe (floors i).1).flatMap fun target => rulePair "drop" target priorityDrop,
    fun peers => ?_⟩
  simp only [composed, isolationRules, ← append_assoc]
  rfl

theorem perm_composed_iff {peers others : List String} :
    (composed cfg c net peers).Perm (composed cfg c net others) ↔
      ∀ v, v ≠ net.cidr → (v ∈ dedupe peers ↔ v ∈ dedupe others) := by
  obtain ⟨above, below, hcomposed⟩ := composed_eq cfg c net
  rw [hcomposed, hcomposed, perm_append_right_iff, perm_append_left_iff, perm_peerRules_iff]

theorem covered_iff : Covered c net ↔
    (composed cfg c net (sortStrings
      (prefixesOf c.subnets (declaredRemotes c.declared net.name)))).Perm
      (composed cfg c net (sortStrings (prefixesOf c.subnets (c.remotes .none net.name)))) := by
  have hremotes : c.remotes .none net.name =
      declaredRemotes c.declared net.name ++ liveRemotes (c.router net.name) := rfl
  simp only [perm_composed_iff, mem_dedupe_sortStrings]
  simp only [mem_dedupe_iff, hremotes, mem_prefixesOf_append]
  constructor
  · intro h v hv
    refine and_congr_right fun hne => ⟨?_, ?_⟩
    · rintro ⟨cidr, hcidr, rfl⟩
      exact ⟨cidr, .inl hcidr, rfl⟩
    · rintro ⟨cidr, hcidr | hcidr, rfl⟩
      · exact ⟨cidr, hcidr, rfl⟩
      · obtain hempty | hown | ⟨other, hother, hsame⟩ := h cidr hcidr
        · exact absurd hempty hne
        · exact absurd hown hv
        · exact ⟨other, hother, hsame⟩
  · intro h cidr hcidr
    by_cases hempty : trimSpace cidr = ""
    · exact .inl hempty
    by_cases hown : trimSpace cidr = net.cidr
    · exact .inr (.inl hown)
    exact .inr (.inr ((h _ hown).mpr ⟨hempty, cidr, .inr hcidr, rfl⟩).2)

theorem render_tenant (htenant : net.isolated = true ∧ net.role = "") (peers : List String) :
    (render (c.input cfg net peers)).1 = normalise (composed cfg c net peers) := by
  have hrole : ¬ (c.input cfg net peers).role ≠ "" := not_not_intro htenant.2
  have hisolated : ¬ (!(c.input cfg net peers).isolated) = true := by
    simp [ComposerCluster.input, htenant.1]
  have hmanual : (c.input cfg net peers).manual = [] := rfl
  rw [render, if_neg hrole]
  simp only [if_neg hisolated]
  rw [hmanual, append_nil, composed]

theorem render_other (hother : ¬ (net.isolated = true ∧ net.role = "")) (peers : List String) :
    (render (c.input cfg net peers)).1 = (render (c.input cfg net [])).1 := by
  by_cases hrole : net.role = ""
  · have hopen : net.isolated = false := by
      by_contra hisolated
      exact hother ⟨Bool.not_eq_false _ ▸ hisolated, hrole⟩
    simp [render, ComposerCluster.input, hrole, hopen]
  · simp [render, ComposerCluster.input, hrole]

/-- A pass that would write the one list writes the other one instead, unless the two are the same
or there is nothing to write. -/
theorem written_iff {composes : Prop} [Decidable composes] {acls others live : List Rule} :
    ((if composes ∧ aclEqual live (normalise acls) = false then normalise acls else live) = live ∨
      (if composes ∧ aclEqual live (normalise acls) = false then normalise acls else live) =
        (if composes ∧ aclEqual live (normalise others) = false then normalise others else live)) ↔
      (composes → acls.Perm others ∨ live.Perm acls) := by
  have hequal (rules : List Rule) : aclEqual live (normalise rules) = true ↔ live.Perm rules := by
    have hsorted : (normalise rules).Perm rules := perm_insertionSort _ rules
    rw [aclEqual, decide_eq_true_iff, normalise_eq_iff]
    exact ⟨fun h => h.trans hsorted, fun h => h.trans hsorted.symm⟩
  have hdiffer (rules : List Rule) :
      aclEqual live (normalise rules) = false ↔ ¬ live.Perm rules := by
    rw [← hequal, Bool.not_eq_true]
  simp only [hdiffer]
  by_cases hcomposes : composes
  · by_cases hsame : live.Perm acls
    · simp [hsame]
    · have hne : normalise acls ≠ live := by
        rintro rfl
        exact hsame (perm_insertionSort _ acls)
      have hleft : composes ∧ ¬ live.Perm acls := ⟨hcomposes, hsame⟩
      rw [if_pos hleft, or_iff_right hne]
      by_cases hother : live.Perm others
      · rw [if_neg fun hboth => hboth.2 hother]
        refine iff_of_false hne fun himp => ?_
        obtain hperm | hperm := himp hcomposes
        · exact hsame (hother.trans hperm.symm)
        · exact hsame hperm
      · rw [if_pos ⟨hcomposes, hother⟩, normalise_eq_iff]
        exact ⟨fun h _ => .inl h, fun h => (h hcomposes).resolve_right hsame⟩
  · simp [hcomposes]

/-- The operator's pass harms nobody if and only if a router that it cannot read makes no
difference. -/
theorem composerUnharmed_iff : ComposerUnharmed cfg c f net ↔ ComposerHarmless cfg c f net := by
  by_cases hreadable : Readable cfg c f net
  · by_cases hopen : cfg.tenantSupernet = "" ∧ net.isolated = true ∧ net.role = ""
    · have hkept (f' : ComposerFailed) : reconcileACLs cfg c f' net = .kept := if_pos hopen
      exact iff_of_true (fun s _ => .inl (by rw [hkept, aclsAfter]))
        fun _ _ hsupernet => absurd hopen.1 hsupernet
    · have hfull : Readable cfg c .none net := ⟨rfl, rfl, rfl, .inr rfl, .inr rfl, rfl⟩
      cases hrouter : f.router with
      | false =>
        refine iff_of_true (fun s hs => .inr ?_) fun hfail => by simp [hrouter] at hfail
        have hremotes : c.remotes f net.name = c.remotes .none net.name := by
          rw [ComposerCluster.remotes, hrouter]
          rfl
        rw [aclsAfter_of_readable hreadable hopen hs rfl, aclsAfter_of_readable hfull hopen hs rfl,
          hremotes]
      | true =>
        have hremotes : c.remotes f net.name = declaredRemotes c.declared net.name := by
          rw [ComposerCluster.remotes, hrouter]
          exact append_nil _
        by_cases htenant : net.isolated = true ∧ net.role = ""
        · have hsupernet : cfg.tenantSupernet ≠ "" := fun hnone =>
            hopen ⟨hnone, htenant.1, htenant.2⟩
          have hsorted : (composed cfg c net (sortStrings (prefixesOf c.subnets
              (declaredRemotes c.declared net.name)))).Perm (composed cfg c net
                (prefixesOf c.subnets (declaredRemotes c.declared net.name))) :=
            perm_composed_iff.mpr fun v _ => mem_dedupe_sortStrings
          have hiff (s : Subnet) (hs : c.subnets.find? (·.name = defaultSubnetName net) = some s) :
              (aclsAfter s (reconcileACLs cfg c f net) = s.acls ∨
                aclsAfter s (reconcileACLs cfg c f net) =
                  aclsAfter s (reconcileACLs cfg c .none net)) ↔
              (Composes net s → Covered c net ∨ s.acls.Perm (composed cfg c net
                (prefixesOf c.subnets (declaredRemotes c.declared net.name)))) := by
            rw [aclsAfter_of_readable hreadable hopen hs (render_tenant htenant _),
              aclsAfter_of_readable hfull hopen hs (render_tenant htenant _), hremotes, written_iff,
              covered_iff]
            refine forall_congr' fun _ => or_congr_right ?_
            exact ⟨fun h => h.trans hsorted, fun h => h.trans hsorted.symm⟩
          constructor
          · intro h _ _ _ _ _ s hs
            exact (hiff s hs).mp (h s hs)
          · intro h s hs
            exact (hiff s hs).mpr (h hrouter hreadable hsupernet htenant.1 htenant.2 s hs)
        · refine iff_of_true (fun s hs => .inr ?_) fun _ _ _ hisolated hrole =>
            absurd ⟨hisolated, hrole⟩ htenant
          rw [aclsAfter_of_readable hreadable hopen hs (render_other htenant _),
            aclsAfter_of_readable hfull hopen hs (render_other htenant _)]
  · refine iff_of_true (fun s hs => .inl (aclsAfter_of_not_readable hreadable)) fun _ hyes => ?_
    exact absurd hyes hreadable

end Composer

/-- Both passes take nothing away and add nothing for want of a read, if and only if what they lack
makes no difference. -/
theorem passes_unharmed_iff (parse6 : String → Option (Block 128)) (cfg : Settings) (c : Cluster)
    (f : Failed) (composerCfg : ComposerConfig) (cluster : ComposerCluster)
    (failed : ComposerFailed) (net : ManagedNetwork) : (Unharmed parse6 cfg c f ↔ f.subnets = true ∨
      ∀ (k : Nat) (s : Subnet), c.subnets[k]? = some s →
        Reached parse6 (c.reading cfg f) c.subnets k →
          (Reached parse6 (c.reading cfg .none) c.subnets k ∧
            Harmless parse6 (c.reading cfg .none) (c.reading cfg f) s) ∨
          (¬ Reached parse6 (c.reading cfg .none) c.subnets k ∧
            Standing parse6 (c.reading cfg f) s)) ∧
      (ComposerUnharmed composerCfg cluster failed net ↔
        ComposerHarmless composerCfg cluster failed net) :=
  ⟨unharmed_iff, composerUnharmed_iff⟩

/-- Two peered tenants on a cluster with one node, before any pass. -/
def townCluster : Cluster where
  subnets := [⟨"web-default", "web", "", "10.16.1.0/24", false, "", "", "", "", []⟩,
    ⟨"db-default", "db", "", "10.16.2.0/24", false, "", "", "", "", []⟩]
  vpcs := [⟨"web", ["db"]⟩, ⟨"db", ["web"]⟩]
  nodes := [⟨[("InternalIP", "192.168.196.11")]⟩]

def townSettings : Settings := ⟨"10.16.0.0/12", true, ""⟩

/-- The same cluster after a pass that reads everything. -/
def settledTown : Cluster where
  subnets := reconcileIsolationAcls (fun _ => none) townSettings townCluster .none
  vpcs := townCluster.vpcs
  nodes := townCluster.nodes

/-- The same network to the operator, which owns its list. -/
def composerTown : ComposerCluster where
  routers := [⟨"web", "", ["db"]⟩, ⟨"db", "", ["web"]⟩]
  subnets := [⟨"web-default", "web", "", "10.16.1.0/24", false, "", "", "", "operator",
      (render ⟨"10.16.1.0/24", "10.16.0.0/12", [], ["10.16.2.0/24"], [], ["192.168.196.11/32"], [],
        true, ""⟩).1⟩,
    ⟨"db-default", "db", "", "10.16.2.0/24", false, "", "", "", "operator", []⟩]
  declared := []
  nodes := townCluster.nodes

theorem not_unharmed_of_differs {parse6 : String → Option (Block 128)} {cfg : Settings}
    {c : Cluster} {f : Failed} (k : Nat) (h : ((c.subnets[k]?).bind fun s =>
      ((reconcileIsolationAcls parse6 cfg c f)[k]?).bind fun t =>
        ((reconcileIsolationAcls parse6 cfg c .none)[k]?).map fun u =>
          decide (t.acls ≠ s.acls ∧ t.acls ≠ u.acls)) = some true) : ¬ Unharmed parse6 cfg c f := by
  intro hunharmed
  obtain ⟨s, hs, h⟩ := bind_eq_some_iff.mp h
  obtain ⟨t, ht, h⟩ := bind_eq_some_iff.mp h
  obtain ⟨u, hu, h⟩ := map_eq_some_iff.mp h
  obtain ⟨hkept, hsame⟩ := of_decide_eq_true h
  exact (hunharmed k s t u hs ht hu).elim hkept hsame

/-- Without the Vpcs the pass takes the allow of a peering away, and without the nodes the
management deny; so does the operator with the allow when it cannot read the router. -/
theorem not_passes_unharmed_town :
    ¬ Unharmed (fun _ => none) townSettings settledTown ⟨false, true, false⟩ ∧
      ¬ Unharmed (fun _ => none) townSettings settledTown ⟨false, false, true⟩ ∧
      ¬ ComposerUnharmed ⟨"10.16.0.0/12", []⟩ composerTown
        ⟨false, false, false, true, false, false, false⟩
        ⟨"web", "10.16.1.0/24", [], true, "", true⟩ := by
  refine ⟨not_unharmed_of_differs 0 (by decide +kernel),
    not_unharmed_of_differs 0 (by decide +kernel), fun h => ?_⟩
  have hfound : composerTown.subnets.find? (·.name = "web-default") =
      composerTown.subnets.head? := by decide +kernel
  have hweb := h _ hfound
  revert hweb
  decide +kernel

end Isolation
