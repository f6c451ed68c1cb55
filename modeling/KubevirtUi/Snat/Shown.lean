import KubevirtUi.Snat.Settled

/-!
# The address that is shown

The backend looks for the address of a subnet in two places. Where it only shows one, the
tenant's own rule counts like any other. Where it makes sure that there is one, the own rule is
passed over. The two find the same address unless the own rule comes first with another, or
there is no other and what it holds is not what the tenant's own EIP holds.

Dropping a rule is the same here as in the operator.
-/

namespace Snat.Backend

open List
open Option hiding filter_map filter_filter

/-- The slot is held by a rule on another network. -/
structure TransitSnatSlotTaken where
  rule : String
  address : String
  subnet : String
  deriving DecidableEq

/-- The text of the error. Nothing in the names is escaped in quotes. -/
def TransitSnatSlotTaken.message (e : TransitSnatSlotTaken) : String :=
  "SNAT slot for this subnet is held by '" ++ e.rule ++ "' → " ++ e.address ++ " on " ++
    "subnet '" ++ e.subnet ++ "', which is not the control-plane transit " ++
    "network. Remove that rule (and the VPC's NAT gateway that " ++
    "created it) before attaching a tenant."

def eipName (tenant : String) : String := "cpt-eip-" ++ tenant

def snatName (tenant : String) : String := "cpt-snat-" ++ tenant

def labels (tenant : String) : Labels :=
  [("kubevirt-ui.io/managed", "true"), ("kubevirt-ui.io/tenant", tenant)]

def rulesCovering (s : Cluster) (vpcName tenantSubnet skip : String) :
    List SnatCandidate × List SnatCandidate :=
  ((covering s vpcName tenantSubnet skip).filter (·.address ≠ ""),
    ((covering s vpcName tenantSubnet skip).filter (·.address = "")).map
      ({ · with address := "<no address>" }))

def existingSnatAddress (s : Cluster) (vpcName tenantSubnet skip transitSubnet : String) :
    Except TransitSnatSlotTaken (Cluster × Option String) :=
  let (candidates, dangling) := rulesCovering s vpcName tenantSubnet skip
  match candidates.filter (·.subnet = transitSubnet) with
  | [] =>
    match candidates with
    | first :: _ => .error ⟨first.name, first.address, first.subnet⟩
    | [] => .ok (s, none)
  | winner :: extraTransit =>
    let losers := extraTransit ++ candidates.filter (·.subnet ≠ transitSubnet)
    let s := (losers ++ dangling).foldl (dropLosingRule winner.eipName) s
    let s := { s with rules := s.rules.delete winner.name }
    .ok (createSNATRule s winner.name winner.labels winner.eipName vpcName tenantSubnet,
      some winner.address)

/-- The address that is shown: nothing is changed for it. -/
def effectiveSnatAddress (s : Cluster) (vpcName tenantSubnet transitSubnet : String) :
    Option String :=
  let (candidates, _) := rulesCovering s vpcName tenantSubnet ""
  ((candidates.filter (·.subnet = transitSubnet)).head?).map SnatCandidate.address

/-- The address of an EIP, once it has been given one. -/
def eipAddress (s : Cluster) (name : String) : Option String :=
  ((s.eips.value? name).map OvnEip.v4Ip).filter (· ≠ "")

/-- The address that the guard is written for. -/
def ensureTenantSnat (s : Cluster) (tenant vpcName tenantSubnet transitSubnet : String) :
    Except TransitSnatSlotTaken (Cluster × Option String) :=
  match existingSnatAddress s vpcName tenantSubnet (snatName tenant) transitSubnet with
  | .error e => .error e
  | .ok (s, inherited) =>
    if inherited.any (· ≠ "") then .ok (s, inherited)
    else
      let eip := eipName tenant
      let eipLabels := labels tenant ++ [("kubevirt-ui.io/vpc", vpcName)]
      let s := { s with eips := s.eips.create eip ⟨eipLabels, transitSubnet, "nat", ""⟩ }
      let s := createSNATRule s (snatName tenant) (labels tenant) eip vpcName tenantSubnet
      .ok (s, eipAddress s eip)

/-- The address of the tenant's own rule, if it is on the plane. -/
def ownAddress (s : Cluster) (tenant vpcName tenantSubnet transitSubnet : String) : Option String :=
  ((rulesCovering s vpcName tenantSubnet "").1.find? fun candidate =>
    candidate.name = snatName tenant && candidate.subnet = transitSubnet).map SnatCandidate.address

/-- No other rule with an address covers the subnet, and the tenant's own rule and EIP are not
both there, the EIP with an address. -/
def HasToCreate (s : Cluster) (tenant vpcName tenantSubnet : String) : Prop :=
  (rulesCovering s vpcName tenantSubnet (snatName tenant)).1 = [] ∧
    ¬(snatName tenant ∈ s.rules ∧ (eipAddress s (eipName tenant)).isSome)

/-- What is shown is what would be returned, and nothing is shown exactly where the slot is
taken or the tenant's own is still to be made. -/
def ShownIsGuarded (s : Cluster) (tenant vpcName tenantSubnet transitSubnet : String) : Prop :=
  (∀ address, effectiveSnatAddress s vpcName tenantSubnet transitSubnet = some address →
    ∃ t, ensureTenantSnat s tenant vpcName tenantSubnet transitSubnet = .ok (t, some address)) ∧
  (effectiveSnatAddress s vpcName tenantSubnet transitSubnet = none ↔
    (∃ e, ensureTenantSnat s tenant vpcName tenantSubnet transitSubnet = .error e) ∨
      HasToCreate s tenant vpcName tenantSubnet)

/-- The own rule does not come before another on the plane with another address, nor is it
alone there while another network holds the slot, and where nothing else covers the subnet, it
holds what the tenant's own EIP holds. -/
def OwnAgrees (s : Cluster) (tenant vpcName tenantSubnet transitSubnet : String) : Prop :=
  let candidates := (rulesCovering s vpcName tenantSubnet (snatName tenant)).1
  let own := ownAddress s tenant vpcName tenantSubnet transitSubnet
  match candidates.filter (·.subnet = transitSubnet), candidates with
  | winner :: _, _ =>
    ∀ address, own = some address → snatName tenant < winner.name → address = winner.address
  | [], _ :: _ => own = none
  | [], [] => snatName tenant ∈ s.rules → own = eipAddress s (eipName tenant)

variable {winner first candidate : SnatCandidate} {extraTransit candidates : List SnatCandidate}

variable {s : Cluster} {tenant vpcName tenantSubnet transitSubnet : String}

section Scan

variable {skip : String}

theorem sorted_covering : (covering s vpcName tenantSubnet skip).Pairwise (·.name < ·.name) := by
  have hrules : (sortedRules s).Pairwise (·.1 < ·.1) := by
    have htotal : Std.Total fun a b : String × Object OvnSnatRule => a.1 ≤ b.1 :=
      ⟨fun a b => le_total a.1 b.1⟩
    have htrans : IsTrans (String × Object OvnSnatRule) fun a b => a.1 ≤ b.1 :=
      ⟨fun _ _ _ => le_trans⟩
    have hle : (sortedRules s).Pairwise (·.1 ≤ ·.1) := by
      rw [sortedRules]
      convert pairwise_insertionSort (fun a b : String × Object OvnSnatRule => a.1 ≤ b.1) _
    have hne := pairwise_map.mp (nodup_sortedRules (s := s))
    exact (hle.and hne).imp fun h => lt_of_le_of_ne h.1 h.2
  rw [covering, pairwise_map]
  exact hrules.filter _

theorem covering_eq_filter (h : "" ∉ s.rules) : covering s vpcName tenantSubnet skip =
    (covering s vpcName tenantSubnet "").filter (·.name ≠ skip) := by
  rw [covering, covering, filter_map, filter_filter]
  refine congrArg _ (filter_congr fun item hitem => ?_)
  have hname : item.1 ≠ "" := by
    intro hempty
    have hlookup : s.rules.lookup item.1 = some item.2 := mem_sortedRules.mp hitem
    exact h (hempty ▸ AList.lookup_isSome.mp (isSome_of_mem hlookup))
  simp [hname, candidateOf, Bool.and_assoc]

theorem rulesCovering_eq_filter (h : "" ∉ s.rules) : (rulesCovering s vpcName tenantSubnet skip).1 =
      (rulesCovering s vpcName tenantSubnet "").1.filter (·.name ≠ skip) := by
  rw [rulesCovering, rulesCovering, covering_eq_filter h]
  exact filter_comm _ _ _

theorem ensureTenantSnat_of_winner
    (h : (rulesCovering s vpcName tenantSubnet (snatName tenant)).1.filter
      (·.subnet = transitSubnet) = winner :: extraTransit) :
    ∃ t, ensureTenantSnat s tenant vpcName tenantSubnet transitSubnet =
      .ok (t, some winner.address) := by
  have hmem : winner ∈ (rulesCovering s vpcName tenantSubnet (snatName tenant)).1 :=
    mem_of_mem_filter (h ▸ mem_cons_self)
  have hne : winner.address ≠ "" := of_decide_eq_true (mem_filter.mp hmem).2
  rw [ensureTenantSnat, existingSnatAddress]
  simp only [h, any_some, hne, decide_true, ne_eq, not_false_eq_true, if_true]
  exact ⟨_, rfl⟩

theorem ensureTenantSnat_of_taken
    (h : (rulesCovering s vpcName tenantSubnet (snatName tenant)).1 = first :: candidates)
    (hon : (first :: candidates).filter (·.subnet = transitSubnet) = []) :
    ensureTenantSnat s tenant vpcName tenantSubnet transitSubnet =
      .error ⟨first.name, first.address, first.subnet⟩ := by
  rw [ensureTenantSnat, existingSnatAddress]
  simp only [h, hon]

theorem ensureTenantSnat_of_nil
    (h : (rulesCovering s vpcName tenantSubnet (snatName tenant)).1 = []) :
    ∃ t, ensureTenantSnat s tenant vpcName tenantSubnet transitSubnet =
      .ok (t, eipAddress s (eipName tenant)) := by
  have heip (value : OvnEip) (hvalue : value.v4Ip = "") (rules : Objects OvnSnatRule) :
      eipAddress ⟨rules, s.eips.create (eipName tenant) value⟩ (eipName tenant) =
        eipAddress s (eipName tenant) := by
    by_cases hmem : eipName tenant ∈ s.eips
    · rw [eipAddress, Objects.create, if_pos hmem, eipAddress]
    · have hnone : s.eips.value? (eipName tenant) = none := by
        rw [Objects.value?, AList.lookup_eq_none.mpr hmem, map_none]
      rw [eipAddress, Objects.create, if_neg hmem, eipAddress, hnone, Objects.value?,
        AList.lookup_insert]
      simp [hvalue]
  rw [ensureTenantSnat, existingSnatAddress]
  simp only [h, filter_nil, any_none, Bool.false_eq_true, if_false, createSNATRule]
  exact ⟨_, by rw [heip _ rfl]⟩

theorem filter_rulesCovering (h : "" ∉ s.rules) :
    (rulesCovering s vpcName tenantSubnet skip).1.filter (·.subnet = transitSubnet) =
      ((rulesCovering s vpcName tenantSubnet "").1.filter (·.subnet = transitSubnet)).filter
        (·.name ≠ skip) := by
  rw [rulesCovering_eq_filter h]
  exact filter_comm _ _ _

theorem ownAddress_eq : ownAddress s tenant vpcName tenantSubnet transitSubnet =
    (((rulesCovering s vpcName tenantSubnet "").1.filter (·.subnet = transitSubnet)).find?
      (·.name = snatName tenant)).map SnatCandidate.address := by
  rw [ownAddress, List.find?_filter]
  simp only [Bool.and_comm, Bool.decide_and, Bool.decide_eq_true]

theorem mem_rules_of_mem (h : candidate ∈ (rulesCovering s vpcName tenantSubnet skip).1) :
    candidate.name ∈ s.rules := by
  obtain ⟨name, rule, hlookup, -, -, -, -, rfl⟩ := mem_covering.mp (mem_of_mem_filter h)
  exact AList.lookup_isSome.mp (isSome_of_mem hlookup)

theorem not_hasToCreate_of_cons
    (h : (rulesCovering s vpcName tenantSubnet (snatName tenant)).1.filter
      (·.subnet = transitSubnet) = candidate :: candidates) :
    ¬HasToCreate s tenant vpcName tenantSubnet := by
  rintro ⟨hnone, -⟩
  rw [hnone] at h
  contradiction

end Scan

section Agree

theorem shownIsGuarded_of_winner {onTransit : List SnatCandidate}
    (hwinner : (rulesCovering s vpcName tenantSubnet (snatName tenant)).1.filter
      (·.subnet = transitSubnet) = winner :: extraTransit)
    (hfirst : (rulesCovering s vpcName tenantSubnet "").1.filter (·.subnet = transitSubnet) =
      first :: onTransit) : ShownIsGuarded s tenant vpcName tenantSubnet transitSubnet ↔
      first.address = winner.address := by
  have hshown : effectiveSnatAddress s vpcName tenantSubnet transitSubnet =
      some first.address := by
    simp only [effectiveSnatAddress, hfirst, List.head?_cons, map_some]
  obtain ⟨t, ht⟩ := ensureTenantSnat_of_winner hwinner
  have hcreate := not_hasToCreate_of_cons hwinner
  rw [ShownIsGuarded, hshown, ht]
  constructor
  · rintro ⟨hsame, -⟩
    obtain ⟨t', ht'⟩ := hsame first.address rfl
    exact (some.inj (Prod.mk.inj (Except.ok.inj ht')).2).symm
  · intro hsame
    refine ⟨?_, fun hnone => by contradiction, ?_⟩
    · rintro _ ⟨⟩
      exact ⟨t, by rw [hsame]⟩
    · rintro (⟨e, he⟩ | h)
      · contradiction
      · exact absurd h hcreate

section

variable
  (hnone : (rulesCovering s vpcName tenantSubnet (snatName tenant)).1.filter
      (·.subnet = transitSubnet) = [])

include hnone

theorem shownIsGuarded_of_own {own : SnatCandidate}
    (hown : (rulesCovering s vpcName tenantSubnet "").1.filter (·.subnet = transitSubnet) = [own])
    (hname : own.name = snatName tenant) :
    ShownIsGuarded s tenant vpcName tenantSubnet transitSubnet ↔
      (rulesCovering s vpcName tenantSubnet (snatName tenant)).1 = [] ∧
        eipAddress s (eipName tenant) = some own.address := by
  have hshown : effectiveSnatAddress s vpcName tenantSubnet transitSubnet =
      some own.address := by
    simp only [effectiveSnatAddress, hown, List.head?_cons, map_some]
  have hmem : own ∈ (rulesCovering s vpcName tenantSubnet "").1 :=
    mem_of_mem_filter (hown ▸ mem_singleton_self own)
  have hrule : snatName tenant ∈ s.rules := hname ▸ mem_rules_of_mem hmem
  rw [ShownIsGuarded, hshown]
  cases hothers : (rulesCovering s vpcName tenantSubnet (snatName tenant)).1 with
  | cons first candidates =>
    rw [hothers] at hnone
    rw [ensureTenantSnat_of_taken hothers hnone]
    refine iff_of_false ?_ (fun h => by obtain ⟨h, -⟩ := h; contradiction)
    rintro ⟨hsame, -⟩
    obtain ⟨t, ht⟩ := hsame own.address rfl
    contradiction
  | nil =>
    obtain ⟨t, ht⟩ := @ensureTenantSnat_of_nil s tenant vpcName tenantSubnet transitSubnet hothers
    rw [ht]
    constructor
    · rintro ⟨hsame, -⟩
      obtain ⟨t', ht'⟩ := hsame own.address rfl
      exact ⟨rfl, (Prod.mk.inj (Except.ok.inj ht')).2⟩
    · rintro ⟨-, hsame⟩
      refine ⟨?_, fun hnone => by contradiction, ?_⟩
      · rintro _ ⟨⟩
        exact ⟨t, by rw [hsame]⟩
      · rintro (⟨e, he⟩ | ⟨-, h⟩)
        · contradiction
        · exact absurd ⟨hrule, by rw [hsame, isSome_some]⟩ h

theorem shownIsGuarded_of_nil
    (hall : (rulesCovering s vpcName tenantSubnet "").1.filter (·.subnet = transitSubnet) = []) :
    ShownIsGuarded s tenant vpcName tenantSubnet transitSubnet ↔
      ((rulesCovering s vpcName tenantSubnet (snatName tenant)).1 = [] → snatName tenant ∈ s.rules →
        eipAddress s (eipName tenant) = none) := by
  have hshown : effectiveSnatAddress s vpcName tenantSubnet transitSubnet = none := by
    simp only [effectiveSnatAddress, hall, List.head?_nil, map_none]
  rw [ShownIsGuarded, hshown]
  cases hothers : (rulesCovering s vpcName tenantSubnet (snatName tenant)).1 with
  | cons first candidates =>
    rw [hothers] at hnone
    rw [ensureTenantSnat_of_taken hothers hnone]
    refine iff_of_true ⟨fun address h => by contradiction, ?_⟩ (fun h => by contradiction)
    exact iff_of_true rfl (.inl ⟨_, rfl⟩)
  | nil =>
    obtain ⟨t, ht⟩ := @ensureTenantSnat_of_nil s tenant vpcName tenantSubnet transitSubnet hothers
    rw [ht, HasToCreate, hothers]
    constructor
    · rintro ⟨-, h⟩ - hrule
      obtain ⟨e, he⟩ | ⟨-, hcreate⟩ := h.mp rfl
      · contradiction
      · exact not_isSome_iff_eq_none.mp fun hsome => hcreate ⟨hrule, hsome⟩
    · intro h
      refine ⟨fun address h => by contradiction, iff_of_true rfl (.inr ⟨rfl, ?_⟩)⟩
      rintro ⟨hrule, hsome⟩
      rw [h rfl hrule] at hsome
      contradiction

end

end Agree

/-- What is shown is what is guarded, if and only if the tenant's own rule agrees. -/
theorem shownIsGuarded_iff {s : Cluster} {tenant vpcName tenantSubnet transitSubnet : String}
    (h : "" ∉ s.rules) : ShownIsGuarded s tenant vpcName tenantSubnet transitSubnet ↔
      OwnAgrees s tenant vpcName tenantSubnet transitSubnet := by
  have hsorted : ((rulesCovering s vpcName tenantSubnet "").1.filter
      (·.subnet = transitSubnet)).Pairwise (·.name < ·.name) :=
    (sorted_covering.filter _).filter _
  have hothers :=
    @filter_rulesCovering s vpcName tenantSubnet transitSubnet (snatName tenant) h
  rw [OwnAgrees, ownAddress_eq]
  cases hall : (rulesCovering s vpcName tenantSubnet "").1.filter (·.subnet = transitSubnet) with
  | nil =>
    rw [hall, filter_nil] at hothers
    rw [shownIsGuarded_of_nil hothers hall]
    rw [hothers]
    cases (rulesCovering s vpcName tenantSubnet (snatName tenant)).1 with
    | nil => simp [eq_comm]
    | cons first candidates => simp
  | cons first onTransit =>
    rw [hall] at hsorted hothers
    rw [pairwise_cons] at hsorted
    by_cases hname : first.name = snatName tenant
    · have hrest : onTransit.filter (·.name ≠ snatName tenant) = onTransit := by
        rw [filter_eq_self]
        intro c hc
        have hlt := hsorted.1 c hc
        rw [hname] at hlt
        exact decide_eq_true hlt.ne'
      rw [filter_cons_of_neg (by simpa using hname), hrest] at hothers
      rw [List.find?_cons_of_pos (by simpa using hname)]
      cases onTransit with
      | nil =>
        rw [shownIsGuarded_of_own hothers hall hname]
        have hrule : snatName tenant ∈ s.rules := by
          rw [← hname]
          have hfirst : first ∈ (rulesCovering s vpcName tenantSubnet "").1 :=
            mem_of_mem_filter (hall ▸ mem_cons_self)
          exact mem_rules_of_mem hfirst
        rw [hothers]
        cases (rulesCovering s vpcName tenantSubnet (snatName tenant)).1 with
        | nil => simp [hrule, eq_comm]
        | cons other candidates => simp
      | cons winner onTransit =>
        have hlt : snatName tenant < winner.name := hname ▸ hsorted.1 winner mem_cons_self
        rw [shownIsGuarded_of_winner hothers hall, hothers]
        simp [hlt]
    · rw [filter_cons_of_pos (by simpa using hname)] at hothers
      rw [shownIsGuarded_of_winner hothers hall, hothers,
        List.find?_cons_of_neg (by simpa using hname)]
      -- the own rule comes after the winner, if it is on the plane at all
      refine iff_of_true rfl fun address hown hlt => ?_
      obtain ⟨own, hfind, -⟩ := map_eq_some_iff.mp hown
      have hafter := hsorted.1 own (mem_of_find?_eq_some hfind)
      have hown := List.find?_some hfind
      have hsame : own.name = snatName tenant := of_decide_eq_true hown
      exact absurd hlt (hsame ▸ hafter).not_gt

/-- The tenant's own rule, and another on the plane. -/
def contested (own other : String) : Cluster where
  rules := (AList.singleton "snat-t1" { value := ⟨[], "t1", "t1-default", "eip-t1"⟩ }).insert
    "cpt-snat-a" { value := ⟨labels "a", "t1", "t1-default", "cpt-eip-a"⟩ }
  eips := (AList.singleton "eip-t1" { value := ⟨[], "transit", "nat", other⟩ }).insert
    "cpt-eip-a" { value := ⟨labels "a", "transit", "nat", own⟩ }

/-- Nothing has been given to the own EIP yet. -/
theorem shownIsGuarded_iff_contested :
    ShownIsGuarded (contested "" "10.199.1.5") "a" "t1" "t1-default" "transit" := by
  refine (shownIsGuarded_iff (by decide +kernel)).mpr ?_
  have hothers : (rulesCovering (contested "" "10.199.1.5") "t1" "t1-default" (snatName "a")).1 =
      [⟨"snat-t1", [], "eip-t1", "10.199.1.5", "transit", false⟩] := by decide +kernel
  have hown : ownAddress (contested "" "10.199.1.5") "a" "t1" "t1-default" "transit" = none := by
    decide +kernel
  rw [OwnAgrees, hothers, hown]
  exact fun address h => absurd h.symm (some_ne_none address)

/-- The own rule comes first in what is shown, and is passed over in what is guarded. -/
theorem not_shownIsGuarded : ¬∀ (s : Cluster) (tenant vpcName tenantSubnet transitSubnet : String),
    "" ∉ s.rules → ShownIsGuarded s tenant vpcName tenantSubnet transitSubnet := by
  intro hall
  obtain ⟨hsame, -⟩ := hall (contested "10.199.1.20" "10.199.1.5") "a" "t1" "t1-default" "transit"
    (by decide +kernel)
  obtain ⟨t, ht⟩ := hsame "10.199.1.20" (by decide +kernel)
  have hreturned : (ensureTenantSnat (contested "10.199.1.20" "10.199.1.5") "a" "t1" "t1-default"
      "transit").toOption.bind Prod.snd = some "10.199.1.5" := by decide +kernel
  rw [ht] at hreturned
  have haddress : "10.199.1.20" = "10.199.1.5" := some.inj hreturned
  exact absurd haddress (by decide)

end Snat.Backend
