import KubevirtUi.Library.Objects
import Mathlib.Data.List.Sort
import Mathlib.Data.String.Basic

/-!
# The SNAT slot of a tenant's subnet

Of the rules that claim a subnet, the first by name whose EIP is on the transit plane is kept,
and the others are dropped. The rule that is kept is deleted and made anew. The tenant's own
rule is passed over in this, and is made if there is no other with an address.

The rules that were not looked at stay: the tenant's own, and one that names no EIP. The rule
that is kept is there in the end only if nothing held its deletion back, since its name is
taken until then.
-/

namespace Snat

open List AList
open Option hiding mem_map map_map

abbrev Labels := List (String × String)

structure OvnSnatRule where
  labels : Labels
  vpc : String
  vpcSubnet : String
  ovnEip : String
  deriving DecidableEq

structure OvnEip where
  labels : Labels
  externalSubnet : String
  type : String
  v4Ip : String
  deriving DecidableEq

structure Cluster where
  rules : Objects OvnSnatRule
  eips : Objects OvnEip

/-- One rule claiming the slot. -/
structure SnatCandidate where
  name : String
  labels : Labels
  eipName : String
  address : String
  subnet : String
  deleting : Bool
  deriving DecidableEq

/-- What the rule comes to under its EIP: no address, where there is no such EIP. -/
def candidateOf (s : Cluster) (name : String) (rule : Object OvnSnatRule) : SnatCandidate :=
  let eip := s.eips.value? rule.value.ovnEip
  let external := (eip.map OvnEip.externalSubnet).getD ""
  { name
    labels := rule.value.labels
    eipName := rule.value.ovnEip
    address := (eip.map OvnEip.v4Ip).getD ""
    subnet := if external ≠ "" then external else "<unknown>"
    deleting := rule.deleting }

/-- All rules, in the order of their names. -/
def sortedRules (s : Cluster) : List (String × Object OvnSnatRule) :=
  (s.rules.entries.map fun entry => (entry.1, entry.2)).insertionSort fun a b => a.1 ≤ b.1

/-- The rules that claim the subnet and name an EIP, but for one. -/
def covering (s : Cluster) (vpcName tenantSubnet skip : String) : List SnatCandidate :=
  ((sortedRules s).filter fun (name, rule) => name ≠ skip && rule.value.vpc = vpcName &&
    rule.value.vpcSubnet = tenantSubnet && rule.value.ovnEip ≠ "").map
      fun (name, rule) => candidateOf s name rule

/-- Those with an address, and those without. -/
def snatRulesCovering (s : Cluster) (vpcName tenantSubnet skip : String) :
    List SnatCandidate × List SnatCandidate :=
  ((covering s vpcName tenantSubnet skip).filter (·.address ≠ ""),
    (covering s vpcName tenantSubnet skip).filter (·.address = ""))

def createSNATRule (s : Cluster) (name : String) (labels : Labels)
    (eipName vpcName tenantSubnet : String) : Cluster :=
  { s with rules := s.rules.create name ⟨labels, vpcName, tenantSubnet, eipName⟩ }

/-- Only a rule that is being deleted and whose EIP is gone is let go. -/
def unwedgeIfTerminating (s : Cluster) (loser : SnatCandidate) : Cluster :=
  if loser.deleting = false then s
  else if loser.eipName ∈ s.eips then s
  else { s with rules := s.rules.release loser.name }

def dropLosingRule (keepEIP : String) (s : Cluster) (loser : SnatCandidate) : Cluster :=
  let s := unwedgeIfTerminating { s with rules := s.rules.delete loser.name } loser
  if loser.eipName ≠ "" ∧ loser.eipName ≠ keepEIP then
    { s with eips := s.eips.delete loser.eipName }
  else s

/-- An EIP of the tenant and a rule for it. -/
def createTenantSNAT (s : Cluster) (tenant network eipName ruleName tenantSubnet transitSubnet :
    String) : Cluster × String :=
  let labels := [("kubevirt-ui.io/managed", "true"), ("kubevirt-ui.io/tenant", tenant)]
  let eipLabels := ("kubevirt-ui.io/vpc", network) :: labels
  let s := { s with eips := s.eips.create eipName ⟨eipLabels, transitSubnet, "nat", ""⟩ }
  let s := createSNATRule s ruleName labels eipName network tenantSubnet
  (s, ((s.eips.value? eipName).map OvnEip.v4Ip).getD "")

/-- The slot is held on another network. Nothing in the names is escaped in quotes. -/
def conflictText (tenantSubnet : String) (first : SnatCandidate) : String :=
  "the SNAT slot for " ++ tenantSubnet ++ " is held by \"" ++ first.name ++ "\" → " ++
    first.address ++ " on subnet \"" ++ first.subnet ++ "\", which is " ++
    "not the control-plane transit network. Remove that rule, and " ++
    "the VPC's NAT gateway that created it, before attaching a " ++ "tenant."

/-- What is left, the address, and a conflict to report. -/
def ensureTenantSNAT (s : Cluster) (tenant network transitSubnet : String) :
    Cluster × String × String :=
  let tenantSubnet := network ++ "-default"
  let ours := "cpt-snat-" ++ tenant
  let eipName := "cpt-eip-" ++ tenant
  let (candidates, dangling) := snatRulesCovering s network tenantSubnet ours
  let onTransit := candidates.filter (·.subnet = transitSubnet)
  let elsewhere := candidates.filter (·.subnet ≠ transitSubnet)
  match onTransit, elsewhere with
  | [], first :: _ => (s, "", conflictText tenantSubnet first)
  | [], [] =>
    let (s, address) :=
      createTenantSNAT s tenant network eipName ours tenantSubnet transitSubnet
    (s, address, "")
  | winner :: onTransit, elsewhere =>
    let s := (onTransit ++ elsewhere ++ dangling).foldl (dropLosingRule winner.eipName) s
    let s := { s with rules := s.rules.delete winner.name }
    let s := createSNATRule s winner.name winner.labels winner.eipName network tenantSubnet
    (s, winner.address, "")

/-- The rule claims the subnet and is not being deleted. -/
def Claims (s : Cluster) (vpcName tenantSubnet name : String) (rule : OvnSnatRule) : Prop :=
  s.rules.live name = some rule ∧ rule.vpc = vpcName ∧ rule.vpcSubnet = tenantSubnet

/-- The EIP of the rule holds the address. -/
def Holds (s : Cluster) (rule : OvnSnatRule) (address : String) : Prop :=
  rule.ovnEip ≠ "" ∧ ∃ eip, s.eips.value? rule.ovnEip = some eip ∧ eip.v4Ip = address

/-- One rule claims the subnet, and its EIP holds the address. -/
def OneHolding (s : Cluster) (vpcName tenantSubnet address : String) : Prop :=
  ∃ name rule, Claims s vpcName tenantSubnet name rule ∧ Holds s rule address ∧
    ∀ other rule', Claims s vpcName tenantSubnet other rule' → other = name

/-- The rule claims the subnet, and is not among those that are looked at. -/
def Unscanned (s : Cluster) (vpcName tenantSubnet ours name : String) (rule : OvnSnatRule) : Prop :=
  Claims s vpcName tenantSubnet name rule ∧ (name = ours ∨ rule.ovnEip = "")

/-- When one rule is left. Either the winner is not held back and nothing else was passed over,
or it is, and the one rule that was passed over has an EIP that stays and holds the winner's
address. Where nothing on the plane has an address, the tenant's own rule is the only one, and
if it is there already, its EIP holds what the tenant's own EIP holds. -/
def Settles (s : Cluster) (tenant network transitSubnet : String) : Prop :=
  let tenantSubnet := network ++ "-default"
  let ours := "cpt-snat-" ++ tenant
  let (candidates, dangling) := snatRulesCovering s network tenantSubnet ours
  match candidates.filter (·.subnet = transitSubnet) with
  | [] =>
    (∀ name rule, Claims s network tenantSubnet name rule → name = ours) ∧
      (ours ∈ s.rules → ∃ rule eip, Claims s network tenantSubnet ours rule ∧
        s.eips.value? ("cpt-eip-" ++ tenant) = some eip ∧ Holds s rule eip.v4Ip)
  | winner :: onTransit =>
    let losers := onTransit ++ candidates.filter (·.subnet ≠ transitSubnet) ++ dangling
    (s.rules.Unheld winner.name ∧
        ∀ name rule, ¬Unscanned s network tenantSubnet ours name rule) ∨
      (¬s.rules.Unheld winner.name ∧ ∃ name rule, Unscanned s network tenantSubnet ours name rule ∧
        (∀ other rule', Unscanned s network tenantSubnet ours other rule' → other = name) ∧
        Holds s rule winner.address ∧
        (rule.ovnEip = winner.eipName ∨ ¬s.eips.Unheld rule.ovnEip ∨
          ∀ loser ∈ losers, loser.eipName ≠ rule.ovnEip))

variable {candidate : SnatCandidate} {rule : OvnSnatRule}

section Covering

variable {s : Cluster} {vpcName tenantSubnet skip : String}

theorem mem_sortedRules {name : String} {rule : Object OvnSnatRule} :
    (name, rule) ∈ sortedRules s ↔ s.rules.lookup name = some rule := by
  rw [sortedRules, mem_insertionSort, mem_map, ← mem_def, mem_lookup_iff]
  constructor
  · rintro ⟨⟨other, rule'⟩, hmem, hsame⟩
    obtain ⟨rfl, rfl⟩ := Prod.mk.inj hsame
    exact hmem
  · exact fun hmem => ⟨⟨name, rule⟩, hmem, rfl⟩

theorem nodup_sortedRules : ((sortedRules s).map Prod.fst).Nodup := by
  rw [sortedRules, ((perm_insertionSort _ _).map Prod.fst).nodup_iff, map_map]
  exact s.rules.nodupKeys

theorem mem_covering : candidate ∈ covering s vpcName tenantSubnet skip ↔
      ∃ name rule, s.rules.lookup name = some rule ∧ name ≠ skip ∧ rule.value.vpc = vpcName ∧
        rule.value.vpcSubnet = tenantSubnet ∧ rule.value.ovnEip ≠ "" ∧
        candidateOf s name rule = candidate := by
  simp only [covering, mem_map, mem_filter, Prod.exists, Bool.and_eq_true,
    decide_eq_true_eq, mem_sortedRules, and_assoc]

theorem nodup_covering : ((covering s vpcName tenantSubnet skip).map SnatCandidate.name).Nodup := by
  rw [covering, map_map]
  exact nodup_sortedRules.sublist (filter_sublist.map Prod.fst)

theorem exists_mem_covering {name : String} (h : Claims s vpcName tenantSubnet name rule) :
    Unscanned s vpcName tenantSubnet skip name rule ∨
      name ∈ (covering s vpcName tenantSubnet skip).map SnatCandidate.name := by
  obtain ⟨hlive, hvpc, hsubnet⟩ := h
  by_cases hscanned : name = skip ∨ rule.ovnEip = ""
  · exact .inl ⟨⟨hlive, hvpc, hsubnet⟩, hscanned⟩
  · rw [not_or] at hscanned
    obtain ⟨x, hx, hvalue⟩ := bind_eq_some_iff.mp hlive
    split at hvalue
    · contradiction
    · obtain rfl := some.inj hvalue
      refine .inr (mem_map.mpr ⟨candidateOf s name x, mem_covering.mpr ?_, rfl⟩)
      exact ⟨name, x, hx, hscanned.1, hvpc, hsubnet, hscanned.2, rfl⟩

theorem not_mem_covering {name : String} (h : Unscanned s vpcName tenantSubnet skip name rule) :
    name ∉ (covering s vpcName tenantSubnet skip).map SnatCandidate.name := by
  intro hmem
  obtain ⟨candidate, hcandidate, rfl⟩ := mem_map.mp hmem
  obtain ⟨name, x, hx, hskip, -, -, heip, rfl⟩ := mem_covering.mp hcandidate
  obtain ⟨⟨hlive, -, -⟩, hpassed⟩ := h
  rw [candidateOf] at hlive hpassed
  rw [Objects.live_of_lookup hx] at hlive
  split at hlive
  · contradiction
  · obtain rfl := some.inj hlive
    exact hpassed.elim hskip heip

/-- A rule with the EIP of one that has an address holds that address. -/
theorem holds_of_mem_covering (h : candidate ∈ covering s vpcName tenantSubnet skip)
    (hne : candidate.address ≠ "") (labels : Labels) (vpc vpcSubnet : String) :
    Holds s ⟨labels, vpc, vpcSubnet, candidate.eipName⟩ candidate.address := by
  obtain ⟨name, rule, -, -, -, -, heip, rfl⟩ := mem_covering.mp h
  refine ⟨heip, ?_⟩
  dsimp only [candidateOf] at hne ⊢
  cases hvalue : s.eips.value? rule.value.ovnEip with
  | none =>
    rw [hvalue] at hne
    exact absurd rfl hne
  | some eip => exact ⟨eip, rfl, rfl⟩

end Covering

section Drop

variable {s : Cluster} {keepEIP : String} {loser : SnatCandidate} {losers : List SnatCandidate}
variable {name : String}

theorem live_dropLosingRule : (dropLosingRule keepEIP s loser).rules.live name =
    if name = loser.name then none else s.rules.live name := by
  have hunwedge :
      (unwedgeIfTerminating { s with rules := s.rules.delete loser.name } loser).rules.live name =
        (s.rules.delete loser.name).live name := by
    rw [unwedgeIfTerminating]
    split
    · rfl
    · split
      · rfl
      · exact Objects.live_release Objects.live_delete_self
  rw [← Objects.live_delete, ← hunwedge, dropLosingRule]
  split <;> rfl

theorem lookup_dropLosingRule (h : name ≠ loser.name) :
    (dropLosingRule keepEIP s loser).rules.lookup name = s.rules.lookup name := by
  have hunwedge : (unwedgeIfTerminating { s with rules := s.rules.delete loser.name }
      loser).rules.lookup name = s.rules.lookup name := by
    rw [unwedgeIfTerminating]
    split
    · exact Objects.lookup_delete_ne h
    · split
      · exact Objects.lookup_delete_ne h
      · exact (Objects.lookup_release_ne h).trans (Objects.lookup_delete_ne h)
  rw [← hunwedge, dropLosingRule]
  split <;> rfl

theorem eips_dropLosingRule : (dropLosingRule keepEIP s loser).eips =
    if loser.eipName ≠ "" ∧ loser.eipName ≠ keepEIP then s.eips.delete loser.eipName
    else s.eips := by
  have hunwedge : (unwedgeIfTerminating { s with rules := s.rules.delete loser.name } loser).eips =
      s.eips := by
    rw [unwedgeIfTerminating]
    split
    · rfl
    · split <;> rfl
  rw [dropLosingRule]
  split
  · exact congrArg (Objects.delete · loser.eipName) hunwedge
  · exact hunwedge

theorem live_foldl_dropLosingRule : (losers.foldl (dropLosingRule keepEIP) s).rules.live name =
    if name ∈ losers.map SnatCandidate.name then none else s.rules.live name := by
  induction losers generalizing s with
  | nil => rfl
  | cons loser losers ih =>
    rw [foldl_cons, ih, live_dropLosingRule]
    by_cases hname : name = loser.name
    · simp [hname]
    · simp [hname]

theorem lookup_foldl_dropLosingRule (h : name ∉ losers.map SnatCandidate.name) :
    (losers.foldl (dropLosingRule keepEIP) s).rules.lookup name = s.rules.lookup name := by
  induction losers generalizing s with
  | nil => rfl
  | cons loser losers ih =>
    rw [map_cons, mem_cons, not_or] at h
    rw [foldl_cons, ih h.2, lookup_dropLosingRule h.1]

theorem eips_foldl_dropLosingRule : (losers.foldl (dropLosingRule keepEIP) s).eips =
    ((losers.map SnatCandidate.eipName).filter fun eip => eip ≠ "" ∧ eip ≠ keepEIP).foldl
      Objects.delete s.eips := by
  induction losers generalizing s with
  | nil => rfl
  | cons loser losers ih =>
    rw [foldl_cons, ih, eips_dropLosingRule, map_cons]
    split
    · next h => rw [filter_cons_of_pos (by simpa using h), foldl_cons]
    · next h => rw [filter_cons_of_neg (by simpa using h)]

/-- An EIP stays if it is the one that is kept, or none of the losers', or held back. -/
theorem value?_foldl_dropLosingRule {eip : String} (hne : eip ≠ "") :
    (losers.foldl (dropLosingRule keepEIP) s).eips.value? eip =
      if eip = keepEIP ∨ ¬s.eips.Unheld eip ∨ ∀ loser ∈ losers, loser.eipName ≠ eip then
        s.eips.value? eip
      else none := by
  rw [eips_foldl_dropLosingRule, Objects.value?_foldl_delete]
  have hmem : eip ∈ (losers.map SnatCandidate.eipName).filter
      (fun eip => eip ≠ "" ∧ eip ≠ keepEIP) ↔
      (∃ loser ∈ losers, loser.eipName = eip) ∧ eip ≠ keepEIP := by
    simp [hne]
  by_cases hall : eip = keepEIP ∨ ¬s.eips.Unheld eip ∨ ∀ loser ∈ losers, loser.eipName ≠ eip
  · rw [if_pos hall, if_neg]
    rw [hmem]
    rintro ⟨⟨⟨loser, hloser, heq⟩, hkeep⟩, hunheld⟩
    exact hall.elim hkeep fun h => h.elim (fun h => h hunheld) fun h => h loser hloser heq
  · rw [if_neg hall, if_pos]
    rw [hmem]
    simp only [not_or, not_not, not_forall, exists_prop] at hall
    exact ⟨⟨hall.2.2, hall.1⟩, hall.2.1⟩

end Drop

section Kept

variable {s : Cluster} {vpcName tenantSubnet ours : String}
variable {winner : SnatCandidate} {losers : List SnatCandidate}

/-- Drop the losers, and make the winner anew. -/
def keepWinner (s : Cluster) (winner : SnatCandidate) (losers : List SnatCandidate)
    (vpcName tenantSubnet : String) : Cluster :=
  let s := losers.foldl (dropLosingRule winner.eipName) s
  createSNATRule { s with rules := s.rules.delete winner.name } winner.name winner.labels
    winner.eipName vpcName tenantSubnet

/-- What claims the subnet in the end is the winner, if it could be made, and what was passed
over. -/
theorem claims_keepWinner (hperm : (winner :: losers).Perm (covering s vpcName tenantSubnet ours))
    {name : String} :
    Claims (keepWinner s winner losers vpcName tenantSubnet) vpcName tenantSubnet name rule ↔
      (name = winner.name ∧ s.rules.Unheld winner.name ∧
          rule = ⟨winner.labels, vpcName, tenantSubnet, winner.eipName⟩) ∨
        Unscanned s vpcName tenantSubnet ours name rule := by
  have hnames := (hperm.map SnatCandidate.name)
  have hnodup := hnames.nodup_iff.mpr nodup_covering
  rw [map_cons, nodup_cons] at hnodup
  have hunheld : winner.name ∈ ((losers.foldl (dropLosingRule winner.eipName) s).rules.delete
      winner.name) ↔ ¬s.rules.Unheld winner.name := by
    rw [Objects.mem_delete_self, Objects.unheld_congr (lookup_foldl_dropLosingRule hnodup.1)]
  have hlive : (keepWinner s winner losers vpcName tenantSubnet).rules.live name =
      if name = winner.name ∧ s.rules.Unheld winner.name then
        some ⟨winner.labels, vpcName, tenantSubnet, winner.eipName⟩
      else if name ∈ (winner :: losers).map SnatCandidate.name then none
      else s.rules.live name := by
    rw [keepWinner, createSNATRule]
    simp only [Objects.live_create, hunheld, not_not, Objects.live_delete,
      live_foldl_dropLosingRule, map_cons, mem_cons]
    by_cases hname : name = winner.name
    · simp [hname]
    · simp [hname]
  constructor
  · rintro ⟨hrule, hvpc, hsubnet⟩
    rw [hlive] at hrule
    split at hrule
    · next hwinner => exact .inl ⟨hwinner.1, hwinner.2, (some.inj hrule).symm⟩
    · split at hrule
      · contradiction
      · next hnot =>
        refine .inr ((exists_mem_covering ⟨hrule, hvpc, hsubnet⟩).resolve_right fun hmem => ?_)
        exact hnot (hnames.mem_iff.mpr hmem)
  · rintro (⟨rfl, hheld, rfl⟩ | hpassed)
    · exact ⟨by rw [hlive, if_pos ⟨rfl, hheld⟩], rfl, rfl⟩
    · have hnot := fun h => not_mem_covering hpassed (hnames.mem_iff.mp h)
      refine ⟨?_, hpassed.1.2⟩
      rw [hlive, if_neg, if_neg hnot, hpassed.1.1]
      rintro ⟨rfl, -⟩
      exact hnot mem_cons_self

theorem holds_keepWinner {address : String} :
    Holds (keepWinner s winner losers vpcName tenantSubnet) rule address ↔
      Holds s rule address ∧ (rule.ovnEip = winner.eipName ∨ ¬s.eips.Unheld rule.ovnEip ∨
        ∀ loser ∈ losers, loser.eipName ≠ rule.ovnEip) := by
  have hvalue (hne : rule.ovnEip ≠ "") :
      (keepWinner s winner losers vpcName tenantSubnet).eips.value? rule.ovnEip = _ :=
    @value?_foldl_dropLosingRule s winner.eipName losers _ hne
  constructor
  · rintro ⟨hne, eip, heip, haddress⟩
    rw [hvalue hne] at heip
    split at heip
    · next h => exact ⟨⟨hne, eip, heip, haddress⟩, h⟩
    · contradiction
  · rintro ⟨⟨hne, eip, heip, haddress⟩, h⟩
    exact ⟨hne, eip, by rw [hvalue hne, if_pos h, heip], haddress⟩

/-- One rule is left if the winner could be made and nothing was passed over, or the other way
round. -/
theorem oneHolding_keepWinner
    (hperm : (winner :: losers).Perm (covering s vpcName tenantSubnet ours))
    (haddress : winner.address ≠ "") :
    OneHolding (keepWinner s winner losers vpcName tenantSubnet) vpcName tenantSubnet
        winner.address ↔
      (s.rules.Unheld winner.name ∧
          ∀ name rule, ¬Unscanned s vpcName tenantSubnet ours name rule) ∨
        (¬s.rules.Unheld winner.name ∧ ∃ name rule,
          Unscanned s vpcName tenantSubnet ours name rule ∧
          (∀ other rule', Unscanned s vpcName tenantSubnet ours other rule' → other = name) ∧
          Holds s rule winner.address ∧
          (rule.ovnEip = winner.eipName ∨ ¬s.eips.Unheld rule.ovnEip ∨
            ∀ loser ∈ losers, loser.eipName ≠ rule.ovnEip)) := by
  have hmem : winner ∈ covering s vpcName tenantSubnet ours := hperm.mem_iff.mp mem_cons_self
  have hother {name : String} {rule : OvnSnatRule}
      (h : Unscanned s vpcName tenantSubnet ours name rule) : name ≠ winner.name := by
    rintro rfl
    exact not_mem_covering h (mem_map_of_mem hmem)
  simp only [OneHolding, claims_keepWinner hperm, holds_keepWinner]
  by_cases hheld : s.rules.Unheld winner.name
  · constructor
    · rintro ⟨name, rule, -, -, hunique⟩
      have hname := hunique winner.name _ (.inl ⟨rfl, hheld, rfl⟩)
      refine .inl ⟨hheld, fun other rule' hpassed => hother hpassed ?_⟩
      rw [hname, hunique other rule' (.inr hpassed)]
    · rintro (⟨-, hnone⟩ | ⟨hnot, -⟩)
      · refine ⟨winner.name, _, .inl ⟨rfl, hheld, rfl⟩, ⟨holds_of_mem_covering hmem haddress _ _ _,
          .inl rfl⟩, fun other rule' h => ?_⟩
        exact h.elim (fun h => h.1) fun h => absurd h (hnone other rule')
      · exact absurd hheld hnot
  · constructor
    · rintro ⟨name, rule, hclaims, hholds, hunique⟩
      exact .inr ⟨hheld, name, rule, hclaims.resolve_left fun h => hheld h.2.1,
        fun other rule' h => hunique other rule' (.inr h), hholds.1, hholds.2⟩
    · rintro (⟨h, -⟩ | ⟨-, name, rule, hpassed, hunique, hholds⟩)
      · exact absurd h hheld
      · exact ⟨name, rule, .inr hpassed, hholds, fun other rule' h =>
          h.elim (fun h => absurd h.2.1 hheld) (hunique other rule')⟩

end Kept

section Created

variable {s : Cluster} {tenant network eipName ours tenantSubnet transitSubnet address : String}
variable {eip : OvnEip}

theorem exists_candidate {name : String} (h : Claims s network tenantSubnet name rule)
    (hours : name ≠ ours) (hholds : Holds s rule address) :
    ∃ candidate ∈ covering s network tenantSubnet ours, candidate.address = address := by
  obtain ⟨hlive, hvpc, hsubnet⟩ := h
  obtain ⟨hne, eip, heip, haddress⟩ := hholds
  obtain ⟨x, hx, hvalue⟩ := bind_eq_some_iff.mp hlive
  split at hvalue
  · contradiction
  · obtain rfl := some.inj hvalue
    refine ⟨candidateOf s name x,
      mem_covering.mpr ⟨name, x, hx, hours, hvpc, hsubnet, hne, rfl⟩, ?_⟩
    rw [candidateOf, heip, map_some, getD_some, haddress]

/-- The address that is returned is that of an EIP that was there before. -/
theorem value?_of_createTenantSNAT
    (h : (createTenantSNAT s tenant network eipName ours tenantSubnet transitSubnet).2 = address)
    (hne : address ≠ "") : ∃ eip, s.eips.value? eipName = some eip ∧ eip.v4Ip = address ∧
      (createTenantSNAT s tenant network eipName ours tenantSubnet transitSubnet).1.eips =
        s.eips := by
  by_cases hmem : eipName ∈ s.eips
  · have heips : (createTenantSNAT s tenant network eipName ours tenantSubnet
        transitSubnet).1.eips = s.eips := by
      rw [createTenantSNAT]
      exact if_pos hmem
    cases hvalue : s.eips.value? eipName with
    | none =>
      rw [Objects.value?, map_eq_none_iff, lookup_eq_none] at hvalue
      exact absurd hmem hvalue
    | some eip =>
      refine ⟨eip, rfl, ?_, heips⟩
      change (((createTenantSNAT s tenant network eipName ours tenantSubnet
        transitSubnet).1.eips.value? eipName).map OvnEip.v4Ip).getD "" = address at h
      rw [heips, hvalue] at h
      exact h
  · have hcreate (value : OvnEip) : (s.eips.create eipName value).value? eipName = some value := by
      rw [Objects.create, if_neg hmem, Objects.value?, lookup_insert, map_some]
    rw [createTenantSNAT, createSNATRule] at h
    simp only [hcreate, map_some, getD_some] at h
    exact absurd h.symm hne

theorem claims_createTenantSNAT {name : String} :
    Claims (createTenantSNAT s tenant network eipName ours tenantSubnet transitSubnet).1 network
        tenantSubnet name rule ↔
      (name = ours ∧ ours ∉ s.rules ∧ rule =
          ⟨[("kubevirt-ui.io/managed", "true"), ("kubevirt-ui.io/tenant", tenant)], network,
            tenantSubnet, eipName⟩) ∨
        Claims s network tenantSubnet name rule := by
  have hlive : (createTenantSNAT s tenant network eipName ours tenantSubnet
      transitSubnet).1.rules.live name = if name = ours ∧ ours ∉ s.rules then
        some ⟨[("kubevirt-ui.io/managed", "true"), ("kubevirt-ui.io/tenant", tenant)], network,
          tenantSubnet, eipName⟩ else s.rules.live name := Objects.live_create
  constructor
  · rintro ⟨hrule, hvpc, hsubnet⟩
    rw [hlive] at hrule
    split at hrule
    · next hnew => exact .inl ⟨hnew.1, hnew.2, (some.inj hrule).symm⟩
    · exact .inr ⟨hrule, hvpc, hsubnet⟩
  · rintro (⟨rfl, hnew, rfl⟩ | ⟨hrule, hvpc, hsubnet⟩)
    · exact ⟨by rw [hlive, if_pos ⟨rfl, hnew⟩], rfl, rfl⟩
    · refine ⟨?_, hvpc, hsubnet⟩
      rw [hlive, if_neg, hrule]
      rintro ⟨rfl, hnew⟩
      rw [Objects.live_of_lookup_none (lookup_eq_none.mpr hnew)] at hrule
      contradiction

/-- Where nothing that is looked at has an address, the tenant's own rule must be the only
one. -/
theorem oneHolding_createTenantSNAT
    (hnone : ∀ candidate ∈ covering s network tenantSubnet ours, candidate.address = "")
    (h : (createTenantSNAT s tenant network eipName ours tenantSubnet transitSubnet).2 = address)
    (hne : address ≠ "") (heipName : eipName ≠ "") :
    OneHolding (createTenantSNAT s tenant network eipName ours tenantSubnet transitSubnet).1 network
        tenantSubnet address ↔
      (∀ name rule, Claims s network tenantSubnet name rule → name = ours) ∧
        (ours ∈ s.rules → ∃ rule eip, Claims s network tenantSubnet ours rule ∧
          s.eips.value? eipName = some eip ∧ Holds s rule eip.v4Ip) := by
  obtain ⟨eip, heip, rfl, heips⟩ := value?_of_createTenantSNAT h hne
  have hholds {rule : OvnSnatRule} : Holds (createTenantSNAT s tenant network eipName ours
      tenantSubnet transitSubnet).1 rule eip.v4Ip ↔ Holds s rule eip.v4Ip := by
    rw [Holds, Holds, heips]
  have hown {name : String} {rule : OvnSnatRule} (hclaims : Claims s network tenantSubnet name rule)
      (hrule : Holds s rule eip.v4Ip) : name = ours := by
    by_contra hours
    obtain ⟨candidate, hmem, haddress⟩ := exists_candidate hclaims hours hrule
    exact hne (haddress ▸ hnone candidate hmem)
  simp only [OneHolding, claims_createTenantSNAT, hholds]
  constructor
  · rintro ⟨name, rule, hclaims, hrule, hunique⟩
    have hname : name = ours := hclaims.elim (fun h => h.1) fun h => hown h hrule
    subst hname
    refine ⟨fun other rule' h => hunique other rule' (.inr h), fun hmem => ?_⟩
    exact ⟨rule, eip, hclaims.resolve_left fun h => h.2.1 hmem, heip, hrule⟩
  · rintro ⟨hunique, hthere⟩
    by_cases hmem : ours ∈ s.rules
    · obtain ⟨rule, eip', hclaims, heip', hrule⟩ := hthere hmem
      obtain rfl : eip = eip' := mem_unique heip heip'
      exact ⟨ours, rule, .inr hclaims, hrule, fun other rule' h =>
        h.elim (fun h => h.1) (hunique other rule')⟩
    · exact ⟨ours, _, .inl ⟨rfl, hmem, rfl⟩, ⟨heipName, eip, heip, rfl⟩, fun other rule' h =>
        h.elim (fun h => h.1) (hunique other rule')⟩

end Created

/-- An address is that of the winner, or of what has been made where there is none. -/
theorem ensureTenantSNAT_cases {s t : Cluster} {tenant network transitSubnet address : String}
    (h : ensureTenantSNAT s tenant network transitSubnet = (t, address, "")) (hne : address ≠ "") :
    ∃ candidates dangling,
      snatRulesCovering s network (network ++ "-default") ("cpt-snat-" ++ tenant) =
        (candidates, dangling) ∧
      ((candidates = [] ∧
          createTenantSNAT s tenant network ("cpt-eip-" ++ tenant) ("cpt-snat-" ++ tenant)
            (network ++ "-default") transitSubnet = (t, address)) ∨
        ∃ winner onTransit, candidates.filter (·.subnet = transitSubnet) = winner :: onTransit ∧
          t = keepWinner s winner
            (onTransit ++ candidates.filter (·.subnet ≠ transitSubnet) ++ dangling) network
              (network ++ "-default") ∧
          address = winner.address) := by
  generalize hcovering :
    snatRulesCovering s network (network ++ "-default") ("cpt-snat-" ++ tenant) = covering
  obtain ⟨candidates, dangling⟩ := covering
  refine ⟨candidates, dangling, rfl, ?_⟩
  rw [ensureTenantSNAT, hcovering] at h
  dsimp only at h
  split at h
  · have haddress := congrArg (fun result => result.2.1) h
    exact absurd haddress.symm hne
  · next hon helse =>
    refine .inl ⟨eq_nil_iff_forall_not_mem.mpr fun c hc => ?_, ?_⟩
    · rw [filter_eq_nil_iff] at hon helse
      by_cases hsubnet : c.subnet = transitSubnet
      · exact hon c hc (decide_eq_true hsubnet)
      · exact helse c hc (decide_eq_true hsubnet)
    · obtain ⟨hleft, hmade⟩ := Prod.mk.inj h
      exact Prod.ext hleft (Prod.mk.inj hmade).1
  · next winner onTransit hon =>
    refine .inr ⟨winner, onTransit, hon, (congrArg Prod.fst h).symm, ?_⟩
    exact (congrArg (fun result => result.2.1) h).symm

/-- Where an address is returned, one rule is left and its EIP holds the address, if and only if
the state settles. -/
theorem ensureTenantSNAT_oneHolding {s t : Cluster} {tenant network transitSubnet address : String}
    (h : ensureTenantSNAT s tenant network transitSubnet = (t, address, "")) (hne : address ≠ "") :
    OneHolding t network (network ++ "-default") address ↔
      Settles s tenant network transitSubnet := by
  obtain ⟨candidates, dangling, hcovering, hcases⟩ := ensureTenantSNAT_cases h hne
  obtain ⟨hfound, hdangling⟩ := Prod.mk.inj hcovering
  obtain ⟨rfl, hcreate⟩ | ⟨winner, onTransit, hon, rfl, rfl⟩ := hcases
  · have haddress : ∀ c ∈ covering s network (network ++ "-default") ("cpt-snat-" ++ tenant),
        c.address = "" := by
      simpa [filter_eq_nil_iff] using hfound
    have heipName : "cpt-eip-" ++ tenant ≠ "" := by simp
    have hone := oneHolding_createTenantSNAT haddress (congrArg Prod.snd hcreate) hne heipName
    rw [hcreate] at hone
    simp only [Settles, hcovering, hone, filter_nil]
  · have hperm : (winner :: (onTransit ++ candidates.filter (·.subnet ≠ transitSubnet) ++
        dangling)).Perm (covering s network (network ++ "-default") ("cpt-snat-" ++ tenant)) := by
      have hplanes :=
        filter_append_perm (fun c => decide (c.subnet = transitSubnet)) candidates
      have haddresses := filter_append_perm (fun c => decide (c.address = ""))
        (covering s network (network ++ "-default") ("cpt-snat-" ++ tenant))
      rw [hon] at hplanes
      simp only [← decide_not] at hplanes haddresses
      rw [hdangling] at haddresses
      refine ((hplanes.append_right dangling).trans ?_)
      refine perm_append_comm.trans ?_
      exact hfound ▸ haddresses
    simp only [Settles, hcovering, hon, oneHolding_keepWinner hperm hne]

/-- A VPC that came with a NAT gateway on the plane. -/
def inherited (finalizers : List String) : Cluster where
  rules := AList.singleton "snat-t1"
    { value := ⟨[], "t1", "t1-default", "eip-t1"⟩, finalizers }
  eips := AList.singleton "eip-t1" { value := ⟨[], "transit", "nat", "10.199.1.5"⟩ }

theorem ensureTenantSNAT_oneHolding_inherited :
    OneHolding (ensureTenantSNAT (inherited []) "a" "t1" "transit").1 "t1" "t1-default"
      "10.199.1.5" := by
  have hreturned : ensureTenantSNAT (inherited []) "a" "t1" "transit" =
      ((ensureTenantSNAT (inherited []) "a" "t1" "transit").1, "10.199.1.5", "") :=
    Prod.ext rfl (by decide +kernel)
  refine (ensureTenantSNAT_oneHolding hreturned (by decide)).mpr ?_
  have hwinner : (snatRulesCovering (inherited []) "t1" ("t1" ++ "-default") ("cpt-snat-" ++ "a")) =
      ([⟨"snat-t1", [], "eip-t1", "10.199.1.5", "transit", false⟩], []) := by decide +kernel
  simp only [Settles, hwinner]
  refine .inl ⟨by decide +kernel, ?_⟩
  rintro name rule ⟨⟨hlive, -, -⟩, hpassed⟩
  obtain ⟨x, hx, hvalue⟩ := bind_eq_some_iff.mp hlive
  have hname : name = "snat-t1" := by
    have hmem := lookup_isSome.mp (isSome_of_mem hx)
    simpa [inherited, AList.mem_keys] using hmem
  subst hname
  obtain rfl := some.inj hlive
  revert hpassed
  decide +kernel

/-- The winner's deletion is held back, its name is taken, and no rule is left. -/
theorem not_ensureTenantSNAT_oneHolding :
    ¬∀ (s t : Cluster) (tenant network transitSubnet address : String),
      ensureTenantSNAT s tenant network transitSubnet = (t, address, "") → address ≠ "" →
        OneHolding t network (network ++ "-default") address := by
  intro hall
  let result := ensureTenantSNAT (inherited ["kubeovn.io/kube-ovn-controller"]) "a" "t1" "transit"
  obtain ⟨name, rule, ⟨hlive, -, -⟩, -, -⟩ := hall (inherited ["kubeovn.io/kube-ovn-controller"])
    result.1 "a" "t1" "transit" "10.199.1.5" (Prod.ext rfl (by decide +kernel)) (by decide)
  obtain ⟨x, hx, -⟩ := bind_eq_some_iff.mp hlive
  have hkeys : result.1.rules.keys = ["snat-t1"] := by decide +kernel
  have hname : name = "snat-t1" := by
    have hmem := lookup_isSome.mp (isSome_of_mem hx)
    rw [AList.mem_keys, hkeys] at hmem
    exact mem_singleton.mp hmem
  have hnone : result.1.rules.live "snat-t1" = none := by decide +kernel
  rw [hname, hnone] at hlive
  contradiction

end Snat
