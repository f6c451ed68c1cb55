import KubevirtUi.Nics.Resolve

/-!
# No machine is put on another folder's network

Where each Vpc can be read, its labels decide, and a machine is never put on the network of
another folder. Where a Vpc cannot be read, the Subnet's copy of the labels stands in for them. It
has to let in no namespace that the Vpc keeps out; a copy that is missing lets in all of them.
-/

namespace Nics

open Option

/-- The namespace as it is asked for. -/
def targetOf (labels : Labels) : Target := ⟨label labels folderLabel, label labels environmentLabel⟩

/-- Labels that a namespace may use a network by. -/
def LetsIn (labels : Labels) (target : Target) : Prop :=
  label labels folderLabel = "" ∨ label labels folderLabel = target.folder ∧
    (label labels environmentLabel = "" ∨ label labels environmentLabel = target.environment)

instance (labels : Labels) (target : Target) : Decidable (LetsIn labels target) :=
  inferInstanceAs (Decidable (_ ∨ _))

/-- A subnet for machines: it is not one of kube-ovn's own, nor of the infrastructure. -/
structure ForMachines (name : String) (subnet : Subnet) : Prop where
  name : name ∉ systemSubnets
  vpc : subnet.vpc ≠ systemVPC
  purpose : label subnet.labels purposeLabel ≠ purposeInfrastructure

/-- A NIC where it may be. -/
structure Placed (cluster : Cluster) (target : Target) (idx : Nat) (subnet : Subnet)
    (nic : NetworkAttachment) : Prop where
  found : cluster.subnets nic.subnet = some subnet
  forMachines : ForMachines nic.subnet subnet
  vpc : subnet.vpc ≠ "" → ∀ labels ∈ cluster.vpcs subnet.vpc, LetsIn labels target
  first : isOverlay subnet = true → idx = 0

/-- Only these Vpcs may be unreadable. -/
def Reads.FailsOnly (reads : Reads) (cluster : Cluster) (unreadable : String → Prop)
    (nics : List NetworkAttachment) : Prop :=
  ∀ idx, ∀ nic ∈ nics[idx]?, ∀ subnet ∈ cluster.subnets nic.subnet,
    reads.vpc idx ≠ none → unreadable subnet.vpc

section Check

variable {net : Network} {target : Target}

theorem check_allowed_iff : (check net target).allowed = true ↔
    (net.name ∉ systemSubnets ∧ net.vpc ≠ systemVPC) ∧ net.purpose ≠ purposeInfrastructure ∧
      (net.vpc = "" ∨ net.folder = "" ∨ net.folder = target.folder ∧
        (net.environment = "" ∨ net.environment = target.environment)) := by
  rw [check]
  split
  · next hsystem => exact iff_of_false (by simp) fun h => hsystem.elim h.1.1 h.1.2
  · next hsystem =>
    rw [not_or] at hsystem
    rw [and_iff_right hsystem]
    split
    · next hpurpose => exact iff_of_false (by simp) fun h => h.1 hpurpose
    · next hpurpose =>
      rw [and_iff_right hpurpose]
      split
      · next hglobal => exact iff_of_true rfl (hglobal.imp_right .inl)
      · next hglobal =>
        rw [not_or] at hglobal
        rw [or_iff_right hglobal.1, or_iff_right hglobal.2]
        split
        · next hfolder => exact iff_of_false (by simp) fun h => hfolder h.1
        · next hfolder =>
          rw [and_iff_right (not_not.mp hfolder)]
          split
          · next henvironment =>
            refine iff_of_false (by simp) fun h => ?_
            exact h.elim henvironment.1 henvironment.2
          · next henvironment =>
            refine iff_of_true rfl ?_
            by_cases hnone : net.environment = ""
            · exact .inl hnone
            · exact .inr (not_not.mp fun hne => henvironment ⟨hnone, hne⟩)

end Check

section Resolve

variable {namespaces : List String} {cluster : Cluster} {reads : Reads} {target : Target}
  {idx : Nat} {nic : NetworkAttachment} {nics : List NetworkAttachment} {input resolved : Input}
  {subnet : Subnet} {failure : Option ReadError}

theorem answer_eq_ok_iff {α : Type} {resource name : String} {object : Option α} {x : α} :
    answer failure resource name object = .ok x ↔ failure = none ∧ object = some x := by
  cases failure with
  | some e => simp [answer]
  | none =>
    cases object with
    | some y => simp [answer]
    | none => simp [answer]

/-- The labels that are asked: those of the Vpc if it can be read. -/
def seen (cluster : Cluster) (failure : Option ReadError) (subnet : Subnet) : Labels :=
  if failure = none then (cluster.vpcs subnet.vpc).getD subnet.labels else subnet.labels

theorem networkScope_eq (hvpc : subnet.vpc ≠ "") (hsystem : subnet.vpc ≠ systemVPC) :
    networkScope cluster failure subnet nic.subnet =
      ⟨nic.subnet, subnet.vpc, subnet.vlan, label (seen cluster failure subnet) folderLabel,
        label (seen cluster failure subnet) environmentLabel,
        label subnet.labels purposeLabel⟩ := by
  rw [networkScope, if_neg (not_or.mpr ⟨hvpc, hsystem⟩), seen]
  cases failure with
  | some e => rfl
  | none => cases cluster.vpcs subnet.vpc <;> rfl

theorem scope_allowed_iff :
    (check (networkScope cluster failure subnet nic.subnet) target).allowed = true ↔
      ForMachines nic.subnet subnet ∧
        (subnet.vpc ≠ "" → LetsIn (seen cluster failure subnet) target) := by
  rw [check_allowed_iff]
  by_cases hnone : subnet.vpc = "" ∨ subnet.vpc = systemVPC
  · rw [networkScope, if_pos hnone]
    dsimp only
    constructor
    · rintro ⟨⟨hname, hvpc⟩, hpurpose, -⟩
      exact ⟨⟨hname, hvpc, hpurpose⟩, fun hne => absurd hnone (not_or.mpr ⟨hne, hvpc⟩)⟩
    · rintro ⟨h, -⟩
      exact ⟨⟨h.name, h.vpc⟩, h.purpose, .inr (.inl rfl)⟩
  · obtain ⟨hvpc, hsystem⟩ := not_or.mp hnone
    rw [networkScope_eq hvpc hsystem]
    dsimp only
    rw [or_iff_right hvpc]
    constructor
    · rintro ⟨⟨hname, -⟩, hpurpose, hlets⟩
      exact ⟨⟨hname, hsystem, hpurpose⟩, fun _ => hlets⟩
    · rintro ⟨h, hlets⟩
      exact ⟨⟨h.name, hsystem⟩, h.purpose, hlets hvpc⟩

theorem of_resolveNetwork
    (h : resolveNetwork namespaces cluster reads target idx nic input = .ok resolved) :
    ∃ subnet, cluster.subnets nic.subnet = some subnet ∧ (isOverlay subnet = true → idx = 0) ∧
      ForMachines nic.subnet subnet ∧
      (subnet.vpc ≠ "" → LetsIn (seen cluster (reads.vpc idx) subnet) target) := by
  rw [resolveNetwork] at h
  split at h
  · contradiction
  · contradiction
  · next subnet hsubnet =>
    split at h
    · contradiction
    · next hoverlay =>
      dsimp only at h
      split at h
      · contradiction
      · next hallowed =>
        rw [not_not, scope_allowed_iff] at hallowed
        refine ⟨subnet, (answer_eq_ok_iff.mp hsubnet).2, fun htrue => ?_, hallowed⟩
        exact not_not.mp fun hidx => hoverlay ⟨htrue, hidx⟩

theorem exists_resolveNetwork (namespaces : List String) (input : Input)
    (hread : reads.subnet 0 = none)
    (hsubnet : cluster.subnets nic.subnet = some subnet) (hmachines : ForMachines nic.subnet subnet)
    (hlets : subnet.vpc ≠ "" → LetsIn (seen cluster (reads.vpc 0) subnet) target) :
    ∃ resolved, resolveNetwork namespaces cluster reads target 0 nic input = .ok resolved := by
  have hallowed := scope_allowed_iff.mpr ⟨hmachines, hlets⟩
  rw [resolveNetwork, hread, hsubnet]
  dsimp only [answer]
  rw [if_neg (fun h => h.2 rfl), if_neg (not_not_intro hallowed)]
  exact ⟨_, rfl⟩

theorem of_resolveFrom
    (h : resolveFrom namespaces cluster reads target idx nics input = .ok resolved) (k : Nat) :
    ∀ nic ∈ nics[k]?, ∃ subnet, cluster.subnets nic.subnet = some subnet ∧
      (isOverlay subnet = true → idx + k = 0) ∧ ForMachines nic.subnet subnet ∧
        (subnet.vpc ≠ "" → LetsIn (seen cluster (reads.vpc (idx + k)) subnet) target) := by
  induction nics generalizing idx input k with
  | nil => exact fun nic hnic => absurd hnic (by simp)
  | cons first nics ih =>
    rw [resolveFrom] at h
    cases hfirst : resolveNetwork namespaces cluster reads target idx first input with
    | error e =>
      rw [hfirst] at h
      contradiction
    | ok next =>
      rw [hfirst] at h
      cases k with
      | zero =>
        intro nic hnic
        obtain rfl := some.inj hnic
        exact of_resolveNetwork hfirst
      | succ k =>
        have hplace : idx + (k + 1) = idx + 1 + k := by omega
        rw [hplace]
        exact ih h k

end Resolve

/-- In a cluster where some Vpcs may be unreadable: accepted machines are where they may be, for
all namespaces, NICs and outcomes of the reads, exactly if each of these Vpcs lets in whatever
namespace the copy on one of its subnets does. -/
theorem placed_iff (namespaces : List String) (cluster : Cluster) (unreadable : String → Prop) :
    (∀ reads ns nics input resolved, reads.FailsOnly cluster unreadable nics →
      resolveNetworks namespaces cluster reads ns nics input = .ok resolved →
      ∀ idx, ∀ nic ∈ nics[idx]?, ∃ labels ∈ cluster.namespaces ns, ∃ subnet,
        Placed cluster (targetOf labels) idx subnet nic) ↔
    ∀ ns, ∀ labels ∈ cluster.namespaces ns, ∀ name, ∀ subnet ∈ cluster.subnets name,
      ForMachines name subnet → subnet.vpc ≠ "" → unreadable subnet.vpc →
      ∀ vpcLabels ∈ cluster.vpcs subnet.vpc, LetsIn subnet.labels (targetOf labels) →
        LetsIn vpcLabels (targetOf labels) := by
  constructor
  · intro h ns labels hns name subnet hsubnet hmachines hvpc hunreadable vpcLabels hvpcLabels hlets
    let nic : NetworkAttachment := ⟨name, ""⟩
    let reads : Reads := ⟨none, fun _ => none, fun _ => some (.other ""), fun _ _ => none⟩
    have honly : reads.FailsOnly cluster unreadable [nic] := by
      intro idx nic' hnic subnet' hsubnet' _
      obtain rfl := List.mem_singleton.mp (List.mem_of_getElem? hnic)
      obtain rfl := mem_unique hsubnet hsubnet'
      exact hunreadable
    have hseen : subnet.vpc ≠ "" →
        LetsIn (seen cluster (reads.vpc 0) subnet) (targetOf labels) := fun _ => hlets
    have hread : reads.subnet 0 = none := rfl
    have hfound : cluster.subnets nic.subnet = some subnet := hsubnet
    obtain ⟨resolved, hresolved⟩ :=
      exists_resolveNetwork namespaces ⟨[], ""⟩ hread hfound hmachines hseen
    have haccepted : resolveNetworks namespaces cluster reads ns [nic] ⟨[], ""⟩ = .ok resolved := by
      rw [resolveNetworks, if_neg (List.cons_ne_nil _ _), answer_eq_ok_iff.mpr ⟨rfl, hns⟩]
      change (resolveNetwork namespaces cluster reads (targetOf labels) 0 nic ⟨[], ""⟩).bind _ = _
      rw [hresolved]
      rfl
    obtain ⟨labels', hns', subnet', hplaced⟩ := h reads ns [nic] _ _ honly haccepted 0 nic rfl
    obtain rfl := mem_unique hns hns'
    obtain rfl := mem_unique hsubnet hplaced.found
    exact hplaced.vpc hvpc vpcLabels hvpcLabels
  · intro h reads ns nics input resolved honly haccepted idx nic hnic
    rw [resolveNetworks, if_neg (List.ne_nil_of_mem (List.mem_of_getElem? hnic))] at haccepted
    split at haccepted
    · contradiction
    · next labels hns =>
      have hlabels := (answer_eq_ok_iff.mp hns).2
      obtain ⟨subnet, hsubnet, hfirst, hmachines, hlets⟩ := of_resolveFrom haccepted idx nic hnic
      rw [Nat.zero_add] at hfirst hlets
      refine ⟨labels, hlabels, subnet, hsubnet, hmachines, fun hvpc vpcLabels hvpcLabels => ?_,
        hfirst⟩
      have hseen := hlets hvpc
      rw [seen] at hseen
      split at hseen
      · rw [mem_def.mp hvpcLabels, getD_some] at hseen
        exact hseen
      · next hfails =>
        have hunreadable := honly idx nic hnic subnet hsubnet hfails
        exact h ns labels hlabels nic.subnet subnet hsubnet hmachines hvpc hunreadable vpcLabels
          hvpcLabels hseen

/-- A Vpc of one folder, and a subnet of it that carries no copy of the label. -/
def unlabelled : Cluster where
  namespaces ns := if ns = "team-a" then some [(folderLabel, "a")] else none
  subnets name := if name = "net-b" then some ⟨[], "", "vpc-b", ""⟩ else none
  vpcs name := if name = "vpc-b" then some [(folderLabel, "b")] else none
  vpcDNS _ := none

/-- One failing read of the Vpc puts a machine of another folder on it. -/
theorem not_placed : ¬∀ (namespaces : List String) (cluster : Cluster) (reads : Reads) (ns : String)
    (nics : List NetworkAttachment) (input resolved : Input),
      resolveNetworks namespaces cluster reads ns nics input = .ok resolved →
      ∀ idx, ∀ nic ∈ nics[idx]?, ∃ labels ∈ cluster.namespaces ns, ∃ subnet,
        Placed cluster (targetOf labels) idx subnet nic := by
  intro h
  let reads : Reads :=
    ⟨none, fun _ => none, fun _ => some (.other "the server is currently unable"), fun _ _ => none⟩
  have haccepted : resolveNetworks ["kube-ovn"] unlabelled reads "team-a" [⟨"net-b", ""⟩] ⟨[], ""⟩ =
      .ok ⟨[⟨"net-b", "", true, ""⟩], ""⟩ := by
    rfl
  obtain ⟨labels, hlabels, subnet, hplaced⟩ := h _ _ _ _ _ _ _ haccepted 0 _ rfl
  obtain rfl : [(folderLabel, "a")] = labels := some.inj hlabels
  obtain rfl : (⟨[], "", "vpc-b", ""⟩ : Subnet) = subnet := some.inj hplaced.found
  have hlets := hplaced.vpc (by decide) [(folderLabel, "b")] rfl
  exact absurd hlets (by decide)

end Nics
