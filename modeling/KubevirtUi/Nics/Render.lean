import KubevirtUi.Nics.Resolve

/-!
# Rendered NICs

Resolved NICs are turned into networks, interfaces and annotations of a machine. A network is named
after a VLAN and the place of the NIC, or else it is the pod network. Of the annotations one names
static addresses.
-/

namespace Nics

open List

open Go (cutLast cutLast_append)

inductive NetworkSource where
  | pod
  | multus (networkName : String) (default_ : Bool)
  deriving DecidableEq

/-- A multus network that takes the place of the pod network. -/
def NetworkSource.isDefault : NetworkSource → Bool
  | .pod => false
  | .multus _ default_ => default_

structure VMNetwork where
  name : String
  source : NetworkSource
  deriving DecidableEq

inductive InterfaceBindingMethod where
  | bridge
  | masquerade
  deriving DecidableEq

structure Interface where
  name : String
  binding : InterfaceBindingMethod
  deriving DecidableEq

def logicalSwitchAnno : String := "ovn.kubernetes.io/logical_switch"

def ipAddressAnno : String := "ovn.kubernetes.io/ip_address"

def bridgeMigrationAnno : String := "kubevirt.io/allow-pod-bridge-network-live-migration"

def defaultPodNetwork : VMNetwork := ⟨"default", .pod⟩

/-- The network of one NIC. -/
def renderNetwork (namespace_ : String) (nic : ResolvedNetwork) (idx : Nat) : VMNetwork :=
  if nic.vlan ≠ "" then
    { name := if idx ≠ 0 then nic.vlan ++ "-" ++ toString idx else nic.vlan
      source := .multus (namespace_ ++ "/" ++ nic.vlan) (idx = 0) }
  else defaultPodNetwork

/-- The interface of one NIC. -/
def renderInterface (binding : String) (nic : ResolvedNetwork) (idx : Nat) : Interface :=
  if nic.vlan ≠ "" then
    { name := if idx ≠ 0 then nic.vlan ++ "-" ++ toString idx else nic.vlan
      binding := .bridge }
  else
    { name := "default"
      binding := if binding = "masquerade" then .masquerade else .bridge }

/-- What is rendered of the networks of a machine. -/
structure Rendered where
  networks : List VMNetwork
  interfaces : List Interface
  annotations : Labels
  needsDNS : Bool
  deriving DecidableEq

/-- Resolved NICs as networks, interfaces and the annotations that kube-ovn reads. -/
def renderNetworks (namespace_ binding : String) (nics : List ResolvedNetwork) : Rendered :=
  match nics with
  | [] => ⟨[defaultPodNetwork], [⟨"default", .masquerade⟩], [], false⟩
  | first :: _ =>
    let interfaces := nics.zipIdx.map fun nic => renderInterface binding nic.1 nic.2
    let staticIPs := (nics.map ResolvedNetwork.staticIP).filter (· ≠ "")
    { networks := nics.zipIdx.map fun nic => renderNetwork namespace_ nic.1 nic.2
      interfaces := interfaces
      annotations :=
        (if interfaces.any (·.binding = .bridge) then [(bridgeMigrationAnno, "true")] else []) ++
          [(logicalSwitchAnno, first.subnet)] ++
          if staticIPs ≠ [] then [(ipAddressAnno, ",".intercalate staticIPs)] else []
      needsDNS := nics.any fun nic => nic.vlan = "" ∧ nic.isVPCOverlay }

/-- Networks and interfaces go together by their names, one of them at most is the pod network,
one at most is the default, and the static address is the one of the first NIC. -/
structure Rendered.WellFormed (rendered : Rendered) (nics : List ResolvedNetwork) : Prop where
  names : rendered.networks.map VMNetwork.name = rendered.interfaces.map Interface.name
  nodup : (rendered.networks.map VMNetwork.name).Nodup
  pod : (rendered.networks.filter (·.source = .pod)).length ≤ 1
  default_ : (rendered.networks.filter (·.source.isDefault)).length ≤ 1
  address : rendered.annotations.lookup ipAddressAnno =
    (nics.head?.map ResolvedNetwork.staticIP).filter (· ≠ "")

/-- At most one NIC is on no VLAN; the VLAN of the first one has neither the name of the pod
network, if that is a later one's, nor the name of another one's VLAN with its place; and no later
one has a static address. -/
structure Tidy (nics : List ResolvedNetwork) : Prop where
  pod : (nics.filter (·.vlan = "")).length ≤ 1
  first : ∀ first ∈ nics[0]?, first.vlan ≠ "" → ∀ idx, ∀ nic ∈ nics[idx + 1]?,
    first.vlan ≠ if nic.vlan = "" then "default" else nic.vlan ++ "-" ++ toString (idx + 1)
  address : ∀ nic ∈ nics.tail, nic.staticIP = ""

/-- The name of a network. -/
def nameOf (nic : ResolvedNetwork) (idx : Nat) : String :=
  if nic.vlan = "" then "default"
  else if idx = 0 then nic.vlan
  else nic.vlan ++ "-" ++ toString idx

variable {namespace_ binding : String} {nics : List ResolvedNetwork}

section Names

variable {nic other : ResolvedNetwork} {idx i j : Nat}

theorem renderNetwork_name : (renderNetwork namespace_ nic idx).name = nameOf nic idx := by
  rw [renderNetwork, nameOf]
  by_cases hvlan : nic.vlan = ""
  · rw [if_neg (not_not_intro hvlan), if_pos hvlan]
    rfl
  · rw [if_pos hvlan, if_neg hvlan]
    by_cases hidx : idx = 0
    · rw [if_neg (not_not_intro hidx), if_pos hidx]
    · rw [if_pos hidx, if_neg hidx]

theorem renderInterface_name : (renderInterface binding nic idx).name = nameOf nic idx := by
  rw [renderInterface, nameOf]
  by_cases hvlan : nic.vlan = ""
  · rw [if_neg (not_not_intro hvlan), if_pos hvlan]
  · rw [if_pos hvlan, if_neg hvlan]
    by_cases hidx : idx = 0
    · rw [if_neg (not_not_intro hidx), if_pos hidx]
    · rw [if_pos hidx, if_neg hidx]

theorem nameOf_succ : nameOf nic (idx + 1) =
    if nic.vlan = "" then "default" else nic.vlan ++ "-" ++ toString (idx + 1) := by
  rw [nameOf, if_neg (Nat.succ_ne_zero idx)]

theorem toList_toString (n : Nat) : (toString n).toList = Nat.toDigits 10 n := by
  simp [toString, Nat.repr]

theorem cutLast_nameOf (hvlan : nic.vlan ≠ "") (hidx : idx ≠ 0) :
    cutLast '-' (nameOf nic idx).toList = some (nic.vlan.toList, (toString idx).toList) := by
  have hdigits : '-' ∉ (toString idx).toList := by
    intro hmem
    rw [toList_toString] at hmem
    exact absurd (Nat.isDigit_of_mem_toDigits (by omega) (by omega) hmem) (by decide)
  have htext : (nameOf nic idx).toList = nic.vlan.toList ++ '-' :: (toString idx).toList := by
    rw [nameOf, if_neg hvlan, if_neg hidx, String.toList_append, String.toList_append, append_assoc]
    rfl
  rw [htext, cutLast_append _ hdigits]

theorem cutLast_default : cutLast '-' "default".toList = none := by decide

/-- Two NICs get the same name if neither is on a VLAN, or if the first one of all happens to be
called what the other one is. -/
theorem nameOf_ne_iff (h : i < j) : nameOf nic i ≠ nameOf other j ↔
    ¬(nic.vlan = "" ∧ other.vlan = "") ∧ (i = 0 → nic.vlan ≠ "" → nic.vlan ≠ nameOf other j) := by
  have hj : j ≠ 0 := by omega
  by_cases hnic : nic.vlan = ""
  · by_cases hother : other.vlan = ""
    · rw [nameOf, nameOf, if_pos hnic, if_pos hother]
      exact iff_of_false (not_not_intro rfl) fun h => h.1 ⟨hnic, hother⟩
    · refine iff_of_true (fun heq => ?_) ⟨fun h => hother h.2, fun _ hne => absurd hnic hne⟩
      have hcut := cutLast_nameOf hother hj
      rw [← heq, nameOf, if_pos hnic, cutLast_default] at hcut
      contradiction
  · rw [and_iff_right fun h => hnic h.1]
    by_cases hi : i = 0
    · subst hi
      have hname : nameOf nic 0 = nic.vlan := by
        rw [nameOf, if_neg hnic]
        rfl
      rw [hname]
      exact ⟨fun hne _ _ => hne, fun h => h rfl hnic⟩
    · refine iff_of_true (fun heq => ?_) fun h => absurd h hi
      have hcut := cutLast_nameOf hnic hi
      by_cases hother : other.vlan = ""
      · rw [heq, nameOf, if_pos hother, cutLast_default] at hcut
        contradiction
      · rw [heq, cutLast_nameOf hother hj, Option.some.injEq, Prod.mk.injEq, toList_toString,
          toList_toString] at hcut
        have hplace := congrArg (Nat.ofDigitChars 10 · 0) hcut.2
        rw [Nat.ofDigitChars_ten_toDigits, Nat.ofDigitChars_ten_toDigits] at hplace
        omega

theorem length_filter_le_one_iff {α : Type} {p : α → Bool} {xs : List α} :
    (xs.filter p).length ≤ 1 ↔ xs.Pairwise fun x y => ¬(p x = true ∧ p y = true) := by
  have hpairwise : xs.Pairwise (fun x y => ¬(p x = true ∧ p y = true)) ↔
      (xs.filter p).Pairwise fun _ _ => False := by
    rw [pairwise_filter]
    simp only [not_and, imp_false]
  rw [hpairwise]
  cases xs.filter p with
  | nil => exact iff_of_true (Nat.zero_le _) List.Pairwise.nil
  | cons y ys =>
    cases ys with
    | nil => exact iff_of_true (Nat.le_refl _) (pairwise_singleton _ _)
    | cons z zs =>
      refine iff_of_false (by simp) fun h => ?_
      exact (pairwise_cons.mp h).1 z mem_cons_self

theorem nodup_names_iff : (nics.zipIdx.map fun nic => nameOf nic.1 nic.2).Nodup ↔
    (nics.filter (·.vlan = "")).length ≤ 1 ∧ ∀ first ∈ nics[0]?, first.vlan ≠ "" →
      ∀ idx, ∀ nic ∈ nics[idx + 1]?,
        first.vlan ≠ if nic.vlan = "" then "default" else nic.vlan ++ "-" ++
        toString (idx + 1) := by
  simp only [← nameOf_succ]
  rw [length_filter_le_one_iff, List.Nodup, pairwise_map, pairwise_iff_getElem,
    pairwise_iff_getElem]
  simp only [getElem_zipIdx, length_zipIdx, Nat.zero_add, decide_eq_true_eq]
  constructor
  · intro h
    refine ⟨fun i j hi hj hij => ((nameOf_ne_iff hij).mp (h i j hi hj hij)).1, ?_⟩
    intro first hfirst hvlan idx nic hnic
    obtain ⟨hzero, rfl⟩ := List.getElem?_eq_some_iff.mp hfirst
    obtain ⟨hidx, rfl⟩ := List.getElem?_eq_some_iff.mp hnic
    have hpos : 0 < idx + 1 := Nat.succ_pos idx
    exact ((nameOf_ne_iff hpos).mp (h 0 (idx + 1) hzero hidx hpos)).2 rfl hvlan
  · rintro ⟨hpod, hfirst⟩ i j hi hj hij
    refine (nameOf_ne_iff hij).mpr ⟨hpod i j hi hj hij, ?_⟩
    rintro rfl hvlan
    obtain ⟨k, rfl⟩ : ∃ k, j = k + 1 := ⟨j - 1, by omega⟩
    exact hfirst _ (List.getElem?_eq_getElem hi) hvlan k _ (List.getElem?_eq_getElem hj)

end Names

section Rendered

variable {first : ResolvedNetwork}

theorem renderNetwork_source_eq_pod_iff {nic : ResolvedNetwork} {idx : Nat} :
    (renderNetwork namespace_ nic idx).source = .pod ↔ nic.vlan = "" := by
  rw [renderNetwork]
  split
  · next hvlan => exact iff_of_false (by simp) hvlan
  · next hvlan => exact iff_of_true rfl (not_not.mp hvlan)

theorem length_pod : ((nics.zipIdx.map fun nic => renderNetwork namespace_ nic.1 nic.2).filter
    (·.source = .pod)).length = (nics.filter (·.vlan = "")).length := by
  have hpod : (fun n : VMNetwork => decide (n.source = .pod)) ∘
      (fun nic : ResolvedNetwork × Nat => renderNetwork namespace_ nic.1 nic.2) =
        (fun nic : ResolvedNetwork => decide (nic.vlan = "")) ∘ Prod.fst := by
    funext nic
    exact decide_eq_decide.mpr renderNetwork_source_eq_pod_iff
  rw [filter_map, length_map, hpod, ← length_map Prod.fst, ← filter_map,
    zipIdx_map_fst]

theorem length_default : ((nics.zipIdx.map fun nic =>
    renderNetwork namespace_ nic.1 nic.2).filter (·.source.isDefault)).length ≤ 1 := by
  cases nics with
  | nil => exact Nat.zero_le 1
  | cons first nics =>
    have hrest : ((nics.zipIdx 1).map fun nic => renderNetwork namespace_ nic.1 nic.2).filter
        (·.source.isDefault) = [] := by
      rw [filter_eq_nil_iff, forall_mem_map]
      intro nic hnic
      have hplace := le_snd_of_mem_zipIdx hnic
      rw [renderNetwork]
      split
      · have hne : nic.2 ≠ 0 := by omega
        simp [NetworkSource.isDefault, hne]
      · simp [NetworkSource.isDefault, defaultPodNetwork]
    rw [zipIdx_cons, map_cons, filter_cons, Nat.zero_add, hrest]
    split
    · exact Nat.le_refl 1
    · exact Nat.zero_le 1

theorem lookup_ipAddress : (renderNetworks namespace_ binding (first :: nics)).annotations.lookup
    ipAddressAnno =
      if ((first :: nics).map ResolvedNetwork.staticIP).filter (· ≠ "") ≠ [] then
        some (",".intercalate (((first :: nics).map ResolvedNetwork.staticIP).filter (· ≠ "")))
      else none := by
  have hbridge : (ipAddressAnno == bridgeMigrationAnno) = false := by decide
  have hswitch : (ipAddressAnno == logicalSwitchAnno) = false := by decide
  have hfront (rest : Labels) : ((if (renderNetworks namespace_ binding
      (first :: nics)).interfaces.any (·.binding = .bridge) then [(bridgeMigrationAnno, "true")]
        else []) ++ [(logicalSwitchAnno, first.subnet)] ++ rest).lookup ipAddressAnno =
          rest.lookup ipAddressAnno := by
    split
    · rw [append_assoc, singleton_append, singleton_append, lookup_cons,
        hbridge, lookup_cons, hswitch]
    · rw [nil_append, singleton_append, lookup_cons, hswitch]
  refine (hfront _).trans ?_
  split
  · rw [lookup_cons, beq_self_eq_true]
  · rfl

theorem address_iff : (renderNetworks namespace_ binding (first :: nics)).annotations.lookup
    ipAddressAnno = (some first.staticIP).filter (· ≠ "") ↔
      ∀ nic ∈ nics, nic.staticIP = "" := by
  have hnone : (nics.map ResolvedNetwork.staticIP).filter (· ≠ "") = [] ↔
      ∀ nic ∈ nics, nic.staticIP = "" := by
    rw [filter_eq_nil_iff, forall_mem_map]
    simp only [decide_eq_true_eq, not_not]
  rw [lookup_ipAddress, ← hnone, map_cons]
  by_cases hfirst : first.staticIP = ""
  · have hdrop : (first.staticIP :: nics.map ResolvedNetwork.staticIP).filter (· ≠ "") =
        (nics.map ResolvedNetwork.staticIP).filter (· ≠ "") :=
      filter_cons_of_neg (by simp [hfirst])
    have hfilter : (some first.staticIP).filter (· ≠ "") = none := by simp [hfirst]
    rw [hdrop, hfilter]
    split
    · next hne => exact iff_of_false (Option.some_ne_none _) hne
    · next hne => exact iff_of_true rfl (not_not.mp hne)
  · have hkeep : (first.staticIP :: nics.map ResolvedNetwork.staticIP).filter (· ≠ "") =
        first.staticIP :: (nics.map ResolvedNetwork.staticIP).filter (· ≠ "") :=
      filter_cons_of_pos (by simp [hfirst])
    have hfilter : (some first.staticIP).filter (· ≠ "") = some first.staticIP := by simp [hfirst]
    rw [hkeep, hfilter, if_pos (cons_ne_nil _ _), Option.some.injEq]
    generalize (nics.map ResolvedNetwork.staticIP).filter (· ≠ "") = rest
    cases rest with
    | nil => exact iff_of_true (String.intercalate_singleton) rfl
    | cons other rest =>
      refine iff_of_false (fun heq => ?_) (cons_ne_nil _ _)
      -- The joined addresses are longer than the first one.
      rw [String.intercalate_cons_cons] at heq
      have hlength := congrArg String.length heq
      rw [String.length_append, String.length_append] at hlength
      have hcomma : ",".length = 1 := rfl
      omega

end Rendered

/-- When NICs are rendered well: exactly if at most one of them is on no VLAN, no later one gets
the name of the first one, and no later one has a static address. -/
theorem renderNetworks_wellFormed_iff (namespace_ binding : String) (nics : List ResolvedNetwork) :
    (renderNetworks namespace_ binding nics).WellFormed nics ↔ Tidy nics := by
  cases nics with
  | nil =>
    refine iff_of_true ⟨rfl, pairwise_singleton _ _, Nat.le_refl 1, Nat.zero_le 1, rfl⟩
      ⟨Nat.zero_le 1, fun first hfirst => ?_, forall_mem_nil _⟩
    contradiction
  | cons first nics =>
    have hnetworks : (renderNetworks namespace_ binding (first :: nics)).networks =
        (first :: nics).zipIdx.map fun nic => renderNetwork namespace_ nic.1 nic.2 := rfl
    have hinterfaces : (renderNetworks namespace_ binding (first :: nics)).interfaces =
        (first :: nics).zipIdx.map fun nic => renderInterface binding nic.1 nic.2 := rfl
    have hnames : (renderNetworks namespace_ binding (first :: nics)).networks.map
        VMNetwork.name = (first :: nics).zipIdx.map fun nic => nameOf nic.1 nic.2 := by
      rw [hnetworks, map_map]
      exact map_congr_left fun nic _ => renderNetwork_name
    constructor
    · intro h
      have hnodup := h.nodup
      rw [hnames, nodup_names_iff] at hnodup
      exact ⟨hnodup.1, hnodup.2, address_iff.mp h.address⟩
    · intro h
      refine ⟨?_, ?_, ?_, ?_, address_iff.mpr h.address⟩
      · rw [hnames, hinterfaces, map_map]
        exact map_congr_left fun nic _ => renderInterface_name.symm
      · rw [hnames, nodup_names_iff]
        exact ⟨h.pod, h.first⟩
      · rw [hnetworks, length_pod]
        exact h.pod
      · rw [hnetworks]
        exact length_default

/-- A first NIC on an overlay, and a second one on a subnet with neither a VLAN nor a VPC. -/
def plain : Cluster where
  namespaces _ := some []
  subnets name :=
    if name = "net-a" then some ⟨[], "", "vpc-a", ""⟩
    else if name = "plain" then some ⟨[], "", "", ""⟩
    else none
  vpcs name := if name = "vpc-a" then some [] else none
  vpcDNS _ := none

/-- Both are accepted, and both become the pod network. -/
theorem not_wellFormed : ¬∀ (namespaces : List String) (cluster : Cluster) (reads : Reads)
    (ns binding : String) (nics : List NetworkAttachment) (resolved : Input),
      resolveNetworks namespaces cluster reads ns nics ⟨[], ""⟩ = .ok resolved →
        (renderNetworks ns binding resolved.networks).WellFormed resolved.networks := by
  intro h
  let reads : Reads := ⟨none, fun _ => none, fun _ => none, fun _ _ => none⟩
  have haccepted : resolveNetworks ["kube-ovn"] plain reads "team-a"
      [⟨"net-a", ""⟩, ⟨"plain", ""⟩] ⟨[], ""⟩ =
        .ok ⟨[⟨"net-a", "", true, ""⟩, ⟨"plain", "", false, ""⟩], ""⟩ := by
    rfl
  have hpod := (h _ _ _ _ "" _ _ haccepted).pod
  exact absurd hpod (by decide)

end Nics
