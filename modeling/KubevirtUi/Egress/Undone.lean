import KubevirtUi.Egress.Lists

/-!
# What is left of an attach after a detach

The detach takes the peerings, the routes and the range away that the attach has put there. It does
not bring back what the attach had replaced, it takes what others have under the same name, and it
leaves the rules on the Subnet.
-/

namespace Egress

open Peering Interference Python.Ipaddress List

def World.peerings (w : World) (name : String) : List PeeringEntry :=
  ((w.spec? name).map fun spec => items spec.vpcPeerings).getD []

def World.routes (w : World) (name : String) : List StaticRoute :=
  ((w.spec? name).map fun spec => items spec.staticRoutes).getD []

/-- The address that the record of a VPC names. -/
def recordedIP (data : Data) (vpcName : String) : String :=
  (splitComma ((data.lookup (allocKey vpcName)).getD "")).head?.getD ""

/-- Everything is as before, but for the default route of the gateway's own VPC. -/
structure Restored (g v subnet : String) (w t : World) : Prop where
  peerings : t.peerings v = w.peerings v
  routes : t.routes v = w.routes v
  acls : t.subnets.lookup subnet = w.subnets.lookup subnet
  policies : t.policies g = w.policies g
  data : ∀ key, (t.data g).lookup key = (w.data g).lookup key
  hubPeerings : t.peerings (gatewayVpc g) = w.peerings (gatewayVpc g)
  hubRoutes : Keyed.drop StaticRoute.cidr [some defaultCIDR] (t.routes (gatewayVpc g)) =
    Keyed.drop StaticRoute.cidr [some defaultCIDR] (w.routes (gatewayVpc g))

/-- The entries of the other VPCs are there: their own lists, their peerings with the gateway and
their records, and for each that is attached its route back and its range. -/
structure Spared (g v : String) (w u : World) : Prop where
  specs : ∀ o, o ≠ v → o ≠ gatewayVpc g → u.spec? o = w.spec? o
  peerings : ∀ e ∈ w.peerings (gatewayVpc g), e.remoteVpc ≠ some v →
    e ∈ u.peerings (gatewayVpc g)
  data : ∀ key, key ≠ allocKey v → (u.data g).lookup key = (w.data g).lookup key
  routes : ∀ o, o ≠ v → allocKey o ∈ w.data g → recordedCIDR (w.data g) o ≠ defaultCIDR →
    ∀ r ∈ w.routes (gatewayVpc g), r.cidr = some (recordedCIDR (w.data g) o) →
      r.nextHopIP = some (recordedIP (w.data g) o) → r ∈ u.routes (gatewayVpc g)
  policies : ∀ o, o ≠ v → allocKey o ∈ w.data g →
    recordedCIDR (w.data g) o ∈ (w.policies g).flatMap Policy.blocks →
      recordedCIDR (w.data g) o ∈ (u.policies g).flatMap Policy.blocks

/-- The range that a detach takes: the record ends at a comma. -/
def takenCIDR (cidr : String) : String := (splitComma cidr).head?.getD ""

section Texts

theorem not_mem_of_mem_splitOn {a : Char} {xs part : List Char} (h : part ∈ xs.splitOn a) :
    a ∉ part := by
  induction xs generalizing part with
  | nil => simp_all
  | cons x xs ih =>
    rw [splitOn_cons_eq_if_modifyHead] at h
    cases hparts : xs.splitOn a with
    | nil => exact absurd hparts (splitOn_ne_nil a xs)
    | cons first rest =>
      rw [hparts] at ih h
      split at h
      · obtain rfl | h := mem_cons.mp h
        · exact not_mem_nil
        · exact ih h
      · next hx =>
        rw [modifyHead_cons] at h
        obtain rfl | h := mem_cons.mp h
        · have hfirst : a ∉ first := ih mem_cons_self
          have hne : a ≠ x := fun hsame => hx (by simp [hsame])
          simp [hfirst, hne]
        · exact ih (mem_cons_of_mem _ h)

theorem takenCIDR_eq_self {cidr : String} (h : ',' ∉ cidr.toList) : takenCIDR cidr = cidr := by
  rw [takenCIDR, splitComma, splitOn_eq_singleton h]
  exact String.ofList_toList

theorem takenCIDR_recordedCIDR (data : Data) (o : String) :
    takenCIDR (recordedCIDR data o) = recordedCIDR data o := by
  apply takenCIDR_eq_self
  rw [recordedCIDR]
  cases hparts : (splitComma ((data.lookup (allocKey o)).getD "")).drop 2 with
  | nil => simp
  | cons first rest =>
    have hmem : first ∈ splitComma ((data.lookup (allocKey o)).getD "") := by
      apply mem_of_mem_drop (i := 2)
      rw [hparts]
      exact mem_cons_self
    obtain ⟨part, hpart, rfl⟩ := mem_map.mp hmem
    rw [List.head?_cons, Option.getD_some, String.toList_ofList]
    exact not_mem_of_mem_splitOn hpart

theorem recordedCIDR_insert {data : Data} {v tip subnet cidr : String} (htip : ',' ∉ tip.toList)
    (hsubnet : ',' ∉ subnet.toList) :
    recordedCIDR (data.insert (allocKey v) (tip ++ "," ++ subnet ++ "," ++ cidr)) v =
      takenCIDR cidr := by
  have htext : (tip ++ "," ++ subnet ++ "," ++ cidr).toList =
      tip.toList ++ ',' :: (subnet.toList ++ ',' :: cidr.toList) := by
    simp [String.toList_append]
  rw [recordedCIDR, AList.lookup_insert, Option.getD_some, takenCIDR, splitComma, splitComma, htext,
    splitOn_append_cons_self, splitOn_append_cons_self, splitOn_eq_singleton htip,
    splitOn_eq_singleton hsubnet]
  rfl

end Texts

/-- The address that the next VPC gets. -/
def World.nextTransitIP (w : World) (gatewayName : String) : Option String := do
  let item ← w.vpcs.lookup (gatewayVpc gatewayName)
  let p ← ipv4Network item.value.transitCIDR.toList
  let host ← (hosts p).find? fun host =>
    addressText host ∉ usedIPs (w.data gatewayName) ∧ host ≠ p.base + 1
  return addressText host

/-- Nothing is there that the attach would replace, or that the detach would take; what the detach
would not take is there already, and so are the rules. -/
structure Vacant (g v subnet cidr : String) (w : World) : Prop where
  peerings : ∀ e ∈ w.peerings v, e.remoteVpc ≠ some (gatewayVpc g)
  routes : ∀ r ∈ w.routes v, r.cidr ≠ some defaultCIDR
  hubPeerings : ∀ e ∈ w.peerings (gatewayVpc g), e.remoteVpc ≠ some v
  hubRoutes : takenCIDR cidr ≠ "" → takenCIDR cidr ≠ defaultCIDR →
    ∀ r ∈ w.routes (gatewayVpc g), r.cidr ≠ some (takenCIDR cidr)
  policies : takenCIDR cidr ≠ "" → ∀ policy ∈ w.policies g,
    takenCIDR cidr ∉ policy.blocks ∧ policy.ipBlocks ≠ some []
  /-- two ranges in one text -/
  dualRoute : takenCIDR cidr ≠ cidr → ∃ tip, w.nextTransitIP g = some tip ∧
    Keyed.pick StaticRoute.cidr [some cidr] (w.routes (gatewayVpc g)) = [routeTo cidr tip]
  dualPolicy : takenCIDR cidr ≠ cidr → w.gateways.lookup g ≠ none →
    cidr ∈ (w.policies g).flatMap Policy.blocks
  acls : ∀ found, w.subnets.lookup subnet = some found → ∀ item,
    w.vpcs.lookup (gatewayVpc g) = some item →
      ∀ c ∈ [item.value.transitCIDR, item.value.gwVpcCIDR],
        ∃ rule ∈ found.acls, rule.matchExpr = allowMatch cidr c

/-- A range that an attach lays or a detach takes. -/
def Touched (cidr c : String) : Prop := c = cidr ∨ c = takenCIDR cidr ∧ c ≠ ""

/-- What is not about the VPC or its range stays. -/
structure Keeps (g v cidr : String) (w u : World) : Prop where
  specs : ∀ o, o ≠ v → o ≠ gatewayVpc g → u.spec? o = w.spec? o
  peerings : ∀ e ∈ w.peerings (gatewayVpc g), e.remoteVpc ≠ some v →
    e ∈ u.peerings (gatewayVpc g)
  data : ∀ key, key ≠ allocKey v → (u.data g).lookup key = (w.data g).lookup key
  routes : ∀ r ∈ w.routes (gatewayVpc g), r.cidr ≠ some defaultCIDR →
    (∀ c, Touched cidr c → r.cidr ≠ some c) → r ∈ u.routes (gatewayVpc g)
  policies : ∀ c, ¬Touched cidr c → c ∈ (w.policies g).flatMap Policy.blocks →
    c ∈ (u.policies g).flatMap Policy.blocks

section Keeps

variable {g v cidr subnet : String} {w u x : World} {f : VpcSpec → VpcSpec}

theorem Keeps.refl (w : World) : Keeps g v cidr w w :=
  ⟨fun _ _ _ => rfl, fun _ h _ => h, fun _ _ => rfl, fun _ h _ _ => h, fun _ _ h => h⟩

theorem Keeps.trans (h : Keeps g v cidr w u) (h' : Keeps g v cidr u x) : Keeps g v cidr w x where
  specs o hv hg := (h'.specs o hv hg).trans (h.specs o hv hg)
  peerings e he hne := h'.peerings e (h.peerings e he hne) hne
  data key hne := (h'.data key hne).trans (h.data key hne)
  routes r hr hd hc := h'.routes r (h.routes r hr hd hc) hd hc
  policies c hne hc := h'.policies c hne (h.policies c hne hc)

theorem policies_rewrite {name : String} : (w.rewrite name f).policies g = w.policies g := by
  rw [World.policies, gateways_rewrite, World.policies]

theorem keeps_rewrite_tenant (hne : v ≠ gatewayVpc g) : Keeps g v cidr w (w.rewrite v f) := by
  have hhub : (w.rewrite v f).spec? (gatewayVpc g) = w.spec? (gatewayVpc g) :=
    spec?_rewrite_of_ne hne.symm
  refine ⟨fun o hv _ => spec?_rewrite_of_ne hv, fun e he _ => ?_, fun key _ => by rw [data_rewrite],
    fun r hr _ _ => ?_, fun c _ hc => by rwa [policies_rewrite]⟩
  · rwa [World.peerings, hhub]
  · rwa [World.routes, hhub]

theorem keeps_rewrite_hub (hpeerings : ∀ spec, ∀ e ∈ items spec.vpcPeerings, e.remoteVpc ≠ some v →
      e ∈ items (f spec).vpcPeerings)
    (hroutes : ∀ spec, ∀ r ∈ items spec.staticRoutes, r.cidr ≠ some defaultCIDR →
      (∀ c, Touched cidr c → r.cidr ≠ some c) → r ∈ items (f spec).staticRoutes) :
    Keeps g v cidr w (w.rewrite (gatewayVpc g) f) := by
  refine ⟨fun o _ hg => spec?_rewrite_of_ne hg, fun e he hne => ?_,
    fun key _ => by rw [data_rewrite], fun r hr hd hc => ?_,
    fun c _ hc => by rwa [policies_rewrite]⟩
  · rw [World.peerings] at he ⊢
    rw [spec?_rewrite]
    cases hspec : w.spec? (gatewayVpc g) with
    | none => simp [hspec] at he
    | some spec =>
      rw [hspec] at he
      exact hpeerings spec e he hne
  · rw [World.routes] at hr ⊢
    rw [spec?_rewrite]
    cases hspec : w.spec? (gatewayVpc g) with
    | none => simp [hspec] at hr
    | some spec =>
      rw [hspec] at hr
      exact hroutes spec r hr hd hc

theorem keeps_repeer {mutate : List PeeringEntry → Option (List PeeringEntry)}
    (h : ∀ xs, ∀ e ∈ xs, e.remoteVpc ≠ some v → e ∈ (mutate xs).getD xs) :
    Keeps g v cidr w (w.rewrite (gatewayVpc g) (repeer mutate)) := by
  apply keeps_rewrite_hub
  · intro spec e he hne
    rw [items_repeer]
    exact h _ e he hne
  · exact fun _ _ hr _ _ => hr

theorem keeps_reroute {change : List StaticRoute → Option (List StaticRoute)}
    (h : ∀ xs, ∀ r ∈ xs, r.cidr ≠ some defaultCIDR → (∀ c, Touched cidr c → r.cidr ≠ some c) →
      r ∈ (change xs).getD xs) : Keeps g v cidr w (w.rewrite (gatewayVpc g) (reroute change)) := by
  apply keeps_rewrite_hub
  · exact fun _ _ he _ => he
  · intro spec r hr hd hc
    rw [items_reroute]
    exact h _ r hr hd hc

theorem keeps_changePolicies {change : List Policy → List Policy}
    (h : ∀ policies, ∀ c, ¬Touched cidr c → c ∈ policies.flatMap Policy.blocks →
      c ∈ (change policies).flatMap Policy.blocks) :
    Keeps g v cidr w (w.changePolicies g change) := by
  have hspec (name : String) : (w.changePolicies g change).spec? name = w.spec? name := by
    rw [World.spec?, vpcs_changePolicies, World.spec?]
  refine ⟨fun o _ _ => hspec o, fun e he _ => ?_, fun key _ => ?_, fun r hr _ _ => ?_,
    fun c hne hc => ?_⟩
  · rwa [World.peerings, hspec]
  · rw [World.data, allocators_changePolicies, World.data]
  · rwa [World.routes, hspec]
  · by_cases hthere : w.gateways.lookup g = none
    · rwa [World.changePolicies, hthere]
    · rw [policies_changePolicies hthere]
      exact h _ c hne hc

theorem keeps_changeAcls {change : List Acl.Rule → List Acl.Rule} :
    Keeps g v cidr w (w.changeAcls subnet change) := by
  have hspec (name : String) : (w.changeAcls subnet change).spec? name = w.spec? name := by
    rw [World.spec?, vpcs_changeAcls, World.spec?]
  refine ⟨fun o _ _ => hspec o, fun e he _ => ?_, fun key _ => ?_, fun r hr _ _ => ?_,
    fun c _ hc => ?_⟩
  · rwa [World.peerings, hspec]
  · rw [World.data, allocators_changeAcls, World.data]
  · rwa [World.routes, hspec]
  · rwa [World.policies, gateways_changeAcls]

theorem keeps_save {data : Data}
    (h : ∀ key, key ≠ allocKey v → data.lookup key = (w.data g).lookup key) :
    Keeps g v cidr w (w.save g data) :=
  ⟨fun _ _ _ => rfl, fun _ he _ => he, fun key hne => by rw [data_save]; exact h key hne,
    fun _ hr _ _ => hr, fun _ _ hc => hc⟩

end Keeps

end Egress
