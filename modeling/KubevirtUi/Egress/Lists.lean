import KubevirtUi.Egress.Alone

/-!
# Lists before an attach and after a detach

What a detach takes off a list is told by a name, a prefix or a range. It is what the attach put
there exactly where nothing else has it.
-/

namespace Egress

open Peering List

variable {c d : String}

section Router

variable {remote ip cidr hop : String} {peerings : List PeeringEntry} {routes : List StaticRoute}
  {spec : VpcSpec}

theorem items_repeer (mutate : List PeeringEntry → Option (List PeeringEntry)) :
    items (repeer mutate spec).vpcPeerings =
      (mutate (items spec.vpcPeerings)).getD (items spec.vpcPeerings) := by
  rw [repeer]
  cases mutate (items spec.vpcPeerings) <;> rfl

theorem items_reroute (change : List StaticRoute → Option (List StaticRoute)) :
    items (reroute change spec).staticRoutes =
      (change (items spec.staticRoutes)).getD (items spec.staticRoutes) := by
  rw [reroute]
  cases change (items spec.staticRoutes) <;> rfl

theorem length_filter_eq {α : Type} {xs : List α} {p : α → Bool}
    (h : (xs.filter p).length = xs.length) : xs.filter p = xs :=
  filter_sublist.eq_of_length h

theorem getD_withoutPeer : (withoutPeer remote peerings).getD peerings =
    Keyed.drop PeeringEntry.remoteVpc [some remote] peerings := by
  simp only [withoutPeer]
  split
  · next hsame => exact (length_filter_eq hsame).symm
  · rfl

theorem drop_withPeer :
    Keyed.drop PeeringEntry.remoteVpc [some remote] ((withPeer remote ip peerings).getD peerings) =
      Keyed.drop PeeringEntry.remoteVpc [some remote] peerings := by
  rw [withPeer]
  split
  · rfl
  · rw [Option.getD_some, Keyed.drop_append, Keyed.drop_drop_of_subset fun _ h => h]
    simp [Keyed.drop]

theorem getD_lessRoute {nextHop : Option String} : (lessRoute cidr nextHop routes).getD routes =
    withoutRoute cidr nextHop routes := by
  rw [lessRoute]
  split
  · next hsame => exact (length_filter_eq hsame).symm
  · rfl

theorem withoutRoute_none : withoutRoute cidr none routes =
    Keyed.drop StaticRoute.cidr [some cidr] routes := by
  rw [withoutRoute, Keyed.drop]
  refine filter_congr fun r _ => ?_
  simp

theorem drop_withRoute :
    Keyed.drop StaticRoute.cidr [some cidr] ((withRoute cidr hop routes).getD routes) =
      Keyed.drop StaticRoute.cidr [some cidr] routes := by
  simp only [withRoute]
  split
  · rfl
  · rw [Option.getD_some, Keyed.drop_append, Keyed.drop_drop_of_subset fun _ h => h]
    simp [Keyed.drop, routeTo]

theorem pick_withRoute : Keyed.pick StaticRoute.cidr [some cidr]
    ((withRoute cidr hop routes).getD routes) = [routeTo cidr hop] := by
  simp only [withRoute]
  split
  · next honly =>
    have hsplit : (Keyed.drop StaticRoute.cidr [some cidr] routes).length +
        (Keyed.pick StaticRoute.cidr [some cidr] routes).length = routes.length :=
      Keyed.length_drop_add_length_pick
    have hone : (Keyed.pick StaticRoute.cidr [some cidr] routes).length = 1 := by omega
    obtain ⟨only, hpick⟩ := length_eq_one_iff.mp hone
    have hmem : routeTo cidr hop ∈ Keyed.pick StaticRoute.cidr [some cidr] routes :=
      Keyed.mem_pick.mpr ⟨honly.2, by simp [routeTo]⟩
    rw [hpick, mem_singleton] at hmem
    rw [Option.getD_none, hpick, hmem]
  · rw [Option.getD_some, Keyed.pick_append, Keyed.pick_drop_self]
    simp [Keyed.pick, routeTo]

/-- What is laid by an attach is taken by the next hop, with nothing else for the prefix. -/
theorem withoutRoute_withRoute :
    withoutRoute cidr (some hop) ((withRoute cidr hop routes).getD routes) =
      Keyed.drop StaticRoute.cidr [some cidr] routes := by
  rw [← @drop_withRoute cidr hop routes, withoutRoute, Keyed.drop]
  refine filter_congr fun r hr => ?_
  by_cases hcidr : r.cidr = some cidr
  · have hpick : r ∈ Keyed.pick StaticRoute.cidr [some cidr]
        ((withRoute cidr hop routes).getD routes) := Keyed.mem_pick.mpr ⟨hr, by simp [hcidr]⟩
    rw [pick_withRoute, mem_singleton] at hpick
    simp [hpick, routeTo]
  · simp [hcidr]

theorem drop_comm : Keyed.drop StaticRoute.cidr [some c]
      (Keyed.drop StaticRoute.cidr [some d] routes) =
    Keyed.drop StaticRoute.cidr [some d] (Keyed.drop StaticRoute.cidr [some c] routes) := by
  rw [Keyed.drop, Keyed.drop, Keyed.drop, Keyed.drop, filter_comm]

theorem withRoute_eq_none
    (h : Keyed.pick StaticRoute.cidr [some cidr] routes = [routeTo cidr hop]) :
    withRoute cidr hop routes = none := by
  have hsplit : (Keyed.drop StaticRoute.cidr [some cidr] routes).length +
      (Keyed.pick StaticRoute.cidr [some cidr] routes).length = routes.length :=
    Keyed.length_drop_add_length_pick
  have hmem : routeTo cidr hop ∈ Keyed.pick StaticRoute.cidr [some cidr] routes := by simp [h]
  rw [h, length_singleton] at hsplit
  rw [withRoute, if_pos ⟨hsplit, (Keyed.mem_pick.mp hmem).1⟩]

/-- Without the routes for a range, if there is a range. -/
def lessRange (cidr : String) (routes : List StaticRoute) : List StaticRoute :=
  if cidr = "" then routes else Keyed.drop StaticRoute.cidr [some cidr] routes

theorem drop_lessRange : Keyed.drop StaticRoute.cidr [some c] (lessRange d routes) =
    lessRange d (Keyed.drop StaticRoute.cidr [some c] routes) := by
  rw [lessRange, lessRange]
  split
  · rfl
  · exact drop_comm

/-- Nothing but routes for another prefix goes exactly where there are none for the range. -/
theorem drop_lessRange_eq_drop_iff : Keyed.drop StaticRoute.cidr [some c] (lessRange d routes) =
        Keyed.drop StaticRoute.cidr [some c] routes ↔
      (d ≠ "" → d ≠ c → ∀ r ∈ routes, r.cidr ≠ some d) := by
  rw [lessRange]
  split
  · next hempty => exact iff_of_true rfl fun h => absurd hempty h
  · next hgiven =>
    rw [Keyed.drop_drop_eq_drop_iff, imp_iff_right hgiven]
    constructor
    · intro h hne r hr hcidr
      have hboth := h r hr
      rw [hcidr] at hboth
      simp [hne] at hboth
    · intro h r hr
      by_cases hne : d = c
      · simp [hne]
      · have hcidr := h hne r hr
        simp [hcidr]

/-- A route that stays where another range is taken had been there, and nothing for the range. -/
theorem drop_lessRange_withRoute (hne : d ≠ cidr) (hc : c ≠ cidr) :
    Keyed.drop StaticRoute.cidr [some c] (lessRange d ((withRoute cidr hop routes).getD routes)) =
        Keyed.drop StaticRoute.cidr [some c] routes ↔
      (d ≠ "" → d ≠ c → ∀ r ∈ routes, r.cidr ≠ some d) ∧
        Keyed.pick StaticRoute.cidr [some cidr] routes = [routeTo cidr hop] := by
  have hpick {xs : List StaticRoute} {b : String} (hb : b ≠ cidr) :
      Keyed.pick StaticRoute.cidr [some cidr] (Keyed.drop StaticRoute.cidr [some b] xs) =
        Keyed.pick StaticRoute.cidr [some cidr] xs := by
    apply Keyed.pick_drop
    intro r _ hr
    simp only [mem_singleton] at hr ⊢
    rw [hr]
    simpa using hb.symm
  have hless {xs : List StaticRoute} : Keyed.pick StaticRoute.cidr [some cidr] (lessRange d xs) =
      Keyed.pick StaticRoute.cidr [some cidr] xs := by
    rw [lessRange]
    split
    · rfl
    · exact hpick hne
  constructor
  · intro h
    have hstands : Keyed.pick StaticRoute.cidr [some cidr] routes = [routeTo cidr hop] := by
      have hboth := congrArg (Keyed.pick StaticRoute.cidr [some cidr]) h
      rw [hpick hc, hless, pick_withRoute, hpick hc] at hboth
      exact hboth.symm
    rw [withRoute_eq_none hstands, Option.getD_none] at h
    exact ⟨drop_lessRange_eq_drop_iff.mp h, hstands⟩
  · rintro ⟨hfree, hstands⟩
    rw [withRoute_eq_none hstands, Option.getD_none]
    exact drop_lessRange_eq_drop_iff.mpr hfree

theorem mem_withRoute {r : StaticRoute} (hr : r ∈ routes) (hcidr : r.cidr ≠ some cidr) :
    r ∈ (withRoute cidr hop routes).getD routes := by
  simp only [withRoute]
  split
  · exact hr
  · exact mem_append_left _ (Keyed.mem_drop.mpr ⟨hr, by simpa using hcidr⟩)

theorem mem_withPeer {e : PeeringEntry} (he : e ∈ peerings) (hremote : e.remoteVpc ≠ some remote) :
    e ∈ (withPeer remote ip peerings).getD peerings := by
  rw [withPeer]
  split
  · exact he
  · exact mem_append_left _ (Keyed.mem_drop.mpr ⟨he, by simpa using hremote⟩)

end Router

section Policies

variable {cidr other : String} {policies : List Policy} {policy : Policy}

theorem blocks_strip : (policy.strip cidr).blocks = policy.blocks.filter (· ≠ cidr) := by
  rw [Policy.strip]
  split
  · rfl
  · next hmem =>
    rw [filter_eq_self.mpr]
    intro c hc
    have hne : c ≠ cidr := fun hsame => hmem (hsame ▸ hc)
    simpa using hne

theorem strip_eq_self (h : cidr ∉ policy.blocks) : policy.strip cidr = policy := by
  rw [Policy.strip, if_neg h]

theorem mem_blocks_removeCIDR (hne : other ≠ cidr) (h : other ∈ policies.flatMap Policy.blocks) :
    other ∈ (removeCIDR cidr policies).flatMap Policy.blocks := by
  obtain ⟨policy, hpolicy, hother⟩ := mem_flatMap.mp h
  have hstrip : other ∈ (policy.strip cidr).blocks := by
    rw [blocks_strip, mem_filter]
    exact ⟨hother, by simpa using hne⟩
  refine mem_flatMap.mpr ⟨policy.strip cidr, ?_, hstrip⟩
  rw [removeCIDR, mem_filter]
  refine ⟨mem_map_of_mem hpolicy, ?_⟩
  rw [decide_eq_true_eq]
  intro hempty
  rw [Policy.blocks, hempty] at hstrip
  contradiction

theorem mem_blocks_addCIDR (h : other ∈ policies.flatMap Policy.blocks) :
    other ∈ (addCIDR cidr policies).flatMap Policy.blocks := by
  rw [addCIDR]
  split
  · exact h
  · rw [flatMap_append]
    exact mem_append_left _ h

theorem removeCIDR_eq_self_iff : removeCIDR cidr policies = policies ↔
    ∀ policy ∈ policies, cidr ∉ policy.blocks ∧ policy.ipBlocks ≠ some [] := by
  constructor
  · intro h policy hpolicy
    rw [← h, removeCIDR, mem_filter, decide_eq_true_eq] at hpolicy
    obtain ⟨hmem, hne⟩ := hpolicy
    obtain ⟨first, -, rfl⟩ := mem_map.mp hmem
    refine ⟨?_, hne⟩
    rw [blocks_strip, mem_filter]
    simp
  · intro h
    have hsame : policies.map (Policy.strip cidr) = policies := by
      conv_rhs => rw [← map_id policies]
      exact map_congr_left fun policy hpolicy => strip_eq_self (h policy hpolicy).1
    rw [removeCIDR, hsame, filter_eq_self]
    intro policy hpolicy
    simpa using (h policy hpolicy).2

theorem removeCIDR_append {more : List Policy} :
    removeCIDR cidr (policies ++ more) = removeCIDR cidr policies ++ removeCIDR cidr more := by
  simp [removeCIDR]

/-- What is added is taken again, exactly where there was nothing to be taken. -/
theorem removeCIDR_addCIDR_iff : removeCIDR cidr (addCIDR cidr policies) = policies ↔
    ∀ policy ∈ policies, cidr ∉ policy.blocks ∧ policy.ipBlocks ≠ some [] := by
  rw [addCIDR]
  split
  · exact removeCIDR_eq_self_iff
  · have hnew (snat : Option Bool) : removeCIDR cidr [{ snat, ipBlocks := some [cidr] }] = [] := by
      simp [removeCIDR, Policy.strip, Policy.blocks]
    rw [removeCIDR_append, hnew, append_nil]
    exact removeCIDR_eq_self_iff

theorem removeCIDR_addCIDR_of_ne (hne : cidr ≠ other) :
    removeCIDR other (addCIDR cidr policies) = policies ↔
      cidr ∈ policies.flatMap Policy.blocks ∧
        ∀ policy ∈ policies, other ∉ policy.blocks ∧ policy.ipBlocks ≠ some [] := by
  rw [addCIDR]
  split
  · next hmem => rw [removeCIDR_eq_self_iff, and_iff_right hmem]
  · next hmem =>
    refine iff_of_false (fun h => hmem ?_) fun h => hmem h.1
    rw [← h]
    apply mem_blocks_removeCIDR hne
    simp [Policy.blocks]

theorem addCIDR_eq_self_iff :
    addCIDR cidr policies = policies ↔ cidr ∈ policies.flatMap Policy.blocks := by
  rw [addCIDR]
  split
  · next hmem => simp [hmem]
  · next hmem => exact iff_of_false (by simp) hmem

/-- Without a range, if there is one. -/
def lessPolicies (cidr : String) (policies : List Policy) : List Policy :=
  if cidr = "" then policies else removeCIDR cidr policies

theorem lessPolicies_addCIDR_iff {taken : String} (hcidr : cidr ≠ "") :
    lessPolicies taken (addCIDR cidr policies) = policies ↔
      (taken ≠ "" → ∀ policy ∈ policies, taken ∉ policy.blocks ∧ policy.ipBlocks ≠ some []) ∧
        (taken ≠ cidr → cidr ∈ policies.flatMap Policy.blocks) := by
  rw [lessPolicies]
  split
  · next hempty =>
    have hne : taken ≠ cidr := fun hsame => hcidr (hsame.symm.trans hempty)
    rw [addCIDR_eq_self_iff, imp_iff_right hne]
    exact ⟨fun h => ⟨fun hgiven => absurd hempty hgiven, h⟩, fun h => h.2⟩
  · next hgiven =>
    rw [imp_iff_right hgiven]
    by_cases hsame : taken = cidr
    · rw [hsame, removeCIDR_addCIDR_iff]
      exact ⟨fun h => ⟨h, fun hne => absurd rfl hne⟩, fun h => h.1⟩
    · rw [removeCIDR_addCIDR_of_ne (Ne.symm hsame), imp_iff_right hsame, and_comm]

end Policies

section Rules

variable {srcCIDR : String} {allowCIDRs : List String} {acls : List Acl.Rule}

theorem exists_withAllows : ∃ more, withAllows srcCIDR allowCIDRs acls = acls ++ more := by
  induction allowCIDRs generalizing acls with
  | nil => exact ⟨[], by simp [withAllows]⟩
  | cons cidr allowCIDRs ih =>
    rw [withAllows, foldl_cons, ← withAllows]
    split
    · exact ih
    · obtain ⟨more, hmore⟩ := @ih (acls ++ [allowRule srcCIDR cidr])
      exact ⟨allowRule srcCIDR cidr :: more, by rw [hmore, append_assoc]; rfl⟩

theorem withAllows_eq_self_iff : withAllows srcCIDR allowCIDRs acls = acls ↔
    ∀ cidr ∈ allowCIDRs, ∃ rule ∈ acls, rule.matchExpr = allowMatch srcCIDR cidr := by
  induction allowCIDRs with
  | nil => simp [withAllows]
  | cons cidr allowCIDRs ih =>
    rw [withAllows, foldl_cons, ← withAllows, forall_mem_cons]
    split
    · next hany =>
      rw [ih]
      simp only [any_eq_true, decide_eq_true_eq] at hany
      exact ⟨fun h => ⟨hany, h⟩, fun h => h.2⟩
    · next hany =>
      simp only [any_eq_true, decide_eq_true_eq] at hany
      refine iff_of_false (fun h => ?_) fun h => hany h.1
      obtain ⟨more, hmore⟩ :=
        @exists_withAllows srcCIDR allowCIDRs (acls ++ [allowRule srcCIDR cidr])
      rw [hmore] at h
      have hlength := congrArg List.length h
      simp only [length_append, length_singleton] at hlength
      omega

end Rules

end Egress
