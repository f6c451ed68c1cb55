import KubevirtUi.Vpcs.Alone

/-!
# Whether a peering is laid down whole or not at all

A peering that fails before its second side has written nothing, or only read. One that fails
there has written the first router. An error of the API is answered with a rollback, which takes
away what it finds under the names of the peering, and so also what was there before; after any
other exception nothing is rolled back.
-/

namespace Vpcs

open Peering Interference List
open Option hiding map_map

variable {ι : Type}

/-- The three lists of a router; an absent list reads as an empty one. -/
def lists (spec : VpcSpec) : List PeeringEntry × List StaticRoute × List PolicyRoute :=
  (items spec.vpcPeerings, items spec.staticRoutes, items spec.policyRoutes)

/-- All routers have the lists that they had. -/
def ListsKept (w v : World ι) : Prop :=
  ∀ name, (v.spec? name).map lists = (w.spec? name).map lists

/-- No more than one call fails. -/
def onlyAt (k : Nat) (f : { e : Failure // e ≠ .api 404 }) (n : Nat) : Fault :=
  if n = k then some f else none

/-- Nothing on the router looks like a part of the side. -/
structure Unlike (spec : VpcSpec) (side : Side) : Prop where
  entry : entriesFor spec side.remoteVpc = []
  routes : ∀ r ∈ items spec.staticRoutes,
    r.cidr ∉ targets side.remoteCIDRs ∧ r.nextHopIP ≠ some side.connectIP
  policies : ∀ p ∈ items spec.policyRoutes, p.matchExpr ∉ dstMatches side.remoteCIDRs

/-- The router has the side already, at the end of its lists and nowhere else. -/
structure InPlace (spec : VpcSpec) (side : Side) : Prop where
  entry : Keyed.Last PeeringEntry.remoteVpc (items spec.vpcPeerings) [side.entry]
  routes : Keyed.Last StaticRoute.cidr (items spec.staticRoutes) side.routes
  policies : Keyed.Last PolicyRoute.matchExpr (items spec.policyRoutes) side.policies

variable {spec spec' : VpcSpec} {k n : Nat} {f : { e : Failure // e ≠ .api 404 }} {w v : World ι}
  {name remote : String} {here there : Side}

section Sides

variable {side : Side}

theorem beforeSlash_connect {ip rest : String} (h : '/' ∉ ip.toList) :
    beforeSlash (ip ++ "/" ++ rest) = ip := by
  have htake : (ip.toList ++ '/' :: rest.toList).takeWhile (· ≠ '/') = ip.toList := by
    rw [takeWhile_append_of_pos, takeWhile_cons_of_neg (by simp), append_nil]
    intro c hc
    exact decide_eq_true fun hslash => h (hslash ▸ hc)
  have htext : (ip ++ "/" ++ rest).toList = ip.toList ++ '/' :: rest.toList := by simp
  rw [beforeSlash, htext, htake, String.ofList_toList]

/-- The address that is found for a side is the one that was laid down. -/
theorem nextHops_peeringSidePatch (h : '/' ∉ side.connectIP.toList) :
    nextHops (peeringSidePatch spec side) side.remoteVpc = [side.connectIP] := by
  rw [nextHops, (holds_peeringSidePatch spec side).entry, map_singleton, Side.entry,
    getD_some, beforeSlash_connect h]

theorem routes_keys : side.routes.map StaticRoute.cidr = targets side.remoteCIDRs := by
  rw [Side.routes, map_map]
  rfl

theorem policies_keys : side.policies.map PolicyRoute.matchExpr = dstMatches side.remoteCIDRs := by
  rw [Side.policies, map_map]
  rfl

theorem lists_peeringSidePatch_iff :
    lists (peeringSidePatch spec side) = lists spec ↔ InPlace spec side := by
  have hentry : Keyed.put PeeringEntry.remoteVpc (items spec.vpcPeerings) [side.entry] =
      items spec.vpcPeerings ↔ _ := Keyed.put_eq_self_iff
  have hroutes : Keyed.put StaticRoute.cidr (items spec.staticRoutes) side.routes =
      items spec.staticRoutes ↔ _ := Keyed.put_eq_self_iff
  have hpolicies : Keyed.put PolicyRoute.matchExpr (items spec.policyRoutes) side.policies =
      items spec.policyRoutes ↔ _ := Keyed.put_eq_self_iff
  rw [Keyed.put, routes_keys] at hroutes
  rw [Keyed.put, policies_keys] at hpolicies
  rw [lists, lists, Prod.mk.injEq, Prod.mk.injEq]
  constructor
  · rintro ⟨he, hr, hp⟩
    exact ⟨hentry.mp he, hroutes.mp hr, hpolicies.mp hp⟩
  · rintro ⟨he, hr, hp⟩
    exact ⟨hentry.mpr he, hroutes.mpr hr, hpolicies.mpr hp⟩

/-- What is left of a router after a side has been laid down and taken away again. -/
theorem withoutSide_peeringSidePatch (h : '/' ∉ side.connectIP.toList) :
    withoutSide (peeringSidePatch spec side) side.remoteVpc side.remoteCIDRs =
      { vpcPeerings := some (Keyed.drop PeeringEntry.remoteVpc [some side.remoteVpc]
          (items spec.vpcPeerings))
        staticRoutes := some (Keyed.drop StaticRoute.nextHopIP [some side.connectIP]
          (Keyed.drop StaticRoute.cidr (targets side.remoteCIDRs) (items spec.staticRoutes)))
        policyRoutes := some (Keyed.drop PolicyRoute.matchExpr (dstMatches side.remoteCIDRs)
          (items spec.policyRoutes)) } := by
  have hentry : Keyed.drop PeeringEntry.remoteVpc [some side.remoteVpc]
      (items (peeringSidePatch spec side).vpcPeerings) =
        Keyed.drop PeeringEntry.remoteVpc [some side.remoteVpc] (items spec.vpcPeerings) := by
    refine Keyed.drop_put fun p (hp : p ∈ [side.entry]) => ?_
    rw [mem_singleton.mp hp]
    exact mem_singleton.mpr rfl
  have hroutes : Keyed.drop StaticRoute.cidr (targets side.remoteCIDRs)
      (Keyed.put StaticRoute.cidr (items spec.staticRoutes) side.routes) = _ :=
    Keyed.drop_put fun r => cidr_mem_targets
  have hpolicies : Keyed.drop PolicyRoute.matchExpr (dstMatches side.remoteCIDRs)
      (Keyed.put PolicyRoute.matchExpr (items spec.policyRoutes) side.policies) = _ :=
    Keyed.drop_put fun p => matchExpr_mem_dstMatches
  rw [Keyed.put, routes_keys] at hroutes
  rw [Keyed.put, policies_keys] at hpolicies
  rw [withoutSide, nextHops_peeringSidePatch h, hentry]
  simp only [peeringSidePatch, items_some, hroutes, hpolicies]
  rfl

/-- A rollback restores the lists exactly where nothing on them looked like the side. -/
theorem lists_withoutSide_iff (h : '/' ∉ side.connectIP.toList) :
    lists (withoutSide (peeringSidePatch spec side) side.remoteVpc side.remoteCIDRs) =
      lists spec ↔ Unlike spec side := by
  rw [withoutSide_peeringSidePatch h, lists, lists, Prod.mk.injEq, Prod.mk.injEq]
  simp only [items_some, Keyed.drop_eq_self_iff, Keyed.drop_drop_eq_self_iff, mem_singleton]
  constructor
  · rintro ⟨hentry, hroutes, hpolicies⟩
    refine ⟨Keyed.pick_eq_nil_iff.mpr fun p hp => ?_, hroutes, hpolicies⟩
    rw [mem_singleton]
    exact hentry p hp
  · rintro ⟨hentry, hroutes, hpolicies⟩
    refine ⟨fun p hp hsame => ?_, hroutes, hpolicies⟩
    exact Keyed.pick_eq_nil_iff.mp hentry p hp (mem_singleton.mpr hsame)

end Sides

section Single

@[simp] theorem onlyAt_self : onlyAt k f k = some f := if_pos rfl

theorem onlyAt_eq_none (h : n ≠ k) : onlyAt k f n = none := if_neg h

theorem eq_of_onlyAt (h : onlyAt k f n ≠ none) : n = k := by
  by_contra hne
  exact h (onlyAt_eq_none hne)

end Single

section Second

variable {i : ι} {u : World ι} {faults : Nat → Fault} {m : Nat}

theorem ListsKept.of_untouched (h : Untouched w v) : ListsKept w v :=
  fun name => by rw [h.spec?_eq name]

theorem Untouched.listsKept_iff (h : Untouched w v) : ListsKept w u ↔ ListsKept v u := by
  simp only [ListsKept, h.spec?_eq]

theorem Rewritten.listsKept_iff (h : Rewritten name spec' w v) (hspec : w.spec? name = some spec) :
    ListsKept w v ↔ lists spec' = lists spec := by
  constructor
  · intro hkept
    have hname := hkept name
    rw [h.spec, hspec, map_some, map_some, some.injEq] at hname
    exact hname
  · intro hlists other
    by_cases hother : other = name
    · subst hother
      rw [h.spec, hspec, map_some, map_some, hlists]
    · rw [h.others other hother]

theorem Rewritten.trans (h : Rewritten name spec w v) (h' : Rewritten name spec' v u) :
    Rewritten name spec' w u :=
  ⟨h'.spec, fun other hne => (h'.others other hne).trans (h.others other hne),
    h'.around.trans h.around⟩

theorem Rewritten.untouched (h : Rewritten name spec w v) (h' : Untouched v u) :
    Rewritten name spec w u :=
  ⟨(h'.spec?_eq name).trans h.spec, fun other hne => (h'.spec?_eq other).trans (h.others other hne),
    h'.around.trans h.around⟩

theorem leads_applySides_first {e : Failure} (rest : List (String × Side))
    (h : Leads i faults (applyPeeringSide name here peeringPatchRetries) n w (.error e) m v) :
    ∃ e', Leads i faults (applySides [] ((name, here) :: rest)) n w (.error e') m v := by
  unfold applySides
  cases e with
  | api status =>
    exact ⟨_, (leads_exceptApi_api h (Ends.bind .pure .throw)).bind_error⟩
  | _ => exact ⟨_, (leads_exceptApi_other rfl h).bind_error⟩

/-- A second side that fails has the first one rolled back if the error is one of the API. -/
theorem leads_applySides_second {e : Failure} (hspec : w.spec? name = some spec)
    (hfirst : Leads i faults (applyPeeringSide name here peeringPatchRetries) n w (.ok ()) m v)
    (hv : Rewritten name (peeringSidePatch spec here) w v) {l : Nat}
    {t : World ι} (ht : Untouched v t)
    (hsecond : Leads i faults (applyPeeringSide remote there peeringPatchRetries) m v
      (.error e) l t) (hfaults : ∀ k, l ≤ k → faults k = none)
    (hcidrs : here.remoteCIDRs = cidrsOf w.around.subnets here.remoteVpc)
    (hslash : '/' ∉ here.connectIP.toList) :
    ∃ e' k u, Leads i faults (applySides [] [(name, here), (remote, there)]) n w
      (.error e') k u ∧
      (ListsKept w u ↔ if e.isApi then Unlike spec here else InPlace spec here) := by
  unfold applySides applySides
  by_cases hapi : e.isApi
  · obtain ⟨status, rfl⟩ : ∃ status, e = .api status := by
      cases e with
      | api status => exact ⟨status, rfl⟩
      | _ => contradiction
    obtain ⟨-, -, u, hu, hremove⟩ | ⟨⟨k, -, hfault⟩, -⟩ :=
      leads_removePeeringSide i faults ((ht.spec?_eq name).trans hv.spec) true here.remoteVpc l
    · have hundo := leads_swallowing hremove
      refine ⟨k8sErrorToHttp status ("peering VPC '" ++ remote ++ "'"), l + 3, u,
        Ends.bind (leads_exceptApi_ok hfirst) (Ends.bind_error (leads_exceptApi_api hsecond
          (Ends.bind (Ends.bind hundo .pure) .throw))), ?_⟩
      have hseen : seen faults (l + 1) t here.remoteVpc = here.remoteCIDRs := by
        rw [seen, if_pos (hfaults (l + 1) (by omega)), ht.around, hv.around, hcidrs]
      rw [hseen] at hu
      rw [(hv.trans (hu.of_untouched ht)).listsKept_iff hspec, lists_withoutSide_iff hslash,
        if_pos hapi]
    · exact absurd (hfaults (l + k) (by omega)) hfault
  · refine ⟨e, l, t, Ends.bind (leads_exceptApi_ok hfirst) (Ends.bind_error
      (leads_exceptApi_other (Bool.eq_false_iff.mpr hapi) hsecond)), ?_⟩
    rw [(hv.untouched ht).listsKept_iff hspec, lists_peeringSidePatch_iff, if_neg hapi]

theorem leads_applySides_both {l : Nat}
    (hfirst : Leads i faults (applyPeeringSide name here peeringPatchRetries) n w (.ok ()) m v)
    (hsecond : Leads i faults (applyPeeringSide remote there peeringPatchRetries) m v
      (.ok ()) l u) :
    Leads i faults (applySides [] [(name, here), (remote, there)]) n w (.ok ()) l u := by
  unfold applySides applySides
  exact .bind (leads_exceptApi_ok hfirst) (Ends.bind (leads_exceptApi_ok hsecond) .pure)

end Second

section OneFails

theorem leads_applyPeeringSide_free (i : ι) {faults : Nat → Fault}
    (hspec : w.spec? name = some spec)
    (side : Side) (left : Nat) (hfree : ∀ j, n ≤ j → faults j = none) :
    ∃ v, Rewritten name (peeringSidePatch spec side) w v ∧
      Leads i faults (applyPeeringSide name side (left + 1)) n w (.ok ()) (n + 2) v := by
  obtain ⟨-, -, v, hv, h⟩ | ⟨e, -, hfault, -⟩ | ⟨e, -, -, hfault, -⟩ :=
    leads_attempt i faults hspec side left n
  · exact ⟨v, hv, h⟩
  · rw [hfree n (by omega)] at hfault
    contradiction
  · rw [hfree (n + 1) (by omega)] at hfault
    contradiction

/-- The call fails with which the second side does: its read, or its write, if that is not to be
tried again. -/
def FailsSecond (n k : Nat) (f : { e : Failure // e ≠ .api 404 }) : Prop :=
  k = n + 2 ∨ (k = n + 3 ∧ f.1 ≠ .api 409)

/-- What comes of a side, and how many calls later, if at most one call fails. -/
theorem leads_applyPeeringSide_single (i : ι) (hspec : w.spec? name = some spec) (side : Side)
    (n k : Nat) (f : { e : Failure // e ≠ .api 404 }) :
    ((k = n ∨ k = n + 1 ∧ f.1 ≠ .api 409) ∧ ∃ m v, (∀ j, m ≤ j → onlyAt k f j = none) ∧
      Untouched w v ∧
      Leads i (onlyAt k f) (applyPeeringSide name side peeringPatchRetries) n w (.error f.1) m v) ∨
    (¬ (k = n ∨ k = n + 1 ∧ f.1 ≠ .api 409) ∧ ∃ m v,
      (m = n + 2 ∨ k = n + 1 ∧ n + 2 ≤ m) ∧
      Rewritten name (peeringSidePatch spec side) w v ∧
      Leads i (onlyAt k f) (applyPeeringSide name side peeringPatchRetries) n w (.ok ()) m v) := by
  have hlater {m : Nat} (h : k < m) (j : Nat) (hj : m ≤ j) : onlyAt k f j = none :=
    onlyAt_eq_none (by omega)
  obtain ⟨hget, hpatch, v, hv, h⟩ | ⟨e, u, hget, hu, h⟩ | ⟨e, u, hget, hpatch, hu, h⟩ :=
    leads_attempt i (onlyAt k f) hspec side 4 n
  · refine .inr ⟨?_, n + 2, v, .inl rfl, hv, h⟩
    rintro (rfl | ⟨rfl, -⟩)
    · simp at hget
    · simp at hpatch
  · obtain rfl := eq_of_onlyAt (by rw [hget]; simp)
    obtain rfl := mem_unique onlyAt_self hget
    exact .inl ⟨.inl rfl, _, u, hlater (by omega), hu, h⟩
  · obtain rfl := eq_of_onlyAt (by rw [hpatch]; simp)
    obtain rfl := mem_unique onlyAt_self hpatch
    split at h
    · next hagain =>
      have hfree := hlater (m := n + 2) (by omega)
      obtain ⟨v, hv, hrest⟩ := leads_applyPeeringSide_free i
        ((hu.spec?_eq name).trans hspec) side 3 hfree
      refine .inr ⟨?_, n + 2 + 2, v, .inr ⟨rfl, by omega⟩, hv.of_untouched hu, h _ _ _ hrest⟩
      rintro (heq | ⟨-, hne⟩)
      · omega
      · exact hne hagain.1
    · next hlast =>
      exact .inl ⟨.inr ⟨rfl, fun h => hlast ⟨h, by omega⟩⟩, _, u, hlater (by omega), hu, h⟩

theorem leads_applySides_single (i : ι) (here there : Side) (n k : Nat)
    (f : { e : Failure // e ≠ .api 404 }) (hne : name ≠ remote) (hspec : w.spec? name = some spec)
    (hspec' : w.spec? remote = some spec')
    (hcidrs : here.remoteCIDRs = cidrsOf w.around.subnets here.remoteVpc)
    (hslash : '/' ∉ here.connectIP.toList) : (FailsSecond n k f ∧ ∃ e m u, Leads i (onlyAt k f)
      (applySides [] [(name, here), (remote, there)]) n w (.error e) m u ∧
      (ListsKept w u ↔ if f.1.isApi then Unlike spec here else InPlace spec here)) ∨
    (¬ FailsSecond n k f ∧ ∃ x m u, Leads i (onlyAt k f)
      (applySides [] [(name, here), (remote, there)]) n w x m u ∧
      (x = .ok () ∨ ListsKept w u)) := by
  obtain ⟨hk, m, v, -, hv, hfirst⟩ | ⟨hk, m, v, hm, hv, hfirst⟩ :=
    leads_applyPeeringSide_single i hspec here n k f
  · obtain ⟨e, h⟩ := leads_applySides_first (i := i) [(remote, there)] hfirst
    refine .inr ⟨?_, _, m, v, h, .inr (.of_untouched hv)⟩
    unfold FailsSecond
    omega
  have hspec'' : v.spec? remote = some spec' := by rw [hv.others remote hne.symm, hspec']
  obtain rfl | ⟨rfl, hm⟩ := hm
  · obtain ⟨hk', l, t, hfaults, ht, hsecond⟩ | ⟨hk', l, u, -, -, hsecond⟩ :=
      leads_applyPeeringSide_single i hspec'' there (n + 2) k f
    · exact .inl ⟨hk', leads_applySides_second hspec hfirst hv ht hsecond hfaults hcidrs hslash⟩
    · exact .inr ⟨hk', _, l, u, leads_applySides_both hfirst hsecond, .inl rfl⟩
  · have hfree : ∀ j, m ≤ j → onlyAt (n + 1) f j = none := fun j hj => onlyAt_eq_none (by omega)
    obtain ⟨u, -, hsecond⟩ := leads_applyPeeringSide_free i hspec'' there 4 hfree
    refine .inr ⟨?_, _, _, u, leads_applySides_both hfirst hsecond, .inl rfl⟩
    unfold FailsSecond
    omega

end OneFails

section Pairs

variable (other : String → Except Failure Link) {remoteVpc : String} {linkCIDR : Option String}

/-- A call that does not succeed leaves all lists as they were. -/
def AllOrNothing (i : ι) (faults : Nat → Fault) (w : World ι) (name remoteVpc : String)
    (linkCIDR : Option String) : Prop :=
  ∀ e m v, Leads i faults (createPeeringPair other name remoteVpc linkCIDR) 0 w (.error e) m v →
    ListsKept w v

/-- The side of the first router, as it would be laid down in this state. -/
def firstSide (w : World ι) (link : Link) (remoteVpc : String) : Side :=
  ⟨remoteVpc, link.localIP, link.cidr, cidrsOf w.around.subnets remoteVpc, link.remoteIP⟩

/-- If at most one call fails, a call that does not succeed leaves all lists as they were exactly
if it is not a call for the second side that fails, or the rollback has nothing to take away but
what was laid down, or there is no rollback and nothing was to be laid down. -/
theorem allOrNothing_iff (i : ι) : AllOrNothing other i (onlyAt k f) w name remoteVpc linkCIDR ↔
      ∀ link spec, Planned other w name remoteVpc linkCIDR link → w.spec? name = some spec →
        FailsSecond (firstCalls linkCIDR) k f →
          if f.1.isApi then Unlike spec (firstSide w link remoteVpc)
          else InPlace spec (firstSide w link remoteVpc) := by
  obtain ⟨link, v, hplan, hfaults, hv, hrest⟩ | ⟨hfail, e, m, v, hv, hrun⟩ :=
    leads_createPeeringPair i (onlyAt k f) w name remoteVpc linkCIDR
  · obtain ⟨spec, hspec⟩ := ne_none_iff_exists'.mp hplan.here
    obtain ⟨spec', hspec'⟩ := ne_none_iff_exists'.mp hplan.there
    have hspecs : v.spec? name = some spec ∧ v.spec? remoteVpc = some spec' := by
      rw [hv.spec?_eq, hv.spec?_eq]
      exact ⟨hspec, hspec'⟩
    have hunique {link' : Link} (h : Planned other w name remoteVpc linkCIDR link') :
        link' = link := Except.ok.inj (h.link.symm.trans hplan.link)
    obtain ⟨hk, e, m, u, hsides, hkept⟩ | ⟨hk, x, m, u, hsides, hx⟩ :=
      leads_applySides_single i (firstSide w link remoteVpc) ⟨name, link.remoteIP, link.cidr,
        cidrsOf w.around.subnets name, link.localIP⟩ (firstCalls linkCIDR) k f hplan.ne hspecs.1
          hspecs.2
        (by rw [hv.around]; rfl) link.local_slash
    · have hrun := hrest _ _ _ hsides
      rw [← hv.listsKept_iff] at hkept
      constructor
      · intro hall link' spec'' hplan' hspec'' _
        obtain rfl := hunique hplan'
        obtain rfl := mem_unique hspec hspec''
        exact hkept.mp (hall e m u hrun)
      · intro hcond e' m' u' hrun'
        obtain ⟨-, -, rfl⟩ := hrun'.unique hrun
        exact hkept.mpr (hcond link spec hplan hspec hk)
    · have hrun := hrest _ _ _ hsides
      refine ⟨fun _ _ _ _ _ hk' => absurd hk' hk, fun _ e' m' u' hrun' => ?_⟩
      obtain ⟨rfl, -, rfl⟩ := hrun'.unique hrun
      obtain hx | hx := hx
      · contradiction
      · exact hv.listsKept_iff.mpr hx
  · refine ⟨fun _ link spec hplan _ hk => ?_, fun _ e' m' u' hrun' => ?_⟩
    · obtain hnone | ⟨j, hj, hfault⟩ := hfail
      · exact absurd hplan (hnone link)
      · have hjk := eq_of_onlyAt hfault
        unfold FailsSecond at hk
        omega
    · obtain ⟨-, -, rfl⟩ := hrun'.unique hrun
      exact .of_untouched hv

end Pairs

section Example

def oldLink : Link :=
  ⟨"169.254.101.1", "169.254.101.2", "169.254.101.0/30", by decide, by decide, by decide⟩

def newLink : Link :=
  ⟨"169.254.101.5", "169.254.101.6", "169.254.101.4/30", by decide, by decide, by decide⟩

/-- Two networks that have a peering over the old link; the new one is free. -/
def joined : World Unit where
  clock := 2
  routers := ((∅ : Store VpcSpec).insert "shop"
      ⟨1, peeringSidePatch {} ⟨"bank", oldLink.localIP, oldLink.cidr, ["10.2.0.0/24"],
        oldLink.remoteIP⟩⟩).insert "bank"
      ⟨2, peeringSidePatch {} ⟨"shop", oldLink.remoteIP, oldLink.cidr, ["10.1.0.0/24"],
        oldLink.localIP⟩⟩
  around :=
    { subnets := [{ name := "shop-default", vpc := some "shop", cidrBlock := "10.1.0.0/24" },
        { name := "bank-default", vpc := some "bank", cidrBlock := "10.2.0.0/24" }]
      records := []
      networks := []
      gateways := []
      nat := []
      link := newLink
      late := false }
  log := []

/-- An error, and other lists than before on the router. -/
def spoiled (w : World Unit) (name : String) (r : Except Failure Unit × Nat × World Unit) : Bool :=
  !r.1.toBool && decide ((r.2.2.spec? name).map lists ≠ (w.spec? name).map lists)

/-- The two are peered once more, and the second router cannot be read: the rollback takes the old
entry off the first. -/
theorem not_allOrNothing_joined : ¬ AllOrNothing (fun _ => .error (.other "not a network")) ()
      (onlyAt 7 ⟨.api 500, by decide⟩) joined "shop" "bank" none := by
  intro h
  have hspoiled : spoiled joined "shop" ((createPeeringPair
      (fun _ => .error (.other "not a network")) "shop" "bank" none).run.perform (serve ())
        (onlyAt 7 ⟨.api 500, by decide⟩) 0 joined) = true := by
    decide +kernel
  obtain ⟨x, m, v, hrun⟩ := Ends.exists_end (serve ()) (onlyAt 7 ⟨.api 500, by decide⟩)
    (createPeeringPair (fun _ => .error (.other "not a network")) "shop" "bank" none) 0 joined
  rw [Ends] at hrun
  rw [hrun, spoiled, Bool.and_eq_true] at hspoiled
  cases x with
  | ok done => exact absurd hspoiled.1 Bool.false_ne_true
  | error e => exact of_decide_eq_true hspoiled.2 (h e m v hrun "shop")

end Example

end Vpcs
