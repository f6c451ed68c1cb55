import KubevirtUi.Egress.Returned
import KubevirtUi.Egress.Sparing

/-!
# What a clean-up takes away

It goes by the name of the gateway and by its label, and by the record of an allocator of that name.
All that it finds so is gone in the end, whoever has made it.
-/

namespace Egress

open Peering Interference Python.Ipaddress List

/-- All is the same, but for the lists of the VPCs, which are shorter if anything. -/
structure Lessened (w u : World) : Prop where
  peerings : ∀ name, (u.peerings name).Sublist (w.peerings name)
  routes : ∀ name, (u.routes name).Sublist (w.routes name)
  there : ∀ name, u.vpcs.lookup name = none ↔ w.vpcs.lookup name = none
  subnets : u.subnets = w.subnets
  nads : u.nads = w.nads
  gateways : u.gateways = w.gateways
  allocators : u.allocators = w.allocators

/-- Some list is not what it was. -/
def Taken (w u : World) : Prop :=
  ∃ name, u.peerings name ≠ w.peerings name ∨ u.routes name ≠ w.routes name

/-- There is a peering with the gateway's VPC to take. -/
def Peered (w : World) (gwVpcName name : String) : Prop :=
  ∃ e ∈ w.peerings name, e.remoteVpc = some gwVpcName

/-- There is a default route to the recorded address, or to any if none is recorded. -/
def Routed (w : World) (item : String × String) : Prop :=
  let transit := (splitComma item.2).head?.getD ""
  ∃ r ∈ w.routes item.1, r.cidr = some defaultCIDR ∧ (transit = "" ∨ r.nextHopIP = some transit)

/-- The next hop that a record names, if it does. -/
def recordedHop (record : String) : Option String :=
  let transit := (splitComma record).head?.getD ""
  if transit = "" then none else some transit

variable {peerings : List PeeringEntry} {x : Except Failure Unit} {α : Type}

section Lists

variable {w u v : World} {gwVpcName name other : String} {item : String × String}

@[refl] theorem Lessened.refl (w : World) : Lessened w w :=
  ⟨fun _ => .refl _, fun _ => .refl _, fun _ => .rfl, rfl, rfl, rfl, rfl⟩

theorem Lessened.trans (h : Lessened w u) (h' : Lessened u v) : Lessened w v where
  peerings name := (h'.peerings name).trans (h.peerings name)
  routes name := (h'.routes name).trans (h.routes name)
  there name := (h'.there name).trans (h.there name)
  subnets := h'.subnets.trans h.subnets
  nads := h'.nads.trans h.nads
  gateways := h'.gateways.trans h.gateways
  allocators := h'.allocators.trans h.allocators

theorem Taken.trans (h : Taken w u) (hw : Lessened w u) (hu : Lessened u v) : Taken w v := by
  obtain ⟨name, hpeerings | hroutes⟩ := h
  · refine ⟨name, .inl fun hsame => hpeerings ?_⟩
    exact (hw.peerings name).antisymm (hsame ▸ hu.peerings name)
  · refine ⟨name, .inr fun hsame => hroutes ?_⟩
    exact (hw.routes name).antisymm (hsame ▸ hu.routes name)

@[simp] theorem nads_rewrite {f : VpcSpec → VpcSpec} : (w.rewrite name f).nads = w.nads := by
  rw [World.rewrite]
  split
  · rfl
  · rw [World.patchVpc]
    split <;> rfl

theorem lessened_withoutPeer : Lessened w (w.rewrite name (repeer (withoutPeer gwVpcName))) where
  peerings other := by
    by_cases hname : other = name
    · rw [hname, peerings_withoutPeer]
      exact filter_sublist
    · rw [peerings_rewrite_of_ne hname]
  routes other := by rw [routes_repeer]
  there _ := rewrite_eq_none_iff
  subnets := subnets_rewrite
  nads := nads_rewrite
  gateways := gateways_rewrite
  allocators := allocators_rewrite

theorem lessened_lessRoute {cidr : String} {nextHop : Option String} :
    Lessened w (w.rewrite name (reroute (lessRoute cidr nextHop))) where
  peerings other := by rw [peerings_reroute]
  routes other := by
    by_cases hname : other = name
    · rw [hname, routes_lessRoute]
      exact filter_sublist
    · rw [routes_rewrite_of_ne hname]
  there _ := rewrite_eq_none_iff
  subnets := subnets_rewrite
  nads := nads_rewrite
  gateways := gateways_rewrite
  allocators := allocators_rewrite

theorem withoutPeer_eq_none_iff :
    withoutPeer gwVpcName peerings = none ↔ ∀ e ∈ peerings, e.remoteVpc ≠ some gwVpcName := by
  have hsame : (Keyed.drop PeeringEntry.remoteVpc [some gwVpcName] peerings).length =
      peerings.length ↔
        Keyed.drop PeeringEntry.remoteVpc [some gwVpcName] peerings = peerings :=
    ⟨length_filter_eq, congrArg List.length⟩
  simp only [withoutPeer, ite_eq_left_iff, reduceCtorEq, imp_false, not_not]
  rw [hsame, Keyed.drop_eq_self_iff]
  simp

theorem peered_iff : Peered w gwVpcName name ↔ withoutPeer gwVpcName (w.peerings name) ≠ none := by
  rw [Ne, withoutPeer_eq_none_iff, Peered]
  push Not
  rfl

theorem routed_iff : Routed w item ↔
    lessRoute defaultCIDR (recordedHop item.2) (w.routes item.1) ≠ none := by
  rw [lessRoute, Ne, ite_eq_left_iff]
  simp only [reduceCtorEq, imp_false, not_not]
  rw [withoutRoute, length_filter_eq_length_iff, Routed, recordedHop]
  by_cases hempty : (splitComma item.2).head?.getD "" = ""
  · simp [hempty]
  · simp [hempty]

theorem taken_withoutPeer (h : Peered w gwVpcName name) :
    Taken w (w.rewrite name (repeer (withoutPeer gwVpcName))) := by
  obtain ⟨e, he, hremote⟩ := h
  refine ⟨name, .inl fun hsame => ?_⟩
  rw [peerings_withoutPeer, Keyed.drop_eq_self_iff] at hsame
  exact hsame e he (by rw [hremote]; exact mem_singleton_self _)

theorem taken_lessRoute (h : Routed w item) :
    Taken w (w.rewrite item.1 (reroute (lessRoute defaultCIDR (recordedHop item.2)))) := by
  refine ⟨item.1, .inr fun hsame => routed_iff.mp h ?_⟩
  rw [routes_lessRoute] at hsame
  rw [lessRoute, hsame, if_pos rfl]

end Lists

/-- The calls that take a peering leave it, if there is one; whether one of them is refused. -/
inductive PeeringsLeft (faults : Nat → Fault) (peered : Prop) : Nat → Nat → Bool → Nat → Prop
  | none {left n : Nat} (hread : faults n = none) (hpeered : ¬peered) :
      PeeringsLeft faults peered (left + 1) n false (n + 1)
  | missing {left n : Nat} (hread : faults n = some (.api 404)) :
      PeeringsLeft faults peered (left + 1) n false (n + 1)
  | unread {left n status : Nat} (hread : faults n = some (.api status)) (h404 : status ≠ 404) :
      PeeringsLeft faults peered (left + 1) n true (n + 1)
  | unwritten {left n status : Nat} (hread : faults n = none) (hpeered : peered)
      (hwrite : faults (n + 1) = some (.api status)) (hlast : status = 409 → left = 0) :
      PeeringsLeft faults peered (left + 1) n true (n + 2)
  | again {left n k : Nat} {refused : Bool} (hread : faults n = none) (hpeered : peered)
      (hwrite : faults (n + 1) = some (.api 409))
      (hrest : PeeringsLeft faults peered (left + 1) (n + 2) refused k) :
      PeeringsLeft faults peered (left + 2) n refused k

/-- The calls that take a default route leave it, if there is one. -/
inductive RoutesLeft (faults : Nat → Fault) (routed : Prop) : Nat → Nat → Prop
  | none {n : Nat} (hread : faults n = none) (hrouted : ¬routed) :
      RoutesLeft faults routed n (n + 1)
  | unread {n : Nat} (hread : Declined (faults n)) : RoutesLeft faults routed n (n + 1)
  | unwritten {n : Nat} (hread : faults n = none) (hrouted : routed)
      (hwrite : Declined (faults (n + 1))) : RoutesLeft faults routed n (n + 2)

/-- A VPC is left as it is. -/
inductive VpcLeft (faults : Nat → Fault) (w : World) (gwVpcName : String)
    (item : String × String) : Nat → Nat → Prop
  | refused {n k : Nat}
      (hpeerings : PeeringsLeft faults (Peered w gwVpcName item.1) defaultRetries n true k) :
      VpcLeft faults w gwVpcName item n k
  | both {n m k : Nat}
      (hpeerings : PeeringsLeft faults (Peered w gwVpcName item.1) defaultRetries n false m)
      (hroutes : RoutesLeft faults (Routed w item) m k) : VpcLeft faults w gwVpcName item n k

/-- The VPCs of a record are left as they are. -/
inductive VpcsLeft (faults : Nat → Fault) (w : World) (gwVpcName : String) :
    List (String × String) → Nat → Nat → Prop
  | nil {n : Nat} : VpcsLeft faults w gwVpcName [] n n
  | cons {item : String × String} {items : List (String × String)} {n m k : Nat}
      (hitem : VpcLeft faults w gwVpcName item n m)
      (hitems : VpcsLeft faults w gwVpcName items m k) :
      VpcsLeft faults w gwVpcName (item :: items) n k

variable {faults : Nat → Fault} {k : Nat}

section Unpeer

variable {w u v : World} {gwVpcName name : String} {item : String × String}
  {items : List (String × String)} {left n : Nat}

theorem commit_getVpc : commit w (.getVpc name) =
    (((w.vpcs.lookup name).map Except.ok).getD (.error (.api 404)), w) := by
  rw [commit]
  cases w.vpcs.lookup name <;> rfl

theorem peerings_of_lookup {item : Versioned Vpc} (h : w.vpcs.lookup name = some item) :
    w.peerings name = Peering.items item.value.spec.vpcPeerings := by
  rw [World.peerings, World.spec?, h]
  rfl

theorem routes_of_lookup {item : Versioned Vpc} (h : w.vpcs.lookup name = some item) :
    w.routes name = Peering.items item.value.spec.staticRoutes := by
  rw [World.routes, World.spec?, h]
  rfl

theorem commit_patchPeerings {item : Versioned Vpc}
    {mutate : List PeeringEntry → Option (List PeeringEntry)}
    (hitem : w.vpcs.lookup name = some item)
    (hmutate : mutate (Peering.items item.value.spec.vpcPeerings) = some peerings) :
    commit w (.patchPeerings name item.version peerings) =
      (.ok (), w.rewrite name (repeer mutate)) := by
  simp [commit, World.rewrite, hitem, repeer, hmutate]

theorem commit_patchRoutes {item : Versioned Vpc} {routes : List StaticRoute}
    {change : List StaticRoute → Option (List StaticRoute)} (hitem : w.vpcs.lookup name = some item)
    (hchange : change (Peering.items item.value.spec.staticRoutes) = some routes) :
    commit w (.patchRoutes name routes) = (.ok (), w.rewrite name (reroute change)) := by
  simp [commit, World.rewrite, hitem, reroute, hchange]

/-- The peering is left, or the call raises, or it is taken. -/
def PeeringEnds (faults : Nat → Fault) (w : World) (gwVpcName name : String) (left n : Nat)
    (x : Except Failure Bool) (k : Nat) (u : World) : Prop :=
  (∃ b, x = .ok b) ∧ PeeringsLeft faults (Peered w gwVpcName name) left n false k ∧ u = w ∨
  (∃ status, x = .error (.api status)) ∧
    PeeringsLeft faults (Peered w gwVpcName name) left n true k ∧ u = w ∨
  (∃ e, x = .error e ∧ ∀ status, e ≠ .api status) ∧ u = w ∨
  (∃ b, x = .ok b) ∧ Peered w gwVpcName name ∧
    u = w.rewrite name (repeer (withoutPeer gwVpcName))

theorem peering_attempt {x : Except Failure Bool}
    (h : Runs faults (patchSpecWithRetry name (withoutPeer gwVpcName) (left + 1)) n w x k u) :
    PeeringEnds faults w gwVpcName name (left + 1) n x k u ∨
    (faults n = none ∧ Peered w gwVpcName name ∧ faults (n + 1) = some (.api 409) ∧
      0 < left ∧
      Runs faults (patchSpecWithRetry name (withoutPeer gwVpcName) left) (n + 2) w x k u) := by
  obtain ⟨hread, hrest⟩ | ⟨hread, hrest⟩ | ⟨e, h404, he, rfl, rfl, rfl⟩ :=
    Runs.of_orNone rfl commit_getVpc h
  · cases hitem : w.vpcs.lookup name with
    | none =>
      rw [hitem] at hrest
      have hpeered : ¬Peered w gwVpcName name := by
        rw [Peered, World.peerings, World.spec?, hitem]
        simp
      obtain ⟨rfl, rfl, rfl⟩ := hrest.unique .pure
      exact .inl (.inl ⟨⟨_, rfl⟩, .none hread hpeered, rfl⟩)
    | some item =>
      rw [hitem] at hrest
      have hpeered := @peered_iff w gwVpcName name
      rw [peerings_of_lookup hitem] at hpeered
      simp only at hrest
      cases hmutate : withoutPeer gwVpcName (Peering.items item.value.spec.vpcPeerings) with
      | none =>
        rw [hmutate] at hrest hpeered
        obtain ⟨rfl, rfl, rfl⟩ := hrest.unique .pure
        exact .inl (.inl ⟨⟨_, rfl⟩, .none hread (by simpa using hpeered), rfl⟩)
      | some peerings =>
        rw [hmutate] at hrest hpeered
        have hthere : Peered w gwVpcName name := hpeered.mpr (Option.some_ne_none _)
        cases hwrite : faults (n + 1) with
        | none =>
          have hask := Runs.ask_none (r := .patchPeerings name item.version peerings)
            (w := w) hwrite
          rw [commit_patchPeerings hitem hmutate] at hask
          obtain ⟨rfl, rfl, rfl⟩ := hrest.unique (Runs.exceptApi_ok (hask.bind .pure))
          exact .inl (.inr (.inr (.inr ⟨⟨_, rfl⟩, hthere, rfl⟩)))
        | some e =>
          have hask := Runs.ask_failure (r := .patchPeerings name item.version peerings)
            (w := w) hwrite rfl
          obtain ⟨status, rfl⟩ | ⟨hother, -⟩ := declined_or_raised e
          · have hhandler := Runs.of_handler hask.bind_error hrest
            by_cases hagain : status = 409 ∧ 0 < left
            · rw [if_pos hagain] at hhandler
              obtain ⟨rfl, hleft⟩ := hagain
              exact .inr ⟨hread, hthere, rfl, hleft, hhandler⟩
            · rw [if_neg hagain] at hhandler
              obtain ⟨rfl, rfl, rfl⟩ := hhandler.unique .throw
              refine .inl (.inr (.inl ⟨⟨status, rfl⟩, ?_, rfl⟩))
              exact .unwritten hread hthere hwrite fun h409 => by omega
          · obtain ⟨rfl, rfl, rfl⟩ :=
              hrest.unique (Runs.exceptApi_raised hother hask.bind_error)
            exact .inl (.inr (.inr (.inl ⟨⟨e, rfl, hother⟩, rfl⟩)))
  · obtain ⟨rfl, rfl, rfl⟩ := hrest.unique .pure
    exact .inl (.inl ⟨⟨_, rfl⟩, .missing hread, rfl⟩)
  · obtain ⟨status, rfl⟩ | ⟨hother, -⟩ := declined_or_raised e
    · have hne : status ≠ 404 := fun hstatus => h404 (congrArg Failure.api hstatus)
      exact .inl (.inr (.inl ⟨⟨status, rfl⟩, .unread he hne, rfl⟩))
    · exact .inl (.inr (.inr (.inl ⟨⟨e, rfl, hother⟩, rfl⟩)))

/-- By induction on the attempts that are left. -/
theorem of_patchSpecWithRetry {x : Except Failure Bool}
    (h : Runs faults (patchSpecWithRetry name (withoutPeer gwVpcName) (left + 1)) n w x k u) :
    PeeringEnds faults w gwVpcName name (left + 1) n x k u := by
  induction left generalizing n with
  | zero =>
    obtain hends | ⟨-, -, -, hleft, -⟩ := peering_attempt h
    · exact hends
    · exact absurd hleft (Nat.lt_irrefl 0)
  | succ left ih =>
    obtain hends | ⟨hread, hthere, hwrite, -, hrest⟩ := peering_attempt h
    · exact hends
    · obtain ⟨hx, hleft, hu⟩ | ⟨hx, hleft, hu⟩ | hraised | htaken := ih hrest
      · exact .inl ⟨hx, .again hread hthere hwrite hleft, hu⟩
      · exact .inr (.inl ⟨hx, .again hread hthere hwrite hleft, hu⟩)
      · exact .inr (.inr (.inl hraised))
      · exact .inr (.inr (.inr htaken))

theorem of_removeStaticRoute
    (h : Runs faults (removeStaticRoute item.1 defaultCIDR (recordedHop item.2)) n w x k u) :
    (x = .ok () ∨ ∃ status, x = .error (.api status)) ∧
      RoutesLeft faults (Routed w item) n k ∧ u = w ∨
    (∃ e, x = .error e ∧ ∀ status, e ≠ .api status) ∧ u = w ∨ x = .ok () ∧ Routed w item ∧
      u = w.rewrite item.1 (reroute (lessRoute defaultCIDR (recordedHop item.2))) := by
  obtain ⟨hread, hrest⟩ | ⟨hread, hrest⟩ | ⟨e, h404, he, rfl, rfl, rfl⟩ :=
    Runs.of_orNone rfl commit_getVpc h
  · cases hitem : w.vpcs.lookup item.1 with
    | none =>
      rw [hitem] at hrest
      have hrouted : ¬Routed w item := by
        rw [Routed, World.routes, World.spec?, hitem]
        simp
      obtain ⟨rfl, rfl, rfl⟩ := hrest.unique .pure
      exact .inl ⟨.inl rfl, .none hread hrouted, rfl⟩
    | some found =>
      rw [hitem] at hrest
      have hrouted := @routed_iff w item
      rw [routes_of_lookup hitem, lessRoute] at hrouted
      simp only at hrest
      split at hrest
      · next hsame =>
        rw [if_pos hsame] at hrouted
        obtain ⟨rfl, rfl, rfl⟩ := hrest.unique .pure
        exact .inl ⟨.inl rfl, .none hread (by simpa using hrouted), rfl⟩
      · next hless =>
        rw [if_neg hless] at hrouted
        have hthere : Routed w item := hrouted.mpr (Option.some_ne_none _)
        have hchange : lessRoute defaultCIDR (recordedHop item.2)
            (Peering.items found.value.spec.staticRoutes) = some _ := if_neg hless
        cases hwrite : faults (n + 1) with
        | none =>
          have hask := Runs.ask_none (w := w) (r := .patchRoutes item.1
            (withoutRoute defaultCIDR (recordedHop item.2)
              (Peering.items found.value.spec.staticRoutes))) hwrite
          rw [commit_patchRoutes hitem hchange] at hask
          obtain ⟨rfl, rfl, rfl⟩ := hrest.unique hask
          exact .inr (.inr ⟨rfl, hthere, rfl⟩)
        | some e =>
          obtain ⟨rfl, rfl, rfl⟩ := hrest.unique (Runs.ask_failure hwrite rfl)
          obtain ⟨status, rfl⟩ | ⟨hother, -⟩ := declined_or_raised e
          · exact .inl ⟨.inr ⟨status, rfl⟩, .unwritten hread hthere ⟨status, hwrite⟩, rfl⟩
          · exact .inr (.inl ⟨⟨e, rfl, hother⟩, rfl⟩)
  · obtain ⟨rfl, rfl, rfl⟩ := hrest.unique .pure
    exact .inl ⟨.inl rfl, .unread ⟨404, hread⟩, rfl⟩
  · obtain ⟨status, rfl⟩ | ⟨hother, -⟩ := declined_or_raised e
    · exact .inl ⟨.inr ⟨status, rfl⟩, .unread ⟨status, he⟩, rfl⟩
    · exact .inr (.inl ⟨⟨e, rfl, hother⟩, rfl⟩)

/-- Which answer says that a call has been refused. -/
def Answers (refused : Bool) {α : Type} (x : Except Failure α) : Prop :=
  if refused then ∃ status, x = .error (.api status) else ∃ a, x = .ok a

theorem exists_of_peered (h : Peered w gwVpcName name) : ∃ item peerings,
    w.vpcs.lookup name = some item ∧
      withoutPeer gwVpcName (Peering.items item.value.spec.vpcPeerings) = some peerings := by
  have hmutate := peered_iff.mp h
  cases hitem : w.vpcs.lookup name with
  | none =>
    rw [Peered, World.peerings, World.spec?, hitem] at h
    simp at h
  | some item =>
    rw [peerings_of_lookup hitem] at hmutate
    obtain ⟨peerings, hpeerings⟩ := Option.ne_none_iff_exists'.mp hmutate
    exact ⟨item, peerings, rfl, hpeerings⟩

theorem declined_ask {r : Request} {status : Nat} {f : r.Result → Call α}
    (h : faults n = some (.api status)) (hdeletes : r.deletes = false) :
    Runs faults (ask r >>= f) n w (.error (.api status)) (n + 1) w :=
  (Runs.ask_failure h hdeletes).bind_error

theorem PeeringsLeft.runs {refused : Bool}
    (h : PeeringsLeft faults (Peered w gwVpcName name) left n refused k) : ∃ x, Answers refused x ∧
      Runs faults (patchSpecWithRetry name (withoutPeer gwVpcName) left) n w x k w := by
  induction h with
  | none hread hpeered =>
    refine ⟨.ok false, ⟨false, rfl⟩, (runs_orNone commit_getVpc hread).bind ?_⟩
    cases hitem : w.vpcs.lookup name with
    | none => exact .pure
    | some item =>
      have hmutate := not_not.mp (mt peered_iff.mpr hpeered)
      rw [peerings_of_lookup hitem] at hmutate
      simp only [hmutate]
      exact .pure
  | missing hread =>
    exact ⟨.ok false, ⟨false, rfl⟩, (runs_orNone_missing rfl hread).bind .pure⟩
  | @unread left n status hread h404 =>
    have hask : Runs faults (orNone (ask (.getVpc name))) n w _ _ _ :=
      runs_orNone_error rfl (by simpa using h404) hread
    exact ⟨_, ⟨status, rfl⟩, hask.bind_error⟩
  | @unwritten left n status hread hpeered hwrite hlast =>
    obtain ⟨item, peerings, hitem, hmutate⟩ := exists_of_peered hpeered
    refine ⟨.error (.api status), ⟨status, rfl⟩, (runs_orNone commit_getVpc hread).bind ?_⟩
    simp only [hitem, hmutate]
    refine Runs.exceptApi_api (declined_ask hwrite rfl) ?_
    rw [if_neg fun hagain => absurd (hlast hagain.1) (by omega)]
    exact .throw
  | again hread hpeered hwrite hrest ih =>
    obtain ⟨item, peerings, hitem, hmutate⟩ := exists_of_peered hpeered
    obtain ⟨x, hx, hruns⟩ := ih
    refine ⟨x, hx, (runs_orNone commit_getVpc hread).bind ?_⟩
    simp only [hitem, hmutate]
    refine Runs.exceptApi_api (declined_ask hwrite rfl) ?_
    rw [if_pos ⟨rfl, Nat.succ_pos _⟩]
    exact hruns

theorem RoutesLeft.runs (h : RoutesLeft faults (Routed w item) n k) :
    ∃ x, (x = .ok () ∨ ∃ status, x = .error (.api status)) ∧
      Runs faults (removeStaticRoute item.1 defaultCIDR (recordedHop item.2)) n w x k w := by
  have hrouted := @routed_iff w item
  cases h with
  | none hread hleft =>
    refine ⟨.ok (), .inl rfl, (runs_orNone commit_getVpc hread).bind ?_⟩
    cases hitem : w.vpcs.lookup item.1 with
    | none => exact .pure
    | some found =>
      rw [hrouted, routes_of_lookup hitem, lessRoute, ne_eq, not_not, ite_eq_left_iff] at hleft
      simp only [reduceCtorEq, imp_false, not_not] at hleft
      simp only [hleft, if_true]
      exact .pure
  | unread hread =>
    obtain ⟨status, hstatus⟩ := hread
    by_cases h404 : status = 404
    · subst h404
      exact ⟨.ok (), .inl rfl, (runs_orNone_missing rfl hstatus).bind .pure⟩
    · have hask : Runs faults (orNone (ask (.getVpc item.1))) n w _ _ _ :=
        runs_orNone_error rfl (by simpa using h404) hstatus
      exact ⟨_, .inr ⟨status, rfl⟩, hask.bind_error⟩
  | unwritten hread hthere hwrite =>
    obtain ⟨status, hstatus⟩ := hwrite
    refine ⟨.error (.api status), .inr ⟨status, rfl⟩, (runs_orNone commit_getVpc hread).bind ?_⟩
    rw [hrouted] at hthere
    cases hitem : w.vpcs.lookup item.1 with
    | none =>
      rw [World.routes, World.spec?, hitem] at hthere
      exact absurd rfl hthere
    | some found =>
      rw [routes_of_lookup hitem, lessRoute, ne_eq, ite_eq_left_iff] at hthere
      simp only [reduceCtorEq, imp_false, not_not] at hthere
      simp only [hthere, if_false]
      exact Runs.ask_failure hstatus rfl

theorem VpcLeft.runs (h : VpcLeft faults w gwVpcName item n k) :
    Runs faults (unpeer gwVpcName item.1 item.2) n w (.ok ()) k w := by
  cases h with
  | refused hpeerings =>
    obtain ⟨x, ⟨status, rfl⟩, hruns⟩ := hpeerings.runs
    exact Runs.exceptApi_api hruns.bind_error.bind_error .pure
  | both hpeerings hroutes =>
    obtain ⟨x, ⟨b, rfl⟩, hruns⟩ := hpeerings.runs
    have hremove : Runs faults (removeVpcPeering item.1 gwVpcName) n w (.ok ()) _ w :=
      hruns.bind .pure
    obtain ⟨y, rfl | ⟨status, rfl⟩, hrest⟩ := hroutes.runs
    · exact Runs.exceptApi_ok (hremove.bind hrest)
    · exact Runs.exceptApi_api (hremove.bind hrest) .pure

theorem VpcsLeft.runs (h : VpcsLeft faults w gwVpcName items n k) :
    Runs faults (unpeerAll gwVpcName items) n w (.ok ()) k w := by
  induction h with
  | nil => exact .pure
  | cons hitem hitems ih => exact hitem.runs.bind ih

theorem of_removeVpcPeering (h : Runs faults (removeVpcPeering name gwVpcName) n w x k u) :
    x = .ok () ∧ PeeringsLeft faults (Peered w gwVpcName name) defaultRetries n false k ∧ u = w ∨
    (∃ status, x = .error (.api status)) ∧
      PeeringsLeft faults (Peered w gwVpcName name) defaultRetries n true k ∧ u = w ∨
    (∃ e, x = .error e ∧ ∀ status, e ≠ .api status) ∧ u = w ∨ x = .ok () ∧ Peered w gwVpcName name ∧
      u = w.rewrite name (repeer (withoutPeer gwVpcName)) := by
  obtain ⟨y, m, v, hpatch, hrest⟩ := h.exists_first
  obtain ⟨⟨b, rfl⟩, hleft⟩ | ⟨⟨status, rfl⟩, hleft⟩ | ⟨⟨e, rfl, hother⟩, hu⟩ | ⟨⟨b, rfl⟩, htaken⟩ :=
    of_patchSpecWithRetry hpatch
  · obtain ⟨rfl, rfl, rfl⟩ := Ends.unique hrest .pure
    exact .inl ⟨rfl, hleft⟩
  · obtain ⟨rfl, rfl, rfl⟩ := hrest
    exact .inr (.inl ⟨⟨status, rfl⟩, hleft⟩)
  · obtain ⟨rfl, rfl, rfl⟩ := hrest
    exact .inr (.inr (.inl ⟨⟨e, rfl, hother⟩, hu⟩))
  · obtain ⟨rfl, rfl, rfl⟩ := Ends.unique hrest .pure
    exact .inr (.inr (.inr ⟨rfl, htaken⟩))

theorem of_removals
    (h : Runs faults (do
      removeVpcPeering item.1 gwVpcName
      removeStaticRoute item.1 defaultCIDR (recordedHop item.2)) n w x k u) :
    Lessened w u ∧ ((∃ e, x = .error e ∧ ∀ status, e ≠ .api status) ∨
      VpcLeft faults w gwVpcName item n k ∧ u = w ∨ Taken w u) := by
  obtain ⟨y, m, v, hpeering, hroute⟩ := h.exists_first
  obtain ⟨rfl, hleft, rfl⟩ | ⟨⟨status, rfl⟩, hleft, rfl⟩ | ⟨⟨e, rfl, hother⟩, rfl⟩ |
    ⟨rfl, hthere, rfl⟩ := of_removeVpcPeering hpeering
  · obtain ⟨-, hroutes, rfl⟩ | ⟨hraised, rfl⟩ | ⟨-, hthere, rfl⟩ := of_removeStaticRoute hroute
    · exact ⟨.refl _, .inr (.inl ⟨.both hleft hroutes, rfl⟩)⟩
    · exact ⟨.refl _, .inl hraised⟩
    · exact ⟨lessened_lessRoute, .inr (.inr (taken_lessRoute hthere))⟩
  · obtain ⟨rfl, rfl, rfl⟩ := hroute
    exact ⟨.refl _, .inr (.inl ⟨.refused hleft, rfl⟩)⟩
  · obtain ⟨rfl, rfl, rfl⟩ := hroute
    exact ⟨.refl _, .inl ⟨e, rfl, hother⟩⟩
  · have htaken := taken_withoutPeer hthere
    obtain ⟨-, -, rfl⟩ | ⟨hraised, rfl⟩ | ⟨-, -, rfl⟩ := of_removeStaticRoute hroute
    · exact ⟨lessened_withoutPeer, .inr (.inr htaken)⟩
    · exact ⟨lessened_withoutPeer, .inl hraised⟩
    · refine ⟨lessened_withoutPeer.trans lessened_lessRoute, .inr (.inr ?_)⟩
      exact htaken.trans lessened_withoutPeer lessened_lessRoute

theorem of_unpeer (h : Runs faults (unpeer gwVpcName item.1 item.2) n w x k u) : Lessened w u ∧
    ((∃ e, x = .error e) ∨
      x = .ok () ∧ (VpcLeft faults w gwVpcName item n k ∧ u = w ∨ Taken w u)) := by
  obtain ⟨⟨⟩, rfl, hbody⟩ | ⟨status, m, v, hbody, hhandler⟩ | ⟨e, rfl, -, hbody⟩ := h.of_exceptApi
  · obtain ⟨hless, ⟨e, hx, -⟩ | hends⟩ := of_removals hbody
    · exact nomatch hx
    · exact ⟨hless, .inr ⟨rfl, hends⟩⟩
  · obtain ⟨rfl, rfl, rfl⟩ := hhandler.unique .pure
    obtain ⟨hless, ⟨e, hx, hother⟩ | hends⟩ := of_removals hbody
    · exact absurd (Except.error.inj hx).symm (hother status)
    · exact ⟨hless, .inr ⟨rfl, hends⟩⟩
  · exact ⟨(of_removals hbody).1, .inl ⟨e, rfl⟩⟩

theorem of_unpeerAll (h : Runs faults (unpeerAll gwVpcName items) n w x k u) : Lessened w u ∧
    ((∃ e, x = .error e) ∨
      x = .ok () ∧ (VpcsLeft faults w gwVpcName items n k ∧ u = w ∨ Taken w u)) := by
  induction items generalizing n w with
  | nil =>
    obtain ⟨rfl, rfl, rfl⟩ := h.unique .pure
    exact ⟨.refl _, .inr ⟨rfl, .inl ⟨.nil, rfl⟩⟩⟩
  | cons item items ih =>
    obtain ⟨y, m, v, hitem, hitems⟩ := h.exists_first
    obtain ⟨hless, ⟨e, rfl⟩ | ⟨rfl, hends⟩⟩ := of_unpeer hitem
    · obtain ⟨rfl, rfl, rfl⟩ := hitems
      exact ⟨hless, .inl ⟨e, rfl⟩⟩
    · obtain ⟨hmore, hraised | ⟨hx, hrest⟩⟩ := ih hitems
      · exact ⟨hless.trans hmore, .inl hraised⟩
      · refine ⟨hless.trans hmore, .inr ⟨hx, ?_⟩⟩
        obtain ⟨hleft, rfl⟩ | htaken := hends
        · obtain ⟨hleft', rfl⟩ | htaken := hrest
          · exact .inl ⟨.cons hleft hleft', rfl⟩
          · exact .inr htaken
        · exact .inr (htaken.trans hless hmore)

end Unpeer

def World.withoutGateway (w : World) (name : String) : World :=
  { w with gateways := w.gateways.erase name }

def World.withoutSubnet (w : World) (name : String) : World :=
  { w with subnets := w.subnets.erase name }

def World.withoutSubnets (w : World) (items : List (String × Subnet)) : World :=
  items.foldl (fun w item => w.withoutSubnet item.1) w

def World.withoutVpc (w : World) (name : String) : World := { w with vpcs := w.vpcs.erase name }

/-- The Subnets that carry the label of a gateway. -/
def World.labelled (w : World) (name : String) : List (String × Subnet) :=
  (w.subnets.entries.map fun e => (e.1, e.2)).filter fun item =>
    item.2.labels.lookup gatewayLabel = some name

section Deletions

variable {w u : World} {name other : String} {items : List (String × Subnet)} {n : Nat}

theorem erase_of_none {s : AList fun _ : String => α} (h : s.lookup name = none) :
    s.erase name = s := by
  apply AList.ext
  change s.entries.kerase name = s.entries
  exact kerase_of_notMem_keys (AList.lookup_eq_none.mp h)

theorem runs_deleteGateway : Runs faults (exceptApi (ask (.deleteGateway name)) fun _ => pure ())
    n w (.ok ()) (n + 1) (w.withoutGateway name) := by
  apply runs_deletion rfl
  cases hgateway : w.gateways.lookup name with
  | none =>
    refine .inr ⟨by simp [commit, hgateway], ?_⟩
    rw [World.withoutGateway, erase_of_none hgateway]
  | some gateway => exact .inl (by simp [commit, hgateway, World.withoutGateway])

theorem runs_cleanupGatewayVpc :
    Runs faults (cleanupGatewayVpc name) n w (.ok ()) (n + 1) (w.withoutVpc name) := by
  apply runs_deletion rfl
  cases hvpc : w.vpcs.lookup name with
  | none =>
    refine .inr ⟨by simp [commit, hvpc], ?_⟩
    rw [World.withoutVpc, erase_of_none hvpc]
  | some vpc => exact .inl (by simp [commit, hvpc, World.withoutVpc])

theorem runs_deleteSubnet : Runs faults (exceptApi (ask (.deleteSubnet name)) fun _ => pure ())
    n w (.ok ()) (n + 1) (w.withoutSubnet name) := by
  apply runs_deletion rfl
  cases hsubnet : w.subnets.lookup name with
  | none =>
    refine .inr ⟨by simp [commit, hsubnet], ?_⟩
    rw [World.withoutSubnet, erase_of_none hsubnet]
  | some subnet => exact .inl (by simp [commit, hsubnet, World.withoutSubnet])

theorem runs_deleteSubnets : Runs faults (deleteSubnets items) n w (.ok ()) (n + items.length)
    (w.withoutSubnets items) := by
  induction items generalizing n w with
  | nil => exact .pure
  | cons item items ih =>
    rw [length_cons, Nat.add_comm items.length 1, ← Nat.add_assoc]
    exact runs_deleteSubnet.bind ih

theorem mem_labelled {subnet : Subnet} : (other, subnet) ∈ w.labelled name ↔
    w.subnets.lookup other = some subnet ∧ subnet.labels.lookup gatewayLabel = some name := by
  rw [World.labelled, mem_filter, decide_eq_true_eq]
  refine and_congr_left fun _ => ?_
  rw [← Option.mem_def, AList.mem_lookup_iff, mem_map]
  constructor
  · rintro ⟨e, he, hpair⟩
    obtain ⟨rfl, rfl⟩ := Prod.mk.inj hpair
    exact he
  · exact fun he => ⟨_, he, rfl⟩

theorem lookup_withoutSubnets : (w.withoutSubnets items).subnets.lookup other =
    if other ∈ items.map Prod.fst then none else w.subnets.lookup other := by
  induction items generalizing w with
  | nil => simp [World.withoutSubnets]
  | cons item items ih =>
    rw [World.withoutSubnets, foldl_cons, ← World.withoutSubnets, ih, World.withoutSubnet,
      map_cons]
    by_cases hrest : other ∈ items.map Prod.fst
    · rw [if_pos hrest, if_pos (mem_cons_of_mem _ hrest)]
    · rw [if_neg hrest]
      by_cases hname : other = item.1
      · rw [hname, AList.lookup_erase, if_pos mem_cons_self]
      · rw [AList.lookup_erase_ne hname, if_neg]
        simpa [hname] using hrest

@[simp] theorem vpcs_withoutSubnets : (w.withoutSubnets items).vpcs = w.vpcs := by
  induction items generalizing w with
  | nil => rfl
  | cons item items ih => exact ih

@[simp] theorem nads_withoutSubnets : (w.withoutSubnets items).nads = w.nads := by
  induction items generalizing w with
  | nil => rfl
  | cons item items ih => exact ih

@[simp] theorem allocators_withoutSubnets : (w.withoutSubnets items).allocators = w.allocators := by
  induction items generalizing w with
  | nil => rfl
  | cons item items ih => exact ih

@[simp] theorem gateways_withoutSubnets : (w.withoutSubnets items).gateways = w.gateways := by
  induction items generalizing w with
  | nil => rfl
  | cons item items ih => exact ih

theorem labelled_withoutSubnets {v : World} (hv : v.subnets = w.subnets) :
    (v.withoutSubnets (w.labelled name)).labelled name = [] := by
  rw [eq_nil_iff_forall_not_mem]
  rintro ⟨other, subnet⟩ hmem
  obtain ⟨hfound, hlabel⟩ := mem_labelled.mp hmem
  rw [lookup_withoutSubnets] at hfound
  split at hfound
  · contradiction
  · next hkept =>
    rw [hv] at hfound
    exact hkept (mem_map_of_mem (mem_labelled.mpr ⟨hfound, hlabel⟩))

end Deletions

/-- A call that asks for what is not there says so, also if it fails that way. -/
def Missing (fault : Fault) : Prop := fault = none ∨ fault = some (.api 404)

/-- A look finds nothing left, or is refused at the Subnets. -/
def Looked (faults : Nat → Fault) (n : Nat) : Prop :=
  Missing (faults n) ∧ ¬Raised (faults (n + 1))

/-- One of the looks finds nothing left. -/
def Gone (faults : Nat → Fault) : Nat → Nat → Prop
  | 0, n => Looked faults n
  | again + 1, n => Looked faults n ∨
      ¬Raised (faults n) ∧ ¬Raised (faults (n + 1)) ∧ Gone faults again (n + 2)

section Await

variable {w u : World} {name : String} {again n m : Nat}

theorem reads_gatewayLeft : Reads (gatewayLeft name) := by
  apply Every.bind
  · apply reads_exceptApi
    · exact (reads_ask rfl).bind fun _ => .pure _
    · intro status
      split <;> exact .pure _
  · intro left
    apply reads_exceptApi
    · exact (reads_ask rfl).bind fun _ => .pure _
    · exact fun _ => .pure _

theorem reads_awaitGatewayGone : Reads (awaitGatewayGone name again) := by
  induction again with
  | zero => exact reads_gatewayLeft
  | succ again ih =>
    apply reads_gatewayLeft.bind
    intro left
    split
    · exact .pure _
    · exact ih

theorem Missing.not_raised {fault : Fault} (h : Missing fault) : ¬Raised fault := by
  obtain rfl | rfl := h
  · exact not_raised_none
  · exact Declined.not_raised ⟨404, rfl⟩

theorem runs_gatewayFound (n : Nat) (hgateway : w.gateways.lookup name = none) :
    let found := exceptApi (do
      let _ ← ask (.getGateway name)
      return ["vpc-egress-gateway/" ++ name]) fun status =>
        if status ≠ 404 then pure ["vpc-egress-gateway/" ++ name] else pure []
    Missing (faults n) ∧ Runs faults found n w (.ok []) (n + 1) w ∨
    ¬Missing (faults n) ∧ ¬Raised (faults n) ∧
      Runs faults found n w (.ok ["vpc-egress-gateway/" ++ name]) (n + 1) w ∨
    Raised (faults n) ∧ ∃ e, Runs faults found n w (.error e) (n + 1) w := by
  intro found
  obtain hnone | ⟨status, hfailure, hraised⟩ | ⟨e, hfailure, hother, hraised⟩ :=
    fault_cases (faults n)
  · have hask : Runs faults (ask (.getGateway name)) n w _ _ _ := Runs.ask_none hnone
    have hcommit : commit w (.getGateway name) = (.error (.api 404), w) := by
      simp [commit, hgateway]
    rw [hcommit] at hask
    exact .inl ⟨.inl hnone, Runs.exceptApi_api hask.bind_error .pure⟩
  · have hask : Runs faults (ask (.getGateway name)) n w _ _ _ := Runs.ask_failure hfailure rfl
    by_cases h404 : status = 404
    · subst h404
      exact .inl ⟨.inr hfailure, Runs.exceptApi_api hask.bind_error .pure⟩
    · refine .inr (.inl ⟨?_, hraised, Runs.exceptApi_api hask.bind_error ?_⟩)
      · rw [Missing, hfailure]
        simpa using h404
      · rw [if_pos h404]
        exact .pure
  · have hask : Runs faults (ask (.getGateway name)) n w _ _ _ := Runs.ask_failure hfailure rfl
    exact .inr (.inr ⟨hraised, e, Runs.exceptApi_raised hother hask.bind_error⟩)

/-- Which of the Subnets are still there, after what has been found already. -/
theorem runs_subnetsFound (hlabelled : w.labelled name = []) {left : List String} :
    let found := exceptApi (do
      let found ← ask (.listLabelledSubnets gatewayLabel name)
      return left ++ found.map fun item => "subnet/" ++ item.1) fun _ => pure left
    ¬Raised (faults n) ∧ Runs faults found n w (.ok left) (n + 1) w ∨
    Raised (faults n) ∧ ∃ e, Runs faults found n w (.error e) (n + 1) w := by
  intro found
  obtain hnone | ⟨status, hfailure, hraised⟩ | ⟨e, hfailure, hother, hraised⟩ :=
    fault_cases (faults n)
  · have hask : Runs faults (ask (.listLabelledSubnets gatewayLabel name)) n w _ _ _ :=
      Runs.ask_none hnone
    have hcommit : commit w (.listLabelledSubnets gatewayLabel name) = (.ok [], w) := by
      rw [commit, ← World.labelled, hlabelled]
    rw [hcommit] at hask
    refine .inl ⟨hnone ▸ not_raised_none, Runs.exceptApi_ok (hask.bind ?_)⟩
    rw [map_nil, append_nil]
    exact .pure
  · have hask : Runs faults (ask (.listLabelledSubnets gatewayLabel name)) n w _ _ _ :=
      Runs.ask_failure hfailure rfl
    exact .inl ⟨hraised, Runs.exceptApi_api hask.bind_error .pure⟩
  · have hask : Runs faults (ask (.listLabelledSubnets gatewayLabel name)) n w _ _ _ :=
      Runs.ask_failure hfailure rfl
    exact .inr ⟨hraised, e, Runs.exceptApi_raised hother hask.bind_error⟩

variable {x : Except Failure (List String)}

theorem of_gatewayLeft (hgateway : w.gateways.lookup name = none)
    (hlabelled : w.labelled name = []) (h : Runs faults (gatewayLeft name) n w x m u) :
    x = .ok [] ∧ m = n + 2 ∧ Looked faults n ∨
    (∃ e, x = .error e) ∧ (Raised (faults n) ∨ Raised (faults (n + 1))) ∨
    (∃ item left, x = .ok (item :: left)) ∧ m = n + 2 ∧ ¬Looked faults n ∧ ¬Raised (faults n) ∧
      ¬Raised (faults (n + 1)) := by
  have hsubnets : ∀ {left}, _ := fun {left} =>
    @runs_subnetsFound faults w name (n + 1) hlabelled left
  obtain ⟨hnone, hgone⟩ | ⟨hsome, hraised, hthere⟩ | ⟨hraised, e, he⟩ :=
    runs_gatewayFound n hgateway
  · obtain ⟨hlist, hfound⟩ | ⟨hlist, e, he⟩ := hsubnets
    · obtain ⟨rfl, rfl, -⟩ := h.unique (hgone.bind hfound)
      exact .inl ⟨rfl, rfl, hnone, hlist⟩
    · obtain ⟨rfl, -⟩ := h.unique (hgone.bind he)
      exact .inr (.inl ⟨⟨e, rfl⟩, .inr hlist⟩)
  · obtain ⟨hlist, hfound⟩ | ⟨hlist, e, he⟩ := hsubnets
    · obtain ⟨rfl, rfl, -⟩ := h.unique (hthere.bind hfound)
      exact .inr (.inr ⟨⟨_, _, rfl⟩, rfl, fun hlooked => hsome hlooked.1, hraised, hlist⟩)
    · obtain ⟨rfl, -⟩ := h.unique (hthere.bind he)
      exact .inr (.inl ⟨⟨e, rfl⟩, .inr hlist⟩)
  · obtain ⟨rfl, -⟩ := h.unique he.bind_error
    exact .inr (.inl ⟨⟨e, rfl⟩, .inl hraised⟩)

/-- By induction on the looks that are left. -/
theorem await_iff (hgateway : w.gateways.lookup name = none) (hlabelled : w.labelled name = [])
    (h : Runs faults (awaitGatewayGone name again) n w x m u) :
    x = .ok [] ↔ Gone faults again n := by
  induction again generalizing n with
  | zero =>
    obtain ⟨hx, -, hlooked⟩ | ⟨⟨e, rfl⟩, hraised⟩ | ⟨⟨_, _, rfl⟩, -, hlooked, -⟩ :=
      of_gatewayLeft hgateway hlabelled h
    · exact iff_of_true hx hlooked
    · refine iff_of_false nofun ?_
      rintro ⟨hmissing, hlist⟩
      exact hraised.elim hmissing.not_raised hlist
    · exact iff_of_false nofun hlooked
  | succ again ih =>
    obtain ⟨y, k, v, hlook, hrest⟩ := h.exists_first
    obtain rfl := Runs.of_reads reads_gatewayLeft hlook
    obtain ⟨rfl, -, hlooked⟩ | ⟨⟨e, rfl⟩, hraised⟩ |
      ⟨⟨_, _, rfl⟩, rfl, hlooked, hraised, hlist⟩ := of_gatewayLeft hgateway hlabelled hlook
    · obtain ⟨rfl, -⟩ := Ends.unique hrest .pure
      exact iff_of_true rfl (.inl hlooked)
    · obtain ⟨rfl, -⟩ := hrest
      refine iff_of_false nofun ?_
      rintro (⟨hmissing, hlist⟩ | ⟨hgateway, hlist, -⟩)
      · exact hraised.elim hmissing.not_raised hlist
      · exact hraised.elim hgateway hlist
    · have hrest : Runs faults (if _ = [] then _ else _) _ _ _ _ _ := hrest
      rw [if_neg (cons_ne_nil _ _)] at hrest
      rw [ih hrest, Gone, or_iff_right hlooked]
      exact ⟨fun hgone => ⟨hraised, hlist, hgone⟩, fun hgone => hgone.2.2⟩

end Await

end Egress
