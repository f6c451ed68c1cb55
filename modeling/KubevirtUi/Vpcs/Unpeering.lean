import KubevirtUi.Vpcs.Rollback

/-!
# What is left of a peering that has been taken down

Between the joining of two networks and their parting, Subnets come and go, and others write what
they like on the two routers but for the entries of the pair. The parting takes away what goes to a
prefix that the other network has then, and what goes over the router's own address on the link;
what the peering had laid down goes over the other address.
-/

namespace Vpcs

open Peering Interference Option

variable {ι : Type}

/-- What lies on the link of the side. -/
def onLink (side : Side) : List (Option String) := targets [side.connectIP, side.nextHop]

/-- The router has been left as it was but for the peering: the entry, all routes over the link and
the policies that were added are gone, and all others are as they were. -/
structure Parted (mid after : VpcSpec) (side : Side) : Prop where
  entries : items after.vpcPeerings =
    Keyed.drop PeeringEntry.remoteVpc [some side.remoteVpc] (items mid.vpcPeerings)
  routes : items after.staticRoutes =
    Keyed.drop StaticRoute.nextHopIP (onLink side) (items mid.staticRoutes)
  policies : items after.policyRoutes = (items mid.policyRoutes).filter (· ∉ side.policies)

/-- What goes to the prefixes is the peering's, and the peering's goes to the prefixes. -/
structure Recognized (mid : VpcSpec) (side : Side) (cidrs : List String) : Prop where
  far : ∀ r ∈ items mid.staticRoutes, r.nextHopIP = some side.nextHop → r.cidr ∈ targets cidrs
  routes : ∀ r ∈ items mid.staticRoutes, r.cidr ∈ targets cidrs → r.nextHopIP ∈ onLink side
  policies : ∀ p ∈ items mid.policyRoutes, p ∈ side.policies ↔ p.matchExpr ∈ dstMatches cidrs

theorem mem_onLink {side : Side} {hop : Option String} :
    hop ∈ onLink side ↔ hop = some side.connectIP ∨ hop = some side.nextHop := by
  simp [onLink, targets]

theorem parted_iff {mid : VpcSpec} {side : Side} {cidrs : List String}
    (hhops : nextHops mid side.remoteVpc = [side.connectIP]) (hne : side.connectIP ≠ side.nextHop) :
    Parted mid (withoutSide mid side.remoteVpc cidrs) side ↔ Recognized mid side cidrs := by
  have hroutes : Keyed.drop StaticRoute.nextHopIP (targets [side.connectIP])
          (Keyed.drop StaticRoute.cidr (targets cidrs) (items mid.staticRoutes)) =
        Keyed.drop StaticRoute.nextHopIP (onLink side) (items mid.staticRoutes) ↔ _ :=
    Keyed.drop_drop_eq_drop_iff
  have hpolicies : Keyed.drop PolicyRoute.matchExpr (dstMatches cidrs) (items mid.policyRoutes) =
        (items mid.policyRoutes).filter (· ∉ side.policies) ↔ _ :=
    Keyed.drop_eq_filter_iff
  rw [← hhops] at hroutes
  have hown (r : StaticRoute) : r.nextHopIP ∈ targets (nextHops mid side.remoteVpc) ↔
      r.nextHopIP = some side.connectIP := by
    rw [hhops, targets, List.map_singleton, List.mem_singleton]
  constructor
  · intro h
    have hsame := hroutes.mp h.routes
    refine ⟨fun r hr hfar => ?_, fun r hr hcidr => ?_, hpolicies.mp h.policies⟩
    · by_contra hcidr
      have hother : r.nextHopIP ∉ targets (nextHops mid side.remoteVpc) := by
        rw [hown, hfar]
        exact fun hsame => hne (some.inj hsame).symm
      exact (hsame r hr).mp ⟨hcidr, hother⟩ (mem_onLink.mpr (.inr hfar))
    · by_contra hoff
      exact ((hsame r hr).mpr hoff).1 hcidr
  · intro h
    refine ⟨rfl, hroutes.mpr fun r hr => ⟨fun hstays hon => ?_, fun hoff => ⟨?_, ?_⟩⟩,
      hpolicies.mpr h.policies⟩
    · obtain hnear | hfar := mem_onLink.mp hon
      · exact hstays.2 ((hown r).mpr hnear)
      · exact hstays.1 (h.far r hr hfar)
    · exact fun hcidr => hoff (h.routes r hr hcidr)
    · exact fun hnear => hoff (mem_onLink.mpr (.inl ((hown r).mp hnear)))

variable {i : ι} {faults : Nat → Fault} {w v : World ι} {name remoteVpc : String} {n m : Nat}

section Joining

variable {other : String → Except Failure Link} {u : World ι} {linkCIDR : Option String}
  {link : Link}

/-- The side of the second router, as it would be laid down in this state. -/
def secondSide (w : World ι) (link : Link) (name : String) : Side :=
  ⟨name, link.remoteIP, link.cidr, cidrsOf w.around.subnets name, link.localIP⟩

/-- Two networks are joined by this link: each router has the side of its own, laid down on what
it was before, and nothing else has changed. -/
structure Joined (w v : World ι) (name remoteVpc : String) (link : Link) : Prop where
  here : v.spec? name = (w.spec? name).map (peeringSidePatch · (firstSide w link remoteVpc))
  there : v.spec? remoteVpc = (w.spec? remoteVpc).map (peeringSidePatch · (secondSide w link name))
  around : v.around = w.around

theorem leads_errand {e : Errand} {x : Except Failure Unit}
    (h : Leads i faults (ask (.errand e)) n w x m v) : v = w := by
  obtain ⟨-, -, rfl⟩ := h.unique (Ends.ask (serve i) faults (.errand e) n w)
  cases faults n <;> rfl

theorem leads_exceptApi_raises {α : Type} {body : Call α} {handler : Nat → Call α} {e : Failure}
    {x : Except Failure α} {k : Nat} (hbody : Leads i faults body n w (.error e) m v)
    (hhandler : ∀ status x k u, Leads i faults (handler status) m v x k u → ∃ e, x = .error e)
    (h : Leads i faults (exceptApi body handler) n w x k u) : ∃ e, x = .error e := by
  cases e with
  | api status =>
    obtain ⟨y, l, t, hrun⟩ := Ends.exists_end (serve i) faults (handler status) m v
    obtain ⟨rfl, -, -⟩ := h.unique (leads_exceptApi_api hbody hrun)
    exact hhandler status _ _ _ hrun
  | _ =>
    obtain ⟨rfl, -, -⟩ := h.unique (leads_exceptApi_other rfl hbody)
    exact ⟨_, rfl⟩

/-- Where the sides are all laid down, so was the first, and then the others. -/
theorem leads_applySides_ok {spec : VpcSpec} {applied : List (String × String)} {side : Side}
    {rest : List (String × Side)} {k : Nat} (hspec : w.spec? name = some spec)
    (h : Leads i faults (applySides applied ((name, side) :: rest)) n w (.ok ()) k u) :
    ∃ m v, Rewritten name (peeringSidePatch spec side) w v ∧
      Leads i faults (applySides (applied ++ [(name, side.remoteVpc)]) rest) m v (.ok ()) k u := by
  unfold applySides at h
  obtain ⟨_, m, v, hfirst, hrest⟩ | ⟨e, he, -⟩ := h.of_bind
  · obtain ⟨m', v', hv, hside⟩ | ⟨e, m', v', -, hside⟩ :=
      leads_applyPeeringSide i faults hspec side 4 n
    · obtain ⟨-, rfl, rfl⟩ := hfirst.unique (leads_exceptApi_ok hside)
      exact ⟨_, _, hv, hrest⟩
    · obtain ⟨e', he⟩ := leads_exceptApi_raises hside (fun status x k u hhandler => by
        obtain ⟨_, l, t, -, hthrow⟩ | ⟨e', he, -⟩ := hhandler.of_bind
        · exact ⟨_, (hthrow.unique .throw).1⟩
        · exact ⟨e', he⟩) hfirst
      contradiction
  · contradiction

theorem joined_of_createPeeringPair
    (h : Leads i faults (createPeeringPair other name remoteVpc linkCIDR) 0 w (.ok ()) m v) :
    ∃ link, Planned other w name remoteVpc linkCIDR link ∧ Joined w v name remoteVpc link := by
  obtain ⟨link, v₁, hplan, -, hv₁, hrest⟩ | ⟨-, e, m', v', -, hrun⟩ :=
    leads_createPeeringPair i faults w name remoteVpc linkCIDR
  · obtain ⟨x, m', v', hsides⟩ := Ends.exists_end (serve i) faults
      (applySides [] (sidesIn w link name remoteVpc)) (firstCalls linkCIDR) v₁
    obtain ⟨rfl, rfl, rfl⟩ := h.unique (hrest x m' v' hsides)
    obtain ⟨spec, hspec⟩ := ne_none_iff_exists'.mp hplan.here
    obtain ⟨spec', hspec'⟩ := ne_none_iff_exists'.mp hplan.there
    obtain ⟨m₂, v₂, hv₂, hsides⟩ := leads_applySides_ok ((hv₁.spec?_eq name).trans hspec) hsides
    obtain ⟨m₃, v₃, hv₃, hsides⟩ := leads_applySides_ok
      ((hv₂.others remoteVpc hplan.ne.symm).trans ((hv₁.spec?_eq remoteVpc).trans hspec')) hsides
    obtain ⟨-, -, rfl⟩ := hsides.unique .pure
    refine ⟨link, hplan, ?_, ?_, ?_⟩
    · rw [hv₃.others name hplan.ne, hv₂.spec, hspec]
      rfl
    · rw [hv₃.spec, hspec']
      rfl
    · rw [hv₃.around, hv₂.around, hv₁.around]
  · exact absurd (h.unique hrun).1 (by simp)

theorem joined_of_createVpcPeering {outcome : Outcome}
    (h : Leads i faults (createVpcPeering other name remoteVpc linkCIDR) 0 w (.ok outcome) m v) :
    ∃ link, Planned other w name remoteVpc linkCIDR link ∧ Joined w v name remoteVpc link := by
  unfold createVpcPeering at h
  obtain ⟨_, m₁, v₁, hpair, hrest⟩ | ⟨e, he, -⟩ := h.of_bind
  · obtain ⟨link, hplan, hjoined⟩ := joined_of_createPeeringPair hpair
    obtain ⟨x, m₂, v₂, herrand⟩ := Ends.exists_end (serve i) faults
      (ask (.errand .reconcileIsolationAcls)) m₁ v₁
    obtain rfl := leads_errand herrand
    obtain ⟨-, -, rfl⟩ := hrest.unique (Ends.bind (leads_swallowing herrand) .pure)
    exact ⟨link, hplan, hjoined⟩
  · contradiction

end Joining

section Parting

theorem leads_peeringCr {x : Except Failure Bool}
    (h : Leads i faults (peeringCr name remoteVpc) n w x m v) : m = n + 1 ∧ v = w := by
  have hask : ∃ y, Leads i faults (ask (.getRecord (peeringCrName name remoteVpc))) n w y
      (n + 1) w := by
    have hask := Ends.ask (serve i) faults (.getRecord (peeringCrName name remoteVpc)) n w
    cases hfault : faults n with
    | none => exact ⟨_, by rw [hfault] at hask; exact hask⟩
    | some e => exact ⟨_, by rw [hfault] at hask; exact hask⟩
  obtain ⟨y, hask⟩ := hask
  unfold peeringCr at h
  match y with
  | .ok () =>
    obtain ⟨-, rfl, rfl⟩ := h.unique (leads_exceptApi_ok (Ends.bind hask .pure))
    exact ⟨rfl, rfl⟩
  | .error e =>
    cases e with
    | api status =>
      by_cases hstatus : status = 403 ∨ status = 404
      · obtain ⟨-, rfl, rfl⟩ := h.unique (leads_exceptApi_api hask.bind_error
          (by rw [if_pos hstatus]; exact .pure))
        exact ⟨rfl, rfl⟩
      · obtain ⟨-, rfl, rfl⟩ := h.unique (leads_exceptApi_api hask.bind_error
          (by rw [if_neg hstatus]; exact .throw))
        exact ⟨rfl, rfl⟩
    | _ =>
      obtain ⟨-, rfl, rfl⟩ := h.unique (leads_exceptApi_other rfl hask.bind_error)
      exact ⟨rfl, rfl⟩

/-- Where the sides are all taken off, so was the first, for the prefixes that were learned of. -/
theorem leads_removeSides_ok {spec : VpcSpec} {rest : List (String × String)} {k : Nat}
    {u : World ι} (hspec : w.spec? name = some spec)
    (h : Leads i faults (removeSides ((name, remoteVpc) :: rest)) n w (.ok ()) k u) :
    ∃ v, Rewritten name (withoutSide spec remoteVpc (seen faults (n + 1) w remoteVpc)) w v ∧
      Leads i faults (removeSides rest) (n + 3) v (.ok ()) k u := by
  unfold removeSides at h
  obtain ⟨_, m, v, hfirst, hrest⟩ | ⟨e, he, -⟩ := h.of_bind
  · obtain ⟨-, -, v', hv, hside⟩ | ⟨-, e, m', v', -, hside⟩ :=
      leads_removePeeringSide i faults hspec false remoteVpc n
    · obtain ⟨-, rfl, rfl⟩ := hfirst.unique (leads_exceptApi_ok hside)
      exact ⟨_, hv, hrest⟩
    · obtain ⟨e', he⟩ := leads_exceptApi_raises hside
        (fun status x k u hhandler => ⟨_, (hhandler.unique .throw).1⟩) hfirst
      contradiction
  · contradiction

/-- A call that succeeds, and has not left the peering to the operator, has taken both sides off. -/
theorem parted_of_deleteVpcPeering {mid mid' : VpcSpec} (hne : name ≠ remoteVpc)
    (hmid : w.spec? name = some mid) (hmid' : w.spec? remoteVpc = some mid')
    (h : Leads i faults (deleteVpcPeering name remoteVpc) 0 w (.ok .done) m v) :
    v.spec? name = some (withoutSide mid remoteVpc (seen faults 2 w remoteVpc)) ∧
      v.spec? remoteVpc = some (withoutSide mid' name (seen faults 5 w name)) := by
  unfold deleteVpcPeering at h
  obtain ⟨described, m₁, v₁, hrecord, hrest⟩ | ⟨e, he, -⟩ := h.of_bind
  case inr => contradiction
  obtain ⟨rfl, hsame⟩ := leads_peeringCr hrecord
  rw [hsame] at hrest
  cases described with
  | true =>
    obtain ⟨_, m₂, v₂, -, hrest⟩ | ⟨e, he, -⟩ := hrest.of_bind
    · exact absurd (hrest.unique .pure).1 (by simp)
    · contradiction
  | false =>
    obtain ⟨_, m₂, v₂, hsides, hrest⟩ | ⟨e, he, -⟩ := hrest.of_bind
    case inr => contradiction
    obtain ⟨u₁, hu₁, hsides⟩ := leads_removeSides_ok hmid hsides
    obtain ⟨u₂, hu₂, hsides⟩ := leads_removeSides_ok
      ((hu₁.others remoteVpc hne.symm).trans hmid') hsides
    obtain ⟨-, -, rfl⟩ := hsides.unique .pure
    obtain ⟨x, m₃, v₃, herrand⟩ := Ends.exists_end (serve i) faults
      (ask (.errand .reconcileIsolationAcls)) m₂ v₂
    obtain rfl := leads_errand herrand
    obtain ⟨-, -, rfl⟩ := hrest.unique (Ends.bind (leads_swallowing herrand) .pure)
    refine ⟨(hu₂.others name hne).trans hu₁.spec, ?_⟩
    have hseen : seen faults 5 u₁ name = seen faults 5 w name := by
      rw [seen, hu₁.around, seen]
    rw [hu₂.spec, ← hseen]

end Parting

section Undoing

variable (other : String → Except Failure Link) (i : ι) (name remoteVpc : String)
  (linkCIDR : Option String)

/-- Whatever has happened, the two routers are there, with the entries that they had for each
other. -/
structure Meanwhile (w v : World ι) : Prop where
  here : ∀ spec, w.spec? name = some spec →
    ∃ mid, v.spec? name = some mid ∧ entriesFor mid remoteVpc = entriesFor spec remoteVpc
  there : ∀ spec, w.spec? remoteVpc = some spec →
    ∃ mid, v.spec? remoteVpc = some mid ∧ entriesFor mid name = entriesFor spec name

/-- Two networks are joined, and later they are parted, with nobody else about at either time. -/
structure History where
  before : World ι
  joined : World ι
  later : World ι
  after : World ι
  joining : Nat → Fault
  parting : Nat → Fault
  joinedAt : Nat
  partedAt : Nat
  joins : Leads i joining (createVpcPeering other name remoteVpc linkCIDR) 0 before (.ok .done)
    joinedAt joined
  meanwhile : Meanwhile name remoteVpc joined later
  parts : Leads i parting (deleteVpcPeering name remoteVpc) 0 later (.ok .done) partedAt after

/-- The router had no route and no policy to the prefixes. -/
structure NoneTo (spec : VpcSpec) (cidrs : List String) : Prop where
  routes : ∀ r ∈ items spec.staticRoutes, r.cidr ∉ targets cidrs
  policies : ∀ p ∈ items spec.policyRoutes, p.matchExpr ∉ dstMatches cidrs

/-- The router had no entry for the other, and no route over what became its own address. -/
structure Free (spec : VpcSpec) (side : Side) : Prop where
  entry : entriesFor spec side.remoteVpc = []
  routes : ∀ r ∈ items spec.staticRoutes, r.nextHopIP ≠ some side.connectIP

variable {other i name remoteVpc linkCIDR}

namespace History

variable (h : History other i name remoteVpc linkCIDR)

/-- What is undone on one of the two routers. -/
def UndoneAt (router : String) (side : Side) : Prop :=
  ∀ mid after, h.later.spec? router = some mid → h.after.spec? router = some after →
    Parted mid after side

/-- The Subnets are as they were, nobody has touched the routers, and neither had a route or a
policy to the prefixes of the other. -/
structure Quiet (link : Link) : Prop where
  subnets : h.later.around.subnets = h.before.around.subnets
  here : h.later.spec? name = h.joined.spec? name
  there : h.later.spec? remoteVpc = h.joined.spec? remoteVpc
  noneHere : ∀ spec, h.before.spec? name = some spec →
    NoneTo spec (cidrsOf h.before.around.subnets remoteVpc)
  noneThere : ∀ spec, h.before.spec? remoteVpc = some spec →
    NoneTo spec (cidrsOf h.before.around.subnets name)

/-- The parting has undone the joining. -/
structure Undone (link : Link) : Prop where
  here : h.UndoneAt name (firstSide h.before link remoteVpc)
  there : h.UndoneAt remoteVpc (secondSide h.before link name)
  restored : h.Quiet link → ∀ router ∈ [name, remoteVpc],
    (h.after.spec? router).map lists = (h.before.spec? router).map lists

/-- What the parting takes for the peering's is the peering's, and where nothing has happened in
between, there was nothing of the kind before. -/
structure Recognizable (link : Link) : Prop where
  here : ∀ mid, h.later.spec? name = some mid → Recognized mid (firstSide h.before link remoteVpc)
    (seen h.parting 2 h.later remoteVpc)
  there : ∀ mid, h.later.spec? remoteVpc = some mid →
    Recognized mid (secondSide h.before link name) (seen h.parting 5 h.later name)
  free : h.Quiet link →
    (∀ spec, h.before.spec? name = some spec → Free spec (firstSide h.before link remoteVpc)) ∧
      ∀ spec, h.before.spec? remoteVpc = some spec → Free spec (secondSide h.before link name)

end History

section Ends

variable {spec mid : VpcSpec} {side : Side} {cidrs : List String}

/-- A router that still has the entry of a side holds the address of the side. -/
theorem nextHops_of_entriesFor (hslash : '/' ∉ side.connectIP.toList)
    (h : entriesFor mid side.remoteVpc = entriesFor (peeringSidePatch spec side) side.remoteVpc) :
    nextHops mid side.remoteVpc = [side.connectIP] := by
  rw [nextHops, h]
  exact nextHops_peeringSidePatch hslash

/-- Where the router has nothing but the side, the prefixes are learned of that it was laid down
for. -/
theorem seen_eq_of_recognized (hsome : side.remoteCIDRs ≠ [])
    (hcidrs : cidrsOf w.around.subnets side.remoteVpc = side.remoteCIDRs)
    (h : Recognized (peeringSidePatch spec side) side (seen faults n w side.remoteVpc)) :
    seen faults n w side.remoteVpc = side.remoteCIDRs := by
  by_cases hfault : faults n = none
  · rw [seen, if_pos hfault, hcidrs]
  · obtain ⟨c, hc⟩ := List.exists_mem_of_ne_nil _ hsome
    have hmem : routeTo c side.nextHop ∈ items (peeringSidePatch spec side).staticRoutes :=
      List.mem_append_right _ (mem_routes.mpr ⟨c, hc, rfl⟩)
    have hfar := h.far _ hmem rfl
    rw [seen, if_neg hfault] at hfar
    contradiction

/-- A router that had nothing to the prefixes is restored exactly if it was free. -/
theorem restored_iff (hslash : '/' ∉ side.connectIP.toList) (hnone : NoneTo spec side.remoteCIDRs) :
    lists (withoutSide (peeringSidePatch spec side) side.remoteVpc side.remoteCIDRs) =
      lists spec ↔ Free spec side := by
  rw [lists_withoutSide_iff hslash]
  constructor
  · intro h
    exact ⟨h.entry, fun r hr => (h.routes r hr).2⟩
  · intro h
    exact ⟨h.entry, fun r hr => ⟨hnone.routes r hr, h.routes r hr⟩, hnone.policies⟩

end Ends

theorem undoneAt_iff {h : History other i name remoteVpc linkCIDR} {router : String} {side : Side}
    {mid after : VpcSpec} (hmid : h.later.spec? router = some mid)
    (hafter : h.after.spec? router = some after) :
    h.UndoneAt router side ↔ Parted mid after side := by
  refine ⟨fun hundone => hundone mid after hmid hafter, fun hparted mid' after' hm ha => ?_⟩
  obtain rfl := mem_unique hmid hm
  obtain rfl := mem_unique hafter ha
  exact hparted

/-- Two networks that have been joined over a link are parted with everything undone exactly if
all that the parting takes for the peering's is the peering's, and it takes all of it. -/
theorem History.undone_iff (h : History other i name remoteVpc linkCIDR) :
    ∃ link, Planned other h.before name remoteVpc linkCIDR link ∧
      (h.Undone link ↔ h.Recognizable link) := by
  obtain ⟨link, hplan, hjoined⟩ := joined_of_createVpcPeering h.joins
  refine ⟨link, hplan, ?_⟩
  obtain ⟨spec, hspec⟩ := ne_none_iff_exists'.mp hplan.here
  obtain ⟨spec', hspec'⟩ := ne_none_iff_exists'.mp hplan.there
  have hhere := hjoined.here
  rw [hspec, map_some] at hhere
  have hthere := hjoined.there
  rw [hspec', map_some] at hthere
  obtain ⟨mid, hmid, hentry⟩ := h.meanwhile.here _ hhere
  obtain ⟨mid', hmid', hentry'⟩ := h.meanwhile.there _ hthere
  obtain ⟨hafter, hafter'⟩ := parted_of_deleteVpcPeering hplan.ne hmid hmid' h.parts
  have hparted : h.UndoneAt name (firstSide h.before link remoteVpc) ↔ Recognized mid
      (firstSide h.before link remoteVpc) (seen h.parting 2 h.later remoteVpc) := by
    have hhops : nextHops mid (firstSide h.before link remoteVpc).remoteVpc =
        [(firstSide h.before link remoteVpc).connectIP] :=
      nextHops_of_entriesFor link.local_slash hentry
    rw [← parted_iff hhops link.ne]
    exact undoneAt_iff hmid hafter
  have hparted' : h.UndoneAt remoteVpc (secondSide h.before link name) ↔ Recognized mid'
      (secondSide h.before link name) (seen h.parting 5 h.later name) := by
    have hhops : nextHops mid' (secondSide h.before link name).remoteVpc =
        [(secondSide h.before link name).connectIP] :=
      nextHops_of_entriesFor link.remote_slash hentry'
    rw [← parted_iff hhops link.ne.symm]
    exact undoneAt_iff hmid' hafter'
  -- where nothing has happened, both routers are restored or free together
  have hrestored (hquiet : h.Quiet link) (hrec : Recognized mid (firstSide h.before link remoteVpc)
        (seen h.parting 2 h.later remoteVpc))
      (hrec' : Recognized mid' (secondSide h.before link name) (seen h.parting 5 h.later name)) :
      ((h.after.spec? name).map lists = (h.before.spec? name).map lists ↔
        Free spec (firstSide h.before link remoteVpc)) ∧
      ((h.after.spec? remoteVpc).map lists = (h.before.spec? remoteVpc).map lists ↔
        Free spec' (secondSide h.before link name)) := by
    obtain rfl := some.inj ((hmid.symm.trans hquiet.here).trans hhere)
    obtain rfl := some.inj ((hmid'.symm.trans hquiet.there).trans hthere)
    have hseen : seen h.parting 2 h.later (firstSide h.before link remoteVpc).remoteVpc = _ :=
      seen_eq_of_recognized hplan.remoteCIDRs (by rw [hquiet.subnets]; rfl) hrec
    have hseen' : seen h.parting 5 h.later (secondSide h.before link name).remoteVpc = _ :=
      seen_eq_of_recognized hplan.localCIDRs (by rw [hquiet.subnets]; rfl) hrec'
    rw [hafter, hafter', hspec, hspec', map_some, map_some, map_some,
      map_some, some.injEq, some.injEq]
    constructor
    · rw [← restored_iff link.local_slash (hquiet.noneHere spec hspec), ← hseen]
      rfl
    · rw [← restored_iff link.remote_slash (hquiet.noneThere spec' hspec'), ← hseen']
      rfl
  constructor
  · intro hundone
    have hrec := hparted.mp hundone.here
    have hrec' := hparted'.mp hundone.there
    refine ⟨fun _ hm => mem_unique hmid hm ▸ hrec,
      fun _ hm => mem_unique hmid' hm ▸ hrec', fun hquiet => ?_⟩
    obtain ⟨hfree, hfree'⟩ := hrestored hquiet hrec hrec'
    have hlists := hundone.restored hquiet
    exact ⟨fun _ hs => mem_unique hspec hs ▸ hfree.mp (hlists _ (by simp)),
      fun _ hs => mem_unique hspec' hs ▸ hfree'.mp (hlists _ (by simp))⟩
  · intro hok
    have hrec := hok.here mid hmid
    have hrec' := hok.there mid' hmid'
    refine ⟨hparted.mpr hrec, hparted'.mpr hrec', fun hquiet router hrouter => ?_⟩
    obtain ⟨hfree, hfree'⟩ := hrestored hquiet hrec hrec'
    obtain ⟨hf, hf'⟩ := hok.free hquiet
    rw [List.mem_cons, List.mem_singleton] at hrouter
    obtain rfl | rfl := hrouter
    · exact hfree.mpr (hf spec hspec)
    · exact hfree'.mpr (hf' spec' hspec')

end Undoing

section Example

def notAnother (_ : String) : Except Failure Link := .error (.other "not a network")

/-- Two networks without peerings, one of them with two Subnets. -/
def apart : World Unit where
  clock := 2
  routers := ((∅ : Store VpcSpec).insert "shop" ⟨1, {}⟩).insert "bank" ⟨2, {}⟩
  around := { joined.around with
    subnets := { name := "bank-extra", vpc := some "bank", cidrBlock := "10.2.1.0/24" } ::
      joined.around.subnets }
  log := []

def joining : Except Failure Outcome × Nat × World Unit :=
  (createVpcPeering notAnother "shop" "bank" none).run.perform (serve ()) (fun _ => none) 0 apart

/-- The second Subnet is deleted. -/
def shrunk : World Unit := { joining.2.2 with around := joined.around }

def parting : Except Failure Outcome × Nat × World Unit :=
  (deleteVpcPeering "shop" "bank").run.perform (serve ()) (fun _ => none) 0 shrunk

def shrinking : History notAnother () "shop" "bank" none where
  before := apart
  joined := joining.2.2
  later := shrunk
  after := parting.2.2
  joining := fun _ => none
  parting := fun _ => none
  joinedAt := joining.2.1
  partedAt := parting.2.1
  joins := Prod.ext (show joining.1 = .ok .done by decide +kernel) rfl
  meanwhile := ⟨fun spec h => ⟨spec, h, rfl⟩, fun spec h => ⟨spec, h, rfl⟩⟩
  parts := Prod.ext (show parting.1 = .ok .done by decide +kernel) rfl

/-- The route to the Subnet that is gone stays, and leads over a link that is no more. -/
theorem not_undone_shrinking :
    Planned notAnother apart "shop" "bank" none newLink ∧ ¬ shrinking.Undone newLink := by
  refine ⟨⟨by decide, by decide, by decide, by decide, by decide, rfl⟩, fun h => ?_⟩
  have hleft : (parting.2.2.spec? "shop").any (fun after =>
      routeTo "10.2.1.0/24" "169.254.101.6" ∈ items after.staticRoutes) = true := by
    decide +kernel
  have hthere : (shrunk.spec? "shop").isSome = true := by decide +kernel
  obtain ⟨mid, hmid⟩ := isSome_iff_exists.mp hthere
  obtain ⟨after, hafter, hmem⟩ := (any_eq_true _ _).mp hleft
  have hroutes := (h.here mid after hmid hafter).routes
  rw [hroutes] at hmem
  exact (Keyed.mem_drop.mp (of_decide_eq_true hmem)).2 (by decide)

end Example

end Vpcs
