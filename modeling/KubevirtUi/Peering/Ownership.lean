import KubevirtUi.Peering.Ends

/-!
# Whose entries are removed

The reconciler removes what is about a pair from both routers, whoever wrote it.
That is its own as long as the pair is: recorded in the legs of one object only,
from a moment on at which nothing about it stood on the routers or at which it was
adopted, and left alone by the others ever since. `Orderly` says so step by step;
in such runs nothing is removed that no peering has written or adopted, and no
end of one object by a pass over another.
-/

namespace Peering

open Interference List AList
open Option hiding mem_map

/-- The legs of the object record this pair. -/
def Holds (name router remote : String) (w : World) : Prop :=
  ∃ link ∈ w.peerings.lookup name, link.value.status.Records router remote

instance (name router remote : String) (w : World) : Decidable (Holds name router remote w) := by
  unfold Holds
  infer_instance

/-- Whatever a spec has about a recorded pair, some peering has written or adopted. -/
def KeepsOff (w : World) (router : String) (spec : VpcSpec) : Prop :=
  ∀ e ∈ w.peerings.entries, ∀ remote ∈ e.2.value.status.networks,
    e.2.value.status.Records router remote →
      ∀ item ∈ spec.contents, spec.About remote item → (router, item) ∈ w.claimed

instance (w : World) (router : String) (spec : VpcSpec) : Decidable (KeepsOff w router spec) := by
  unfold KeepsOff
  infer_instance

/-- A router without an entry for the network, or no router. -/
def Unnamed (w : World) (router remote : String) : Prop :=
  ∀ vpc ∈ w.routers.lookup router, vpc.value.names remote = false

instance (w : World) (router remote : String) : Decidable (Unnamed w router remote) := by
  unfold Unnamed
  infer_instance

/-- A pair may be recorded that no other object records, and that is adopted with the
first legs or of which the routers have nothing. -/
def Vacant (w : World) (name : String) (link : PeeringObject) (x y : String) : Prop :=
  (∀ e ∈ w.peerings.entries, e.1 ≠ name → ¬ e.2.value.status.Records x y) ∧
    ((link.adopt = true ∧ link.status.legs = []) ∨ (Unnamed w x y ∧ Unnamed w y x))

instance (w : World) (name : String) (link : PeeringObject) (x y : String) :
    Decidable (Vacant w name link x y) := by
  unfold Vacant
  infer_instance

/-- The requests that stay clear of what others have written. -/
def Careful (w : World) : Request → Prop
  | .updateStatus name link => ∀ current ∈ w.peerings.lookup name,
      current.version = link.version →
        ∀ x ∈ link.value.status.networks, ∀ y ∈ link.value.status.networks,
          link.value.status.networks = [x, y] → ¬ current.value.status.Records x y →
            Vacant w name current.value x y
  | .updateVpc router vpc (.apply _ _ side) => ∀ current ∈ w.routers.lookup router,
      current.version = vpc.version → ∀ item ∈ current.value.contents,
        side.Touches (current.value.spec.getD {}) item →
          item ∈ side.contents ∨ (router, item) ∈ w.claimed
  | .updateVpc router _ (.remove owner remote) =>
    Holds owner router remote w ∨ Unnamed w router remote
  | _ => True

instance (w : World) : (r : Request) → Decidable (Careful w r)
  | .updateStatus _ _ => by dsimp only [Careful]; infer_instance
  | .updateVpc _ _ (.apply _ _ _) => by dsimp only [Careful]; infer_instance
  | .updateVpc _ _ (.remove _ _) => by dsimp only [Careful]; infer_instance
  | .getPeering _ | .updatePeering _ _ | .listPeerings | .getVpc _ | .listVpcs | .listSubnets =>
    .isTrue trivial

/-- Steps after which whatever is about a recorded pair is still the peerings' own. -/
def Orderly (s : State) : Step → Prop
  | .act (.createRouter name spec) => KeepsOff s.world name (spec.getD {})
  | .act (.writeRouter name spec) => KeepsOff s.world name (spec.getD {})
  | .call _ => ∀ job ∈ s.request, Careful s.world job.2
  | _ => True

instance (s : State) : (label : Step) → Decidable (Orderly s label)
  | .act (.createRouter _ _) => by dsimp only [Orderly]; infer_instance
  | .act (.writeRouter _ _) => by dsimp only [Orderly]; infer_instance
  | .call _ => by dsimp only [Orderly]; infer_instance
  | .act (.createPeering _ _ _ _ _ _) | .act (.editPeering _ _ _ _) |
    .act (.annotatePeering _ _ _) | .act (.deletePeering _) | .act (.deleteRouter _) |
    .act (.removeRouter _) | .act (.setSubnets _) | .start _ | .stop => .isTrue trivial

/-- Whatever a router has about a recorded pair has been written or adopted, and a
pair is recorded by one object. -/
structure World.Owned (w : World) : Prop where
  claimed : ∀ name router remote, Holds name router remote w →
    ∀ vpc, w.routers.lookup router = some vpc → ∀ item ∈ vpc.value.contents,
      (vpc.value.spec.getD {}).About remote item → (router, item) ∈ w.claimed
  alone : ∀ name other router remote, Holds name router remote w →
    Holds other router remote w → name = other

variable {target remote : String} {link : PeeringObject} {spec : VpcSpec} {item : Item} {s : State}
  {status : Status} {side : Side} {r : Request}

theorem Holds.of_putPeering {name router : String} {w : World}
    (h : Holds name router remote (w.putPeering target link)) :
    (name = target ∧ link.status.Records router remote) ∨
      (name ≠ target ∧ Holds name router remote w) := by
  obtain ⟨x, hx, hrec⟩ := h
  by_cases hname : name = target
  · subst hname
    rw [World.putPeering, lookup_insert, mem_some_iff] at hx
    exact .inl ⟨rfl, by rwa [← hx] at hrec⟩
  · rw [World.putPeering, lookup_insert_ne hname] at hx
    exact .inr ⟨hname, x, hx, hrec⟩

theorem Holds.of_erasePeering {name router : String} {w : World}
    (h : Holds name router remote (w.erasePeering target)) : Holds name router remote w := by
  obtain ⟨x, hx, hrec⟩ := h
  exact ⟨x, Store.lookup_of_erase hx, hrec⟩

namespace World.Owned

variable {w v : World}

theorem mono (h : w.Owned)
    (hholds : ∀ name router remote, Holds name router remote v → Holds name router remote w)
    (hrouters : ∀ router vpc, v.routers.lookup router = some vpc →
      ∃ old, w.routers.lookup router = some old ∧ old.value.spec = vpc.value.spec)
    (hclaimed : ∀ x ∈ w.claimed, x ∈ v.claimed) : v.Owned := by
  refine ⟨fun name router remote hold vpc hvpc item hitem habout => ?_,
    fun name other router remote hold hold' =>
      h.alone name other router remote (hholds _ _ _ hold) (hholds _ _ _ hold')⟩
  obtain ⟨old, hlookup, hspec⟩ := hrouters router vpc hvpc
  refine hclaimed _ (h.claimed name router remote (hholds _ _ _ hold) old hlookup item ?_ ?_)
  · rwa [Vpc.contents, hspec]
  · rwa [hspec]

/-- One router has a new spec, with nothing in it about a recorded pair that has not
been written or adopted. -/
theorem router (h : w.Owned) (router : String) (vpc : Vpc) (hpeerings : v.peerings = w.peerings)
    (hrouters : v.routers = w.routers.insert router ⟨w.clock + 1, vpc⟩)
    (hclaimed : ∀ x ∈ w.claimed, x ∈ v.claimed)
    (hnew : ∀ name remote, Holds name router remote w → ∀ item ∈ vpc.contents,
      (vpc.spec.getD {}).About remote item → (router, item) ∈ v.claimed) : v.Owned := by
  have hholds (name router remote : String) (hold : Holds name router remote v) :
      Holds name router remote w := by rwa [Holds, hpeerings] at hold
  refine ⟨fun name other remote hold x hx item hitem habout => ?_,
    fun name other router remote hold hold' =>
      h.alone name other router remote (hholds _ _ _ hold) (hholds _ _ _ hold')⟩
  rw [hrouters] at hx
  by_cases hother : other = router
  · subst hother
    rw [lookup_insert, some.injEq] at hx
    subst hx
    exact hnew name remote (hholds _ _ _ hold) item hitem habout
  · rw [lookup_insert_ne hother] at hx
    exact hclaimed _ (h.claimed name other remote (hholds _ _ _ hold) x hx item hitem habout)

end World.Owned

theorem KeepsOff.claimed {w : World} {router : String} (h : KeepsOff w router spec)
    {name : String} (hold : Holds name router remote w) (hitem : item ∈ spec.contents)
    (habout : spec.About remote item) : (router, item) ∈ w.claimed := by
  obtain ⟨link, hlink, hrec⟩ := hold
  have hremote : remote ∈ link.value.status.networks := by
    rcases hrec with hrec | hrec <;> simp [hrec]
  exact h ⟨name, link⟩ (mem_lookup_iff.mp hlink) remote hremote hrec item hitem habout

/-- Steps of the others: they record nothing, and keep off what is recorded. -/
theorem owned_act {action : Action} (hcond : Orderly s (.act action)) (h : s.world.Owned) :
    (act action s.world).Owned := by
  rcases act_cases action s.world with ⟨name, link, heq, hlink⟩ | ⟨name, old, -, -, heq⟩ |
    ⟨name, vpc, heq, -, hspec⟩ | ⟨name, heq⟩ | ⟨subnets, heq⟩ <;> rw [heq]
  · refine h.mono (fun other router remote hold => ?_) (fun _ vpc hvpc => ⟨vpc, hvpc, rfl⟩)
      fun _ hx => hx
    obtain ⟨rfl, hrec⟩ | ⟨-, hold⟩ := hold.of_putPeering
    · obtain ⟨-, hstatus, -⟩ | ⟨old, hlookup, hstatus, -⟩ := hlink <;> rw [hstatus] at hrec
      · simp [Status.Records, Status.networks] at hrec
      · exact ⟨old, hlookup, hrec⟩
    · exact hold
  · exact h.mono (fun _ _ _ hold => hold.of_erasePeering) (fun _ vpc hvpc => ⟨vpc, hvpc, rfl⟩)
      fun _ hx => hx
  · refine h.router name vpc rfl rfl (fun _ hx => hx) fun other remote hold item hitem habout => ?_
    obtain ⟨old, hlookup, hsame⟩ | rfl | rfl := hspec
    · rw [Vpc.contents, ← hsame] at hitem
      rw [← hsame] at habout
      exact h.claimed other name remote hold old hlookup item hitem habout
    · exact KeepsOff.claimed hcond hold hitem habout
    · exact KeepsOff.claimed hcond hold hitem habout
  · exact h.mono (fun _ _ _ hold => hold)
      (fun _ vpc hvpc => ⟨vpc, Store.lookup_of_erase hvpc, rfl⟩) fun _ hx => hx
  · exact h.mono (fun _ _ _ hold => hold) (fun _ vpc hvpc => ⟨vpc, hvpc, rfl⟩) fun _ hx => hx

theorem mem_removable {w : World} {router : String} {vpc : Versioned Vpc}
    (hvpc : w.routers.lookup router = some vpc) (hitem : item ∈ vpc.value.contents)
    (habout : (vpc.value.spec.getD {}).About remote item) : item ∈ w.removable router remote := by
  rw [World.removable, hvpc]
  refine mem_filter.mpr ⟨hitem, ?_⟩
  rw [decide_eq_true_eq, mem_contents_removeSide]
  exact fun h => h.2 habout

theorem claimed_adopted {w : World} (link : PeeringObject) (legs : List Leg) {x : String × Item}
    (hx : x ∈ w.claimed) : x ∈ (w.adopted link legs).claimed := by
  unfold World.adopted
  split
  · split
    · exact mem_append_right _ hx
    · exact hx
  · exact hx

theorem Status.Records.legs {router : String} (h : status.Records router remote) :
    ∃ x y, status.legs = [x, y] ∧
      ((x.network = router ∧ y.network = remote) ∨ (x.network = remote ∧ y.network = router)) := by
  have hlegs {a b : String} (h : status.networks = [a, b]) :
      ∃ x y, status.legs = [x, y] ∧ x.network = a ∧ y.network = b := by
    obtain ⟨x, rest, hlegs, hx, hrest⟩ := map_eq_cons_iff.mp h
    obtain ⟨y, rest', hrest', hy, hnil⟩ := map_eq_cons_iff.mp hrest
    rw [map_eq_nil_iff] at hnil
    exact ⟨x, y, by rw [hlegs, hrest', hnil], hx, hy⟩
  obtain h | h := h
  · obtain ⟨x, y, hxy, hx, hy⟩ := hlegs h
    exact ⟨x, y, hxy, .inl ⟨hx, hy⟩⟩
  · obtain ⟨x, y, hxy, hx, hy⟩ := hlegs h
    exact ⟨x, y, hxy, .inr ⟨hx, hy⟩⟩

theorem mem_adopted {w : World} {router : String} (hadopt : link.adopt = true)
    (hfirst : link.status.legs = []) (hrec : status.Records router remote)
    (hitem : item ∈ w.removable router remote) :
    (router, item) ∈ (w.adopted link status.legs).claimed := by
  obtain ⟨x, y, hlegs, hnetworks⟩ := hrec.legs
  unfold World.adopted
  rw [if_pos ⟨hadopt, hfirst⟩, hlegs]
  simp only [mem_append, mem_map, Prod.mk.injEq]
  obtain ⟨rfl, rfl⟩ | ⟨rfl, rfl⟩ := hnetworks
  · exact .inl (.inl ⟨item, hitem, rfl, rfl⟩)
  · exact .inl (.inr ⟨item, hitem, rfl, rfl⟩)

theorem Vacant.symm {w : World} {name : String} {x y : String} (h : Vacant w name link x y) :
    Vacant w name link y x :=
  ⟨fun e he hne hrec => h.1 e he hne hrec.symm, h.2.imp_right And.symm⟩

theorem owned_updateStatus {w : World} {name : String} {current : Versioned PeeringObject}
    (h : w.Owned) (hcurrent : w.peerings.lookup name = some current)
    (hvacant : ∀ x ∈ status.networks, ∀ y ∈ status.networks, status.networks = [x, y] →
      ¬ current.value.status.Records x y → Vacant w name current.value x y) :
    ((w.adopted current.value status.legs).putPeering name
      { current.value with status }).Owned := by
  have hfree {router remote : String} (hrec : status.Records router remote)
      (hnew : ¬ Holds name router remote w) : Vacant w name current.value router remote := by
    have hnew' : ¬ current.value.status.Records router remote :=
      fun hold => hnew ⟨current, hcurrent, hold⟩
    obtain hnetworks | hnetworks := hrec
    · exact hvacant router (by simp [hnetworks]) remote (by simp [hnetworks]) hnetworks hnew'
    · exact (hvacant remote (by simp [hnetworks]) router (by simp [hnetworks]) hnetworks
        fun hold => hnew' hold.symm).symm
  have hcases {other router remote : String}
      (hold : Holds other router remote ((w.adopted current.value status.legs).putPeering name
        { current.value with status })) :
      Holds other router remote w ∨ other = name ∧ status.Records router remote ∧
          Vacant w name current.value router remote := by
    obtain ⟨rfl, hrec⟩ | ⟨-, hold⟩ := hold.of_putPeering
    · by_cases hheld : Holds other router remote w
      · exact .inl hheld
      · exact .inr ⟨rfl, hrec, hfree hrec hheld⟩
    · exact .inl (by rwa [Holds, World.adopted_peerings] at hold)
  refine ⟨fun other router remote hold vpc hvpc item hitem habout => ?_,
    fun first second router remote hold hold' => ?_⟩
  · rw [World.putPeering_routers, World.adopted_routers] at hvpc
    obtain hold | ⟨-, hrec, -, ⟨hadopt, hfirst⟩ | ⟨hunnamed, -⟩⟩ := hcases hold
    · exact claimed_adopted _ _ (h.claimed other router remote hold vpc hvpc item hitem habout)
    · exact mem_adopted hadopt hfirst hrec (mem_removable hvpc hitem habout)
    · exact absurd habout (not_about_of_not_names (hunnamed vpc hvpc) hitem)
  · have hother {other : String} (hold : Holds other router remote w)
        (hvac : Vacant w name current.value router remote) : other = name := by
      obtain ⟨link, hlink, hrec⟩ := hold
      by_contra hne
      exact hvac.1 ⟨other, link⟩ (mem_lookup_iff.mp hlink) hne hrec
    rcases hcases hold with hfirst | ⟨hfirst, -, hvac⟩ <;>
      obtain hsecond | ⟨hsecond, -, hvac'⟩ := hcases hold'
    · exact h.alone first second router remote hfirst hsecond
    · rw [hsecond, hother hfirst hvac']
    · rw [hfirst, hother hsecond hvac]
    · rw [hfirst, hsecond]

theorem owned_apply {w : World} {name router : String} {current : Versioned Vpc} {vpc : Vpc}
    (h : w.Owned) (hcurrent : w.routers.lookup router = some current)
    (hside : side.peering.remote = remote)
    (hspec : vpc.spec = some ((current.value.spec.getD {}).withSide remote side))
    (hclear : ∀ item ∈ current.value.contents, side.Touches (current.value.spec.getD {}) item →
      item ∈ side.contents ∨ (router, item) ∈ w.claimed) :
    ((w.putRouter router vpc).record router vpc (.apply name remote side)).Owned := by
  have hmine {item : Item} (hitem : item ∈ side.contents ∨ (router, item) ∈ w.claimed) :
      (router, item) ∈
        ((w.putRouter router vpc).record router vpc (.apply name remote side)).claimed := by
    obtain hitem | hitem := hitem
    · exact mem_append_left _ (mem_map_of_mem hitem)
    · exact mem_append_right _ hitem
  refine h.router router vpc (by simp) (by simp [World.putRouter])
    (fun x hx => mem_append_right _ hx) fun other m hold item hitem habout => hmine ?_
  rw [Vpc.contents, hspec, getD_some] at hitem
  rw [hspec, getD_some] at habout
  obtain hitem | ⟨hitem, habout | htouches⟩ := about_of_withSide hside hitem habout
  · exact .inl hitem
  · exact .inr (h.claimed other router m hold current hcurrent item hitem habout)
  · exact hclear item hitem htouches

theorem owned_remove {w : World} {router : String} {current : Versioned Vpc} {vpc : Vpc}
    (h : w.Owned) (hcurrent : w.routers.lookup router = some current)
    (hold : current.value.spec = some spec) (hspec : vpc.spec = some (removeSide spec remote)) :
    (w.putRouter router vpc).Owned := by
  refine h.router router vpc rfl rfl (fun _ hx => hx) fun name m hholds item hitem habout => ?_
  rw [Vpc.contents, hspec, getD_some] at hitem
  rw [hspec, getD_some] at habout
  have habout' := about_of_removeSide hitem habout
  have hitem' := (mem_contents_removeSide.mp hitem).1
  refine h.claimed name router m hholds current hcurrent item ?_ ?_
  · rwa [Vpc.contents, hold]
  · rwa [hold]

theorem owned_commit {w : World} {name : String} (hcareful : Careful w r) (hgood : Good name w r)
    (h : w.Owned) : (commit w r).2.Owned := by
  refine commit_rule h ?_ ?_ ?_
  · rintro target link current rfl hcurrent -
    split
    · exact h.mono (fun _ _ _ hold => hold.of_erasePeering) (fun _ vpc hvpc => ⟨vpc, hvpc, rfl⟩)
        fun _ hx => hx
    · refine h.mono (fun other router remote hold => ?_) (fun _ vpc hvpc => ⟨vpc, hvpc, rfl⟩)
        fun _ hx => hx
      obtain ⟨rfl, hrec⟩ | ⟨-, hold⟩ := hold.of_putPeering
      · exact ⟨current, hcurrent, hrec⟩
      · exact hold
  · rintro target link current rfl hcurrent hversion
    exact owned_updateStatus h hcurrent (hcareful current hcurrent hversion)
  · rintro router vpc purpose current rfl hcurrent hversion
    cases purpose with
    | remove owner remote =>
      obtain ⟨-, hgood⟩ := hgood
      obtain ⟨-, spec, hold, hspec⟩ := hgood current hcurrent hversion
      exact owned_remove h hcurrent hold hspec
    | apply owner remote side =>
      obtain ⟨-, hside, -, hspec⟩ := hgood
      exact owned_apply h hcurrent hside (hspec current hcurrent hversion)
        (hcareful current hcurrent hversion)

theorem Runs.owned (h : Runs Orderly s) : s.world.Owned :=
  Runs.invariant ⟨by simp, by simp [Holds]⟩ (fun _ _ hcond _ h => owned_act hcond h)
    (fun _ _ _ _ hcond hrequest _ hgood h => owned_commit (hcond _ hrequest) hgood h) h

/-- What stands on a router that a peering may write. -/
def World.contents (w : World) (router : String) : List Item :=
  ((w.routers.lookup router).map (·.value.contents)).getD []

/-- From one state to the next, a pass over an object removes nothing that no peering
has written or adopted, removes nothing at all for an object without legs, and leaves
the ends of every other object that records them. -/
structure Respects (name : String) (w v : World) : Prop where
  foreign : ∀ router item, item ∈ w.contents router → item ∉ v.contents router →
    (router, item) ∈ w.claimed
  refused : (∀ link ∈ w.peerings.lookup name, link.value.status.legs = []) →
    ∀ router, v.contents router = w.contents router
  others : ∀ e ∈ w.ends, e.owner ≠ name → Holds e.owner e.router e.remote w → e ∈ v.ends

theorem Respects.of_eq {name : String} {w v : World} (hrouters : v.routers = w.routers)
    (hends : v.ends = w.ends) : Respects name w v := by
  refine ⟨fun router item hitem hgone => ?_, fun _ router => ?_, fun e he _ _ => ?_⟩
  · rw [World.contents, hrouters] at hgone
    exact absurd hitem hgone
  · rw [World.contents, World.contents, hrouters]
  · rwa [hends]

theorem Respects.record {name router : String} {w v : World} (h : Respects name w v) (vpc : Vpc)
    (purpose : Purpose) : Respects name w (v.record router vpc purpose) := by
  have hcontents (other : String) :
      (v.record router vpc purpose).contents other = v.contents other := by
    rw [World.contents, World.record_routers, World.contents]
  refine ⟨fun other item hitem hgone => h.foreign other item hitem (by rwa [hcontents] at hgone),
    fun hlegs other => by rw [hcontents, h.refused hlegs other], fun e he hne hold => ?_⟩
  have hmem := h.others e he hne hold
  cases purpose with
  | remove owner remote => exact hmem
  | apply owner remote side =>
    simp only [World.record]
    split
    · exact mem_cons_of_mem _ hmem
    · exact hmem

section Router

variable {w : World} {name router : String} {current : Versioned Vpc} {vpc : Vpc}

theorem contents_of_lookup (h : w.routers.lookup router = some current) :
    w.contents router = current.value.contents := by
  rw [World.contents, h]
  rfl

theorem contents_putRouter (other : String) : (w.putRouter router vpc).contents other =
    if other = router then vpc.contents else w.contents other := by
  unfold World.contents World.putRouter
  split
  · rename_i h
    rw [h, lookup_insert]
    rfl
  · rename_i h
    rw [lookup_insert_ne h]

theorem Respects.putRouter (hcurrent : w.routers.lookup router = some current)
    (hforeign : ∀ item ∈ current.value.contents, item ∉ vpc.contents →
      (router, item) ∈ w.claimed)
    (hrefused : (∀ link ∈ w.peerings.lookup name, link.value.status.legs = []) →
      vpc.contents = current.value.contents)
    (hothers : ∀ e ∈ w.ends, e.router = router → e.owner ≠ name →
      Holds e.owner router e.remote w → vpc.names e.remote = true) :
    Respects name w (w.putRouter router vpc) := by
  refine ⟨fun other item hitem hgone => ?_, fun hlegs other => ?_, fun e he hne hold => ?_⟩
  · rw [contents_putRouter] at hgone
    split at hgone
    · rename_i h
      rw [h, contents_of_lookup hcurrent] at hitem
      rw [h]
      exact hforeign item hitem hgone
    · exact absurd hitem hgone
  · rw [contents_putRouter]
    split
    · rename_i h
      rw [h, contents_of_lookup hcurrent, hrefused hlegs]
    · rfl
  · refine mem_filter.mpr ⟨he, ?_⟩
    by_cases hrouter : e.router = router
    · simpa [hrouter, Vpc.names] using hothers e he hrouter hne (hrouter ▸ hold)
    · simp [hrouter]

theorem respects_apply (hsound : w.Sound) (h : w.Owned)
    (hcurrent : w.routers.lookup router = some current) (hside : side.peering.remote = remote)
    (hspec : vpc.spec = some ((current.value.spec.getD {}).withSide remote side))
    (hrec : Recorded name router remote w)
    (hclear : ∀ item ∈ current.value.contents, side.Touches (current.value.spec.getD {}) item →
      item ∈ side.contents ∨ (router, item) ∈ w.claimed) :
    Respects name w (w.putRouter router vpc) := by
  obtain ⟨link, hlink, -, hrec⟩ := hrec
  have hcontents : vpc.contents = ((current.value.spec.getD {}).withSide remote side).contents := by
    rw [Vpc.contents, hspec, getD_some]
  refine Respects.putRouter hcurrent (fun item hitem hgone => ?_) (fun hlegs => ?_)
    fun e he hrouter _ _ => ?_
  · rw [hcontents] at hgone
    obtain hkept | habout | htouches := kept_withSide remote side hitem
    · exact absurd hkept hgone
    · exact h.claimed name router remote ⟨link, hlink, hrec⟩ current hcurrent item hitem habout
    · exact (hclear item hitem htouches).resolve_left fun hmine => hgone (side_mem_withSide hmine)
  · exact absurd (hlegs link hlink) hrec.legs_ne_nil
  · obtain ⟨vpc', hvpc, hnames⟩ := hsound.standing e he
    rw [hrouter, hcurrent, some.injEq] at hvpc
    rw [← hvpc] at hnames
    obtain ⟨entry, hentry, hremote⟩ := names_iff.mp hnames
    rw [Vpc.names, hspec, getD_some, names_iff]
    obtain hkept | habout | htouches := kept_withSide remote side hentry
    · exact ⟨entry, hkept, hremote⟩
    · exact ⟨side.peering, side_mem_withSide (entry_mem_side.mpr rfl), by
        rw [hside, ← hremote]
        exact habout.symm⟩
    · exact htouches.elim

theorem respects_remove (hsound : w.Sound) (h : w.Owned)
    (hcurrent : w.routers.lookup router = some current) (hold : current.value.spec = some spec)
    (hspec : vpc.spec = some (removeSide spec remote))
    (hclear : Holds name router remote w ∨ Unnamed w router remote) :
    Respects name w (w.putRouter router vpc) := by
  have hcontents : vpc.contents = (removeSide spec remote).contents := by
    rw [Vpc.contents, hspec, getD_some]
  have hcontents' : current.value.contents = spec.contents := by
    rw [Vpc.contents, hold, getD_some]
  have hunnamed (hfree : Unnamed w router remote) : spec.names remote = false := by
    have hnames := hfree current hcurrent
    rwa [Vpc.names, hold, getD_some] at hnames
  refine Respects.putRouter hcurrent (fun item hitem hgone => ?_) (fun hlegs => ?_)
    fun e he hrouter hne hholds => ?_
  · have hitem' : item ∈ spec.contents := hcontents' ▸ hitem
    have habout : spec.About remote item := by
      by_contra hnot
      exact hgone (hcontents ▸ mem_contents_removeSide.mpr ⟨hitem', hnot⟩)
    obtain hmine | hfree := hclear
    · refine h.claimed name router remote hmine current hcurrent item hitem ?_
      rwa [hold]
    · exact absurd habout (not_about_of_not_names (hunnamed hfree) hitem')
  · obtain ⟨link, hlink, hrec⟩ | hfree := hclear
    · exact absurd (hlegs link hlink) (Status.Records.legs_ne_nil hrec)
    · rw [hcontents, hcontents', contents_removeSide_of_not_names (hunnamed hfree)]
  · obtain ⟨vpc', hvpc, hnames⟩ := hsound.standing e he
    rw [hrouter, hcurrent, some.injEq] at hvpc
    rw [← hvpc, Vpc.names, hold, getD_some] at hnames
    by_cases hremote : e.remote = remote
    · rw [hremote] at hnames hholds
      obtain hmine | hfree := hclear
      · exact absurd (h.alone _ _ router remote hholds hmine) hne
      · rw [hunnamed hfree] at hnames
        contradiction
    · obtain ⟨entry, hentry, hentryRemote⟩ := names_iff.mp hnames
      rw [Vpc.names, hspec, getD_some, names_iff]
      refine ⟨entry, mem_contents_removeSide.mpr ⟨hentry, fun habout => hremote ?_⟩, hentryRemote⟩
      rw [← hentryRemote]
      exact habout

end Router

theorem respects_commit {w : World} {name : String} (hsound : w.Sound) (hcareful : Careful w r)
    (hgood : Good name w r) (h : w.Owned) : Respects name w (commit w r).2 := by
  refine commit_rule (Respects.of_eq rfl rfl) (fun target link current _ _ _ => ?_)
    (fun target link current _ _ _ => ?_) ?_
  · split <;> exact Respects.of_eq rfl rfl
  · exact Respects.of_eq (by simp) (by simp [World.putPeering])
  · rintro router vpc purpose current rfl hcurrent hversion
    cases purpose with
    | remove owner remote =>
      obtain ⟨rfl, hgood⟩ := hgood
      obtain ⟨-, spec, hold, hspec⟩ := hgood current hcurrent hversion
      exact respects_remove hsound h hcurrent hold hspec hcareful
    | apply owner remote side =>
      obtain ⟨rfl, hside, hrec, hspec⟩ := hgood
      refine Respects.record ?_ _ _
      exact respects_apply hsound h hcurrent hside (hspec current hcurrent hversion) hrec
        (hcareful current hcurrent hversion)

/-- In an orderly run no request removes what no peering has written or adopted, none
made for an object without legs changes a router, and none takes an end off that
another object records. -/
theorem pass_respects {s t : State} {fault : Fault} {name : String} {r : Request}
    (h : Runs Orderly s) (hcond : Orderly s (.call fault)) (hrequest : s.request = some (name, r))
    (hstep : step s (.call fault) = some t) : Respects name s.world t.world := by
  have hworld : t.world = (serve fault s.world r).2 := by
    unfold State.request at hrequest
    split at hrequest
    · rename_i job r' k hbusy
      simp only [some.injEq, Prod.mk.injEq] at hrequest
      obtain ⟨rfl, rfl⟩ := hrequest
      simp only [step, Interference.next, hbusy, some.injEq] at hstep
      rw [← hstep]
    · contradiction
  rw [hworld]
  rcases serve_world fault s.world r with heq | heq <;> rw [heq]
  · exact Respects.of_eq rfl rfl
  · exact respects_commit h.sound (hcond _ hrequest) (h.good hrequest) h.owned

/-- An established peering on its way out: its first half is about to be taken off. -/
def tearingDown : List Step :=
  established ++ [.act (.deletePeering "p"), .start "p", .call .none, .call .none]

theorem pass_respects_tearingDown : ∃ (s t : State) (r : Request), Runs Orderly s ∧
    s.request = some ("p", r) ∧ s.world.contents "a" ≠ t.world.contents "a" ∧
      Respects "p" s.world t.world := by
  obtain ⟨s, hs⟩ : ∃ s, s = play tearingDown ⟨{}, none⟩ := ⟨_, rfl⟩
  have hrun : Runs Orderly s := hs ▸ Runs.play .refl (by decide +kernel)
  have hcond : Orderly s (.call .none) := hs ▸ (by decide +kernel)
  have hname : s.request.map (·.1) = some "p" := hs ▸ (by decide +kernel)
  obtain ⟨⟨name, r⟩, hrequest, rfl⟩ := map_eq_some_iff.mp hname
  have hsome : (step s (.call .none)).isSome = true := hs ▸ (by decide +kernel)
  obtain ⟨t, hstep⟩ := isSome_iff_exists.mp hsome
  have hchanged : ((step s (.call .none)).map (·.world.contents "a")) ≠
      some (s.world.contents "a") := hs ▸ (by decide +kernel)
  refine ⟨s, t, r, hrun, hrequest, fun heq => hchanged ?_, pass_respects hrun hcond hrequest hstep⟩
  rw [hstep, map_some, heq]

/-- An entry that the product has written. -/
def productEntry : PeeringEntry :=
  { remoteVpc := some "b", localConnectIP := some "169.254.101.1/30" }

/-- The product has written a pair; an object for it is refused and deleted. -/
def refusedAndDeleted : List Step :=
  [.act (.createRouter "a" (some { vpcPeerings := some [productEntry] })),
    .act (.createRouter "b" none), .act (.createPeering "p" "a" "b" "" false false)] ++
    pass "p" ++ pass "p" ++ [.act (.deletePeering "p"), .start "p", .call .none, .call .none]

/-- A second object for an established pair is refused and deleted. -/
def secondDeleted : List Step :=
  established ++ [.act (.createPeering "q" "a" "b" "" false false)] ++ pass "q" ++ pass "q" ++
    [.act (.deletePeering "q"), .start "q", .call .none, .call .none]

/-- A refused object is taken down like any other: the product's entry goes, and so
does the end of the object that holds the pair. -/
theorem refused_removes : (∃ s t : State, Runs (fun _ _ => True) s ∧ step s (.call .none) = some t ∧
      (s.request.map (·.1) = some "p" ∧
        ∀ link ∈ s.world.peerings.lookup "p", link.value.status.legs = []) ∧
      .entry productEntry ∈ s.world.contents "a" ∧ .entry productEntry ∉ t.world.contents "a" ∧
      s.world.claimed = []) ∧
    ∃ s t : State, Runs (fun _ _ => True) s ∧ step s (.call .none) = some t ∧
      s.request.map (·.1) = some "q" ∧ Holds "p" "a" "b" s.world ∧
      ⟨"p", "a", "b"⟩ ∈ s.world.ends ∧ ⟨"p", "a", "b"⟩ ∉ t.world.ends := by
  have hproduct : (step (play refusedAndDeleted ⟨{}, none⟩) (.call .none)).any
      fun t => .entry productEntry ∉ t.world.contents "a" := by decide +kernel
  have hsecond : (step (play secondDeleted ⟨{}, none⟩) (.call .none)).any
      fun t => ⟨"p", "a", "b"⟩ ∉ t.world.ends := by decide +kernel
  obtain ⟨t, ht, hgone⟩ := (any_eq_true _ _).mp hproduct
  obtain ⟨u, hu, hend⟩ := (any_eq_true _ _).mp hsecond
  refine ⟨⟨play refusedAndDeleted ⟨{}, none⟩, t, Runs.play .refl ?_, ht, ?_, ?_,
    of_decide_eq_true hgone, ?_⟩, play secondDeleted ⟨{}, none⟩, u, Runs.play .refl ?_, hu, ?_, ?_,
    ?_, of_decide_eq_true hend⟩ <;> decide +kernel

end Peering
