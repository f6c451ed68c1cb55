import KubevirtUi.Peering.Passes

/-!
# Both ends, or recorded

As long as nobody moves an object whose legs are recorded to other networks, every
end that an object has written and that still stands is recorded in the legs of
that object, under its finalizer, and its networks are those the object declares;
the exception are the ends on a router that is being deleted, which is left alone.
So whatever has been written, a rollback and a teardown find it.
-/

namespace Peering

open Interference Option

theorem Status.Records.pair {status : Status} {router remote a b : String}
    (h : status.Records router remote) (h' : status.Records a b) :
    (router = a ∧ remote = b) ∨ (router = b ∧ remote = a) := by
  rcases h with h | h <;> rcases h' with h' | h' <;> rw [h] at h' <;>
    simp only [List.cons.injEq, and_true] at h'
  · exact .inl h'
  · exact .inr h'
  · exact .inr h'.symm
  · exact .inl h'.symm

/-- The object declares this pair, in either order. -/
def PeeringObject.Declares (link : PeeringObject) (router remote : String) : Prop :=
  (router = link.a ∧ remote = link.b) ∨ (router = link.b ∧ remote = link.a)

/-- An edit leaves an object with recorded legs the networks they record. -/
def KeepsNetworks (s : State) : Step → Prop
  | .act (.editPeering name a b _) => ∀ link ∈ s.world.peerings.lookup name,
      link.value.status.legs ≠ [] → link.value.status.Records a b
  | _ => True

instance (s : State) (label : Step) : Decidable (KeepsNetworks s label) := by
  unfold KeepsNetworks
  split <;> infer_instance

/-- Recorded legs are those of the declaration, and every end that stands is
recorded or stands on a router that is going. -/
structure World.Held (w : World) : Prop where
  legs : ∀ name link, w.peerings.lookup name = some link → link.value.status.legs ≠ [] →
    link.value.status.Records link.value.a link.value.b
  ends : ∀ e ∈ w.ends, Recorded e.owner e.router e.remote w ∨ Going e.router w

variable {other : String} {link : PeeringObject}

section Preserved

variable {w : World} {name router remote : String}

theorem Recorded.putPeering (h : Recorded name router remote w)
    (hlink : ∀ old, w.peerings.lookup other = some old → old.value.finalizer = true →
      old.value.status.Records router remote →
        link.finalizer = true ∧ link.status.Records router remote) :
    Recorded name router remote (w.putPeering other link) := by
  obtain ⟨old, hold, hfin, hrec⟩ := h
  by_cases hname : name = other
  · subst hname
    obtain ⟨hfin', hrec'⟩ := hlink old hold hfin hrec
    exact ⟨_, AList.lookup_insert _, hfin', hrec'⟩
  · exact ⟨old, (AList.lookup_insert_ne hname).trans hold, hfin, hrec⟩

theorem Recorded.erasePeering (h : Recorded name router remote w) (hne : name ≠ other) :
    Recorded name router remote (w.erasePeering other) := by
  obtain ⟨old, hold, hfin, hrec⟩ := h
  exact ⟨old, (AList.lookup_erase_ne hne).trans hold, hfin, hrec⟩

namespace World.Held

theorem putPeering (h : w.Held) (hlegs : link.status.legs ≠ [] → link.status.Records link.a link.b)
    (hends : ∀ router remote, Recorded name router remote w →
      (link.finalizer = true ∧ link.status.Records router remote) ∨
        EndGone name router remote w) : (w.putPeering name link).Held := by
  refine ⟨fun other x hx => ?_, fun e he => ?_⟩
  · by_cases hname : other = name
    · subst hname
      rw [World.putPeering, AList.lookup_insert, some.injEq] at hx
      rw [← hx]
      exact hlegs
    · rw [World.putPeering, AList.lookup_insert_ne hname] at hx
      exact h.legs other x hx
  · obtain hrec | hgoing := h.ends e he
    · by_cases hname : e.owner = name
      · obtain hkeep | hgone := hends e.router e.remote (hname ▸ hrec)
        · exact .inl (hrec.putPeering fun _ _ _ _ => hkeep)
        · exact .inr (hgone (hname ▸ he))
      · obtain ⟨old, hold, hfin, hrec⟩ := hrec
        exact .inl ⟨old, (AList.lookup_insert_ne hname).trans hold, hfin, hrec⟩
    · exact .inr hgoing

theorem erasePeering (h : w.Held)
    (hends : ∀ router remote, Recorded name router remote w → EndGone name router remote w) :
    (w.erasePeering name).Held := by
  refine ⟨fun other x hx => h.legs other x (Store.lookup_of_erase hx), fun e he => ?_⟩
  obtain hrec | hgoing := h.ends e he
  · by_cases hname : e.owner = name
    · exact .inr (hends e.router e.remote (hname ▸ hrec) (hname ▸ he))
    · exact .inl (hrec.erasePeering hname)
  · exact .inr hgoing

theorem putRouter (h : w.Held) (router : String) (vpc : Vpc)
    (hdel : ∀ old, w.routers.lookup router = some old → old.value.deleting = true →
      vpc.deleting = true) : (w.putRouter router vpc).Held := by
  refine ⟨h.legs, fun e he => ?_⟩
  obtain hrec | hgoing := h.ends e (List.mem_of_mem_filter he)
  · exact .inl hrec
  · exact .inr (hgoing.putRouter hdel)

theorem eraseRouter (h : w.Held) : (w.eraseRouter router).Held := by
  refine ⟨h.legs, fun e he => ?_⟩
  obtain ⟨hmem, hne⟩ := List.mem_filter.mp he
  obtain hrec | hgoing := h.ends e hmem
  · exact .inl hrec
  · exact .inr (hgoing.eraseRouter (by simpa using hne))

theorem record_apply {vpc : Vpc} {side : Side} (h : w.Held) (hrec : Recorded name router remote w) :
    (w.record router vpc (.apply name remote side)).Held := by
  refine ⟨h.legs, fun e he => ?_⟩
  simp only [World.record] at he
  split at he
  · obtain rfl | hmem := List.mem_cons.mp he
    · exact .inl hrec
    · exact h.ends e hmem
  · exact h.ends e he

theorem adopted (h : w.Held) (link : PeeringObject) (legs : List Leg) :
    (w.adopted link legs).Held := by
  obtain ⟨claimed, heq⟩ := w.adopted_eq link legs
  rw [heq]
  exact ⟨h.legs, h.ends⟩

end World.Held

end Preserved

theorem held_act {s : State} {action : Action} (hcond : KeepsNetworks s (.act action))
    (h : s.world.Held) : (act action s.world).Held := by
  rcases act_cases action s.world with ⟨name, link, heq, hlink⟩ | ⟨name, old, hold, hnofin, heq⟩ |
    ⟨name, vpc, heq, hdel, -⟩ | ⟨name, heq⟩ | ⟨subnets, heq⟩ <;> rw [heq]
  · obtain ⟨hnone, hstatus, -⟩ | ⟨old, hold, hstatus, hfin, hnetworks⟩ := hlink
    · refine h.putPeering (fun hlegs => ?_) fun router remote hrec => ?_
      · rw [hstatus] at hlegs
        contradiction
      · obtain ⟨old, hold, -⟩ := hrec
        rw [hnone] at hold
        contradiction
    · refine h.putPeering (fun hlegs => ?_) fun router remote hrec => .inl ?_
      · rw [hstatus] at hlegs ⊢
        obtain ⟨ha, hb⟩ | ⟨linkCIDR, rfl⟩ := hnetworks
        · rw [ha, hb]
          exact h.legs name old hold hlegs
        · exact hcond old hold hlegs
      · obtain ⟨old', hold', hfin', hrec⟩ := hrec
        obtain rfl := mem_unique hold hold'
        exact ⟨hfin.trans hfin', hstatus ▸ hrec⟩
  · refine h.erasePeering fun router remote hrec => ?_
    obtain ⟨old', hold', hfin', -⟩ := hrec
    obtain rfl := mem_unique hold hold'
    rw [hnofin] at hfin'
    contradiction
  · exact h.putRouter name vpc hdel
  · exact h.eraseRouter
  · exact ⟨h.legs, h.ends⟩

/-- What is recorded for the object under its legs is gone before the object is. -/
theorem World.Held.released {w : World} (h : w.Held) {name : String}
    {current : Versioned PeeringObject} (hcurrent : w.peerings.lookup name = some current)
    (hab : EndGone name current.value.a current.value.b w)
    (hba : EndGone name current.value.b current.value.a w) {router remote : String}
    (hrec : Recorded name router remote w) : EndGone name router remote w := by
  obtain ⟨old, hold, -, hrec⟩ := hrec
  obtain rfl := mem_unique hcurrent hold
  obtain ⟨rfl, rfl⟩ | ⟨rfl, rfl⟩ := hrec.pair (h.legs name current hcurrent hrec.legs_ne_nil)
  · exact hab
  · exact hba

theorem held_commit {w : World} {name : String} {r : Request} (hgood : Good name w r)
    (h : w.Held) : (commit w r).2.Held := by
  refine commit_rule h ?_ ?_ ?_
  · rintro target link current rfl hcurrent hversion
    obtain ⟨rfl, hgood⟩ := hgood
    obtain ⟨hdel, hvalue⟩ | ⟨hvalue, hab, hba⟩ := hgood current hcurrent hversion
    · rw [hdel, hvalue]
      refine h.putPeering (h.legs target current hcurrent) fun router remote hrec => .inl ?_
      obtain ⟨old, hold, -, hrec⟩ := hrec
      obtain rfl := mem_unique hcurrent hold
      exact ⟨rfl, hrec⟩
    · rw [hvalue]
      have hgone (router remote : String) (hrec : Recorded target router remote w) :=
        h.released hcurrent hab hba hrec
      split
      · exact h.erasePeering hgone
      · exact h.putPeering (h.legs target current hcurrent)
          fun router remote hrec => .inr (hgone router remote hrec)
  · rintro target link current rfl hcurrent hversion
    obtain ⟨rfl, hgood⟩ := hgood
    obtain ⟨hfin, hplan⟩ := hgood current hcurrent hversion
    refine (h.adopted _ _).putPeering (fun hlegs => ?_) fun router remote hrec => .inl ⟨hfin, ?_⟩
    · obtain hsame | ⟨hnetworks, -⟩ := hplan
      · have hlegs' : current.value.status.legs ≠ [] := fun hnil => hlegs <| by
          simpa [Status.plan, hnil] using congrArg Prod.snd hsame
        exact (h.legs target current hcurrent hlegs').congr hsame.symm
      · exact .inl hnetworks
    · obtain ⟨old, hold, -, hrec⟩ := hrec
      rw [World.adopted_peerings] at hold
      obtain rfl := mem_unique hcurrent hold
      obtain hsame | ⟨hnetworks, -⟩ := hplan
      · exact hrec.congr hsame.symm
      · rcases hrec.pair (h.legs target current hcurrent hrec.legs_ne_nil) with
          ⟨rfl, rfl⟩ | ⟨rfl, rfl⟩
        · exact .inl hnetworks
        · exact .inr hnetworks
  · rintro router vpc purpose current rfl hcurrent hversion
    have hput := h.putRouter router { vpc.value with deleting := current.value.deleting }
      fun old hold hdeleting => by
        obtain rfl := mem_unique hcurrent hold
        exact hdeleting
    cases purpose with
    | remove owner remote => exact hput
    | apply owner remote side =>
      obtain ⟨rfl, -, hrec, -⟩ := hgood
      exact hput.record_apply hrec

/-- Every end that has been written and still stands is recorded by its object, under
the finalizer, and among the networks the object declares, unless its router is
going; so once the object is gone, no other end of it is left. -/
theorem ends_recorded {s : State} (h : Runs KeepsNetworks s) {e : WrittenEnd}
    (he : e ∈ s.world.ends) :
    (∃ link, s.world.peerings.lookup e.owner = some link ∧ link.value.finalizer = true ∧
      link.value.status.Records e.router e.remote ∧ link.value.Declares e.router e.remote) ∨
    Going e.router s.world := by
  have hheld : s.world.Held := Runs.invariant ⟨by simp, by simp⟩
    (fun _ _ hcond _ hheld => held_act hcond hheld)
    (fun _ _ _ _ _ _ _ hgood hheld => held_commit hgood hheld) h
  obtain ⟨link, hlink, hfin, hrec⟩ | hgoing := hheld.ends e he
  · refine .inl ⟨link, hlink, hfin, hrec, ?_⟩
    exact hrec.pair (hheld.legs e.owner link hlink hrec.legs_ne_nil)
  · exact .inr hgoing

/-- The first pass claims the object, the second writes both ends. -/
def established : List Step :=
  threeRouters ++ [.act (.createPeering "p" "a" "b" "" false false)] ++ pass "p" ++ pass "p"

theorem ends_recorded_established : ∃ s, Runs KeepsNetworks s ∧ ⟨"p", "b", "a"⟩ ∈ s.world.ends ∧
    ((∃ link, s.world.peerings.lookup "p" = some link ∧ link.value.finalizer = true ∧
      link.value.status.Records "b" "a" ∧ link.value.Declares "b" "a") ∨ Going "b" s.world) := by
  obtain ⟨s, hrun, hend⟩ : ∃ s, Runs KeepsNetworks s ∧ ⟨"p", "b", "a"⟩ ∈ s.world.ends :=
    ⟨play established ⟨{}, none⟩, Runs.play .refl (by decide +kernel), by decide +kernel⟩
  exact ⟨s, hrun, hend, ends_recorded hrun hend⟩

/-- The object is moved to other networks and then deleted: the ends it had before
stay, on routers that are not going. -/
def movedAway : List Step :=
  established ++ [.act (.editPeering "p" "a" "c" "")] ++ pass "p" ++
    [.act (.deletePeering "p")] ++ pass "p"

/-- The object is deleted while one of its routers is going. -/
def leftBehind : List Step :=
  established ++ [.act (.deleteRouter "b"), .act (.deletePeering "p")] ++ pass "p"

theorem ends_left : (∃ s, Runs (fun _ _ => True) s ∧ ∃ e ∈ s.world.ends,
      s.world.peerings.lookup e.owner = none ∧ ¬ Going e.router s.world) ∧
    ∃ s, Runs (fun _ _ => True) s ∧ ∃ e ∈ s.world.ends,
      s.world.peerings.lookup e.owner = none ∧ Going e.router s.world := by
  refine ⟨⟨play movedAway ⟨{}, none⟩, Runs.play .refl ?_, ⟨"p", "a", "b"⟩, ?_⟩,
    play leftBehind ⟨{}, none⟩, Runs.play .refl ?_, ⟨"p", "b", "a"⟩, ?_⟩ <;> decide +kernel

end Peering
