import KubevirtUi.Peering.Contents
import KubevirtUi.Peering.Reconcile

/-!
# What the reconciler knows between two requests

An object or a router it has read is still the same if it still has its version; a
status it has read or written is still there, because nobody else writes one; the
links of the other objects that it has listed are all there are, because nobody
else allocates one; an end it has taken off is not coming back, because nobody else
writes ends. Each of these is stable, and so survives whatever happens until the
next request.
-/

namespace Peering

open Interference AList

namespace World

/-- No version lies ahead of the clock, and an end stands on a router that has its
entry. -/
structure Sound (w : World) : Prop where
  peerings : Store.Timely w.peerings w.clock
  routers : Store.Timely w.routers w.clock
  standing : ∀ e ∈ w.ends, ∃ vpc, w.routers.lookup e.router = some vpc ∧
    vpc.value.names e.remote = true

variable {w : World}

theorem Sound.putPeering (h : w.Sound) (name : String) (link : PeeringObject) :
    (w.putPeering name link).Sound := ⟨h.peerings.insert link, h.routers.tick, h.standing⟩

theorem Sound.erasePeering (h : w.Sound) (name : String) : (w.erasePeering name).Sound :=
  ⟨h.peerings.erase.tick, h.routers.tick, h.standing⟩

theorem Sound.putRouter (h : w.Sound) (name : String) (vpc : Vpc) :
    (w.putRouter name vpc).Sound := by
  refine ⟨h.peerings.tick, h.routers.insert vpc, fun e he => ?_⟩
  obtain ⟨hmem, hstands⟩ := List.mem_filter.mp he
  by_cases hname : e.router = name
  · rw [hname]
    exact ⟨_, lookup_insert _, by simpa [hname, Vpc.names] using hstands⟩
  · obtain ⟨old, hold, hnames⟩ := h.standing e hmem
    exact ⟨old, (lookup_insert_ne hname).trans hold, hnames⟩

theorem Sound.eraseRouter (h : w.Sound) (name : String) : (w.eraseRouter name).Sound := by
  refine ⟨h.peerings.tick, h.routers.erase.tick, fun e he => ?_⟩
  obtain ⟨hmem, hname⟩ := List.mem_filter.mp he
  obtain ⟨old, hold, hnames⟩ := h.standing e hmem
  exact ⟨old, (lookup_erase_ne (by simpa using hname)).trans hold, hnames⟩

section Record

variable (w) (router : String) (vpc : Vpc) (purpose : Purpose)

@[simp] theorem record_peerings : (w.record router vpc purpose).peerings = w.peerings := by
  cases purpose <;> rfl

@[simp] theorem record_routers : (w.record router vpc purpose).routers = w.routers := by
  cases purpose <;> rfl

@[simp] theorem record_clock : (w.record router vpc purpose).clock = w.clock := by
  cases purpose <;> rfl

@[simp] theorem record_remove (owner remote : String) :
    w.record router vpc (.remove owner remote) = w := rfl

end Record

theorem Sound.record (h : w.Sound) {router : String} {vpc : Versioned Vpc}
    (hvpc : w.routers.lookup router = some vpc) (purpose : Purpose) :
    (w.record router vpc.value purpose).Sound := by
  cases purpose with
  | remove owner remote => exact h
  | apply owner remote side =>
    refine ⟨h.peerings, h.routers, fun e he => ?_⟩
    simp only [World.record] at he
    split at he
    · rename_i hnames
      obtain rfl | hmem := List.mem_cons.mp he
      · exact ⟨vpc, hvpc, hnames⟩
      · exact h.standing e hmem
    · exact h.standing e he

section Adopted

variable (w) (link : PeeringObject) (legs : List Leg)

theorem adopted_eq : ∃ claimed, w.adopted link legs = { w with claimed } := by
  unfold adopted
  split
  · split
    · exact ⟨_, rfl⟩
    · exact ⟨w.claimed, rfl⟩
  · exact ⟨w.claimed, rfl⟩

@[simp] theorem adopted_peerings : (w.adopted link legs).peerings = w.peerings := by
  obtain ⟨claimed, h⟩ := w.adopted_eq link legs
  rw [h]

@[simp] theorem adopted_routers : (w.adopted link legs).routers = w.routers := by
  obtain ⟨claimed, h⟩ := w.adopted_eq link legs
  rw [h]

@[simp] theorem adopted_clock : (w.adopted link legs).clock = w.clock := by
  obtain ⟨claimed, h⟩ := w.adopted_eq link legs
  rw [h]

@[simp] theorem adopted_ends : (w.adopted link legs).ends = w.ends := by
  obtain ⟨claimed, h⟩ := w.adopted_eq link legs
  rw [h]

theorem Sound.adopted (h : w.Sound) : (w.adopted link legs).Sound := by
  obtain ⟨claimed, heq⟩ := w.adopted_eq link legs
  rw [heq]
  exact ⟨h.peerings, h.routers, h.standing⟩

end Adopted

end World

theorem sound_act (action : Action) (w : World) (h : w.Sound) : (act action w).Sound := by
  rcases act_cases action w with ⟨name, link, heq, -⟩ | ⟨name, old, -, -, heq⟩ |
    ⟨name, vpc, heq, -⟩ | ⟨name, heq⟩ | ⟨subnets, heq⟩ <;> rw [heq]
  · exact h.putPeering name link
  · exact h.erasePeering name
  · exact h.putRouter name vpc
  · exact h.eraseRouter name
  · exact ⟨h.peerings, h.routers, h.standing⟩

theorem sound_commit (w : World) (r : Request) (h : w.Sound) : (commit w r).2.Sound := by
  refine commit_rule h (fun name link current _ _ _ => ?_) (fun name link current _ _ _ => ?_)
    fun name vpc purpose current _ _ _ => ?_
  · split
    · exact h.erasePeering name
    · exact h.putPeering name _
  · exact (World.Sound.adopted _ _ _ h).putPeering name _
  · exact (h.putRouter name _).record (lookup_insert _) purpose

theorem sound_serve (fault : Fault) (w : World) (r : Request) (h : w.Sound) :
    (serve fault w r).2.Sound := by
  rcases serve_world fault w r with heq | heq <;> rw [heq]
  · exact h
  · exact sound_commit w r h

/-- Stable under whatever the others do. -/
abbrev Lasting (P : World → Prop) : Prop := Stable act World.Sound P

/-- The copy of an object: what is found under its version is this, and the object
still has the status and the finalizer of the copy. -/
structure Reading (name : String) (link : Versioned PeeringObject) (w : World) : Prop where
  known : Store.Known w.peerings w.clock name link
  held : ∃ current, w.peerings.lookup name = some current ∧
    current.value.finalizer = true ∧ current.value.status = link.value.status

/-- The copy of a router. -/
def KnownVpc (name : String) (vpc : Versioned Vpc) (w : World) : Prop :=
  Store.Known w.routers w.clock name vpc

/-- The links held by the other objects are among those listed. -/
def HeldIn (name : String) (used : List String) (w : World) : Prop :=
  ∀ other link, other ≠ name → w.peerings.lookup other = some link →
    link.value.status.linkCIDR ≠ "" → link.value.status.linkCIDR ∈ used

/-- The router is on its way out. -/
def Going (router : String) (w : World) : Prop :=
  ∃ vpc, w.routers.lookup router = some vpc ∧ vpc.value.deleting = true

instance (router : String) (w : World) : Decidable (Going router w) :=
  decidable_of_iff (∃ vpc ∈ w.routers.lookup router, vpc.value.deleting = true) Iff.rfl

/-- The end has been taken off, unless its router is on its way out. -/
def EndGone (owner router remote : String) (w : World) : Prop :=
  ⟨owner, router, remote⟩ ∈ w.ends → Going router w

theorem lasting_known (name : String) (link : Versioned PeeringObject) :
    Lasting fun w => Store.Known w.peerings w.clock name link := by
  intro action w _ hknown
  rcases act_cases action w with ⟨other, new, heq, -⟩ | ⟨other, old, -, -, heq⟩ |
    ⟨other, vpc, heq, -⟩ | ⟨other, heq⟩ | ⟨subnets, heq⟩ <;> rw [heq]
  · exact hknown.insert new
  · exact hknown.erase.tick
  · exact hknown.tick
  · exact hknown.tick
  · exact hknown

theorem lasting_reading (name : String) (link : Versioned PeeringObject) :
    Lasting (Reading name link) := by
  rintro action w hinv ⟨hknown, current, hlookup, hfin, hstatus⟩
  refine ⟨lasting_known name link action w hinv hknown, ?_⟩
  rcases act_cases action w with ⟨other, new, heq, hnew⟩ | ⟨other, old, hold, hnofin, heq⟩ |
    ⟨other, vpc, heq, -⟩ | ⟨other, heq⟩ | ⟨subnets, heq⟩ <;> rw [heq]
  · by_cases hname : name = other
    · subst hname
      obtain ⟨hnone, -⟩ | ⟨old, hold, hstatus', hfin', -⟩ := hnew
      · rw [hlookup] at hnone
        contradiction
      · obtain rfl := Option.mem_unique hlookup hold
        exact ⟨_, lookup_insert _, hfin'.trans hfin, hstatus'.trans hstatus⟩
    · exact ⟨current, (lookup_insert_ne hname).trans hlookup, hfin, hstatus⟩
  · have hname : name ≠ other := by
      rintro rfl
      obtain rfl := Option.mem_unique hlookup hold
      rw [hfin] at hnofin
      contradiction
    exact ⟨current, (lookup_erase_ne hname).trans hlookup, hfin, hstatus⟩
  · exact ⟨current, hlookup, hfin, hstatus⟩
  · exact ⟨current, hlookup, hfin, hstatus⟩
  · exact ⟨current, hlookup, hfin, hstatus⟩

theorem lasting_knownVpc (name : String) (vpc : Versioned Vpc) : Lasting (KnownVpc name vpc) := by
  intro action w _ hknown
  rcases act_cases action w with ⟨other, new, heq, -⟩ | ⟨other, old, -, -, heq⟩ |
    ⟨other, new, heq, -⟩ | ⟨other, heq⟩ | ⟨subnets, heq⟩ <;> rw [heq]
  · exact hknown.tick
  · exact hknown.tick
  · exact hknown.insert new
  · exact hknown.erase.tick
  · exact hknown

theorem lasting_heldIn (name : String) (used : List String) : Lasting (HeldIn name used) := by
  intro action w _ hheld
  rcases act_cases action w with ⟨other, new, heq, hnew⟩ | ⟨other, old, -, -, heq⟩ |
    ⟨other, vpc, heq, -⟩ | ⟨other, heq⟩ | ⟨subnets, heq⟩ <;> rw [heq]
  · intro third link hne hlookup hlink
    by_cases hthird : third = other
    · subst hthird
      rw [World.putPeering, lookup_insert, Option.some.injEq] at hlookup
      subst hlookup
      obtain ⟨-, hstatus, -⟩ | ⟨old, hold, hstatus, -⟩ := hnew
      · rw [hstatus] at hlink
        contradiction
      · rw [hstatus] at hlink ⊢
        exact hheld third old hne hold hlink
    · rw [World.putPeering, lookup_insert_ne hthird] at hlookup
      exact hheld third link hne hlookup hlink
  · exact fun third link hne hlookup => hheld third link hne (Store.lookup_of_erase hlookup)
  · exact hheld
  · exact hheld
  · exact hheld

theorem Going.putRouter {router name : String} {w : World} {vpc : Vpc} (h : Going router w)
    (hdel : ∀ old, w.routers.lookup name = some old → old.value.deleting = true →
      vpc.deleting = true) : Going router (w.putRouter name vpc) := by
  obtain ⟨old, hold, hdeleting⟩ := h
  by_cases hname : router = name
  · subst hname
    exact ⟨_, lookup_insert _, hdel old hold hdeleting⟩
  · exact ⟨old, (lookup_insert_ne hname).trans hold, hdeleting⟩

theorem Going.eraseRouter {router name : String} {w : World} (h : Going router w)
    (hne : router ≠ name) : Going router (w.eraseRouter name) := by
  obtain ⟨old, hold, hdeleting⟩ := h
  exact ⟨old, (lookup_erase_ne hne).trans hold, hdeleting⟩

theorem EndGone.putRouter {owner router remote name : String} {w : World} {vpc : Vpc}
    (h : EndGone owner router remote w)
    (hdel : ∀ old, w.routers.lookup name = some old → old.value.deleting = true →
      vpc.deleting = true) : EndGone owner router remote (w.putRouter name vpc) :=
  fun hmem => (h (List.mem_of_mem_filter hmem)).putRouter hdel

theorem lasting_endGone (owner router remote : String) : Lasting (EndGone owner router remote) := by
  intro action w _ hgone
  rcases act_cases action w with ⟨name, new, heq, -⟩ | ⟨name, old, -, -, heq⟩ |
    ⟨name, vpc, heq, hdel, -⟩ | ⟨name, heq⟩ | ⟨subnets, heq⟩ <;> rw [heq]
  · exact hgone
  · exact hgone
  · exact hgone.putRouter hdel
  · intro hmem
    obtain ⟨hmem, hname⟩ := List.mem_filter.mp hmem
    exact (hgone hmem).eraseRouter (by simpa using hname)
  · exact hgone

end Peering
