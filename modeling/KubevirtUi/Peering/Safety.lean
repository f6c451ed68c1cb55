import KubevirtUi.Peering.Knowledge

/-!
# What every request of a pass is entitled to

`Good` says, request by request, what the reconciler knows at the moment a write
is carried out: that the object it claims is not going, that both ends are off
when it lets an object go, that a plan it records is for the networks the object
has and over a link chosen among those free, and that a half it writes is recorded
in the legs. Every pass makes only good requests, wherever it is stopped and
whatever the others do meanwhile.
-/

namespace Peering

open Interference

/-- What is planned: the link, and who gets which address. -/
def Status.plan (status : Status) : String × List (String × String) :=
  (status.linkCIDR, status.legs.map fun leg => (leg.network, leg.connectIP))

/-- The two networks of the legs, in the order of the plan. -/
def Status.networks (status : Status) : List String := status.legs.map (·.network)

/-- The legs record this pair, in either order. -/
def Status.Records (status : Status) (router remote : String) : Prop :=
  status.networks = [router, remote] ∨ status.networks = [remote, router]

instance (status : Status) (router remote : String) : Decidable (status.Records router remote) :=
  inferInstanceAs (Decidable (_ ∨ _))

/-- The object is held by the finalizer, and its legs record this pair. -/
def Recorded (name router remote : String) (w : World) : Prop :=
  ∃ link, w.peerings.lookup name = some link ∧ link.value.finalizer = true ∧
    link.value.status.Records router remote

theorem Status.networks_eq (status : Status) : status.networks = status.plan.2.map (·.1) := by
  simp [networks, plan]

variable {router remote : String} {w : World}

theorem Status.Records.congr {s s' : Status} (hplan : s.plan = s'.plan)
    (h : s.Records router remote) : s'.Records router remote := by
  rwa [Status.Records, Status.networks_eq, ← hplan, ← Status.networks_eq]

theorem Status.Records.legs_ne_nil {status : Status} (h : status.Records router remote) :
    status.legs ≠ [] := by
  intro hnil
  simp [Status.Records, Status.networks, hnil] at h

/-- Where the link of a plan comes from. -/
inductive Chosen (name : String) (link : PeeringObject) (w : World) (chosen : Link) : Prop where
  | pinned : link.linkCIDR ≠ "" → parse link.linkCIDR = .ok chosen → Chosen name link w chosen
  | kept : link.status.linkCIDR ≠ "" → parse link.status.linkCIDR = .ok chosen →
      Chosen name link w chosen
  | allocated (used : List String) : link.linkCIDR = "" → link.status.linkCIDR = "" →
      allocate used = .ok chosen → HeldIn name used w → Chosen name link w chosen

/-- A plan for the networks of the object. -/
def NewPlan (name : String) (link : PeeringObject) (status : Status) (w : World) : Prop :=
  status.networks = [link.a, link.b] ∧ ∃ chosen, status.linkCIDR = chosen.cidr ∧
    Chosen name link w chosen

/-- What is so when a request is carried out. -/
def Good (name : String) (w : World) : Request → Prop
  | .updatePeering target link => target = name ∧
      ∀ current, w.peerings.lookup name = some current → current.version = link.version →
        (current.value.deleting = false ∧ link.value = { current.value with finalizer := true }) ∨
        (link.value = { current.value with finalizer := false } ∧
          EndGone name current.value.a current.value.b w ∧
          EndGone name current.value.b current.value.a w)
  | .updateStatus target link => target = name ∧
      ∀ current, w.peerings.lookup name = some current → current.version = link.version →
        current.value.finalizer = true ∧
        (link.value.status.plan = current.value.status.plan ∨
          NewPlan name current.value link.value.status w)
  | .updateVpc router vpc (.apply owner remote side) => owner = name ∧
      side.peering.remote = remote ∧ Recorded name router remote w ∧
      ∀ current, w.routers.lookup router = some current → current.version = vpc.version →
        vpc.value.spec = some ((current.value.spec.getD {}).withSide remote side)
  | .updateVpc router vpc (.remove owner remote) => owner = name ∧
      ∀ current, w.routers.lookup router = some current → current.version = vpc.version →
        current.value.deleting = false ∧ ∃ spec, current.value.spec = some spec ∧
          vpc.value.spec = some (removeSide spec remote)
  | _ => True

/-- A program of the pass over `name` makes good requests only. -/
abbrev Ensures (name : String) {α : Type} (P : World → Prop) (p : Pass α)
    (Q : α → World → Prop) : Prop :=
  Triple serve act World.Sound (fun w r _ => Good name w r) P p Q

section Rules

variable {name : String} {α β : Type} {P : World → Prop}

variable {p : Pass α} {Q : α → World → Prop}

theorem Ensures.bind {f : α → Pass β} {R : β → World → Prop} (hp : Ensures name P p Q)
    (hf : ∀ a, Ensures name (Q a) (f a) R) : Ensures name P (p >>= f) R :=
  Triple.bind sound_serve hp hf

theorem Ensures.pure {a : α} (hP : Lasting P) (h : ∀ w, w.Sound → P w → Q a w) :
    Ensures name P (Pure.pure a : Pass α) Q :=
  Triple.pure sound_act hP h

theorem Ensures.weaken {P' : World → Prop} (h : Ensures name P p Q) (hP : ∀ w, P' w → P w) :
    Ensures name P' p Q :=
  Triple.pre h fun w _ => hP w

/-- A request that only reads: everything known is still known, and the answer says
more. -/
theorem Ensures.read {r : Request} (hread : ∀ w, (commit w r).2 = w) (hgood : ∀ w, Good name w r)
    (hP : Lasting P) {Q : r.Response → World → Prop} (hQ : ∀ x, Lasting (Q x))
    (hlearn : ∀ w, w.Sound → Q (commit w r).1 w) (hfail : ∀ w text, Q (.error (.failed text)) w) :
    Ensures name P (ask r) fun x w => P w ∧ Q x w := by
  have hworld (w : World) (fault : Fault) : (serve fault w r).2 = w := by
    rcases serve_world fault w r with h | h <;> rw [h]
    exact hread w
  refine .ask sound_act sound_serve hP (fun x => hP.and (hQ x)) fun w fault hinv hw => ?_
  rw [hworld]
  refine ⟨hgood w, hw, ?_⟩
  cases fault with
  | none => exact hlearn w hinv
  | failed text => exact hfail w text
  | lost text => exact hfail w text

theorem Ensures.glance {r : Request} (hread : ∀ w, (commit w r).2 = w)
    (hgood : ∀ w, Good name w r) (hP : Lasting P) : Ensures name P (ask r) fun _ => P :=
  Triple.conseq
    (Ensures.read hread hgood hP (Q := fun _ _ => True) (fun _ => Stable.const True)
      (fun _ _ => trivial) fun _ _ => trivial)
    (fun _ _ h => h) fun _ _ _ h => h.1

end Rules

/-- What is known of a router after it has been asked for. -/
def Asked (router : String) : Except ApiError (Versioned Vpc) → World → Prop
  | .ok vpc, w => KnownVpc router vpc w ∧ (vpc.value.deleting = true ∨ vpc.value.spec = none →
      ∀ owner remote, EndGone owner router remote w)
  | .error .notFound, w => ∀ owner remote, EndGone owner router remote w
  | .error _, _ => True

theorem lasting_asked (router : String) (x : Except ApiError (Versioned Vpc)) :
    Lasting (Asked router x) := by
  intro action w hinv h
  match x, h with
  | .ok vpc, h =>
    exact ⟨lasting_knownVpc router vpc action w hinv h.1, fun hgone owner remote =>
      lasting_endGone owner router remote action w hinv (h.2 hgone owner remote)⟩
  | .error .notFound, h =>
    exact fun owner remote => lasting_endGone owner router remote action w hinv (h owner remote)
  | .error .conflict, _ => trivial
  | .error (.failed _), _ => trivial

theorem asked_commit (w : World) (h : w.Sound) (router : String) :
    Asked router (commit w (.getVpc router)).1 w := by
  rw [commit]
  cases hlookup : w.routers.lookup router with
  | none =>
    intro owner remote hmem
    obtain ⟨vpc, hvpc, -⟩ := h.standing _ hmem
    rw [hlookup] at hvpc
    contradiction
  | some vpc =>
    refine ⟨h.routers.known hlookup, fun hgoing owner remote hmem => ⟨vpc, hlookup, ?_⟩⟩
    obtain ⟨vpc', hvpc, hnames⟩ := h.standing _ hmem
    obtain rfl := Option.mem_unique hlookup hvpc
    obtain hdel | hspec := hgoing
    · exact hdel
    · simp [Vpc.names, VpcSpec.names, hspec, items] at hnames

theorem getVpc_ensures {name : String} {P : World → Prop} (hP : Lasting P) :
    Ensures name P (ask (.getVpc router)) fun x w => P w ∧ Asked router x w :=
  Ensures.read (fun w => commit_getVpc_world w router) (fun _ => trivial) hP
    (lasting_asked router) (fun w h => asked_commit w h router) fun _ _ => trivial

theorem Reading.updateVpc {name : String} {link : Versioned PeeringObject}
    (h : Reading name link w) (fault : Fault) (router : String) (vpc : Versioned Vpc)
    (purpose : Purpose) : Reading name link (serve fault w (.updateVpc router vpc purpose)).2 := by
  rcases serve_world fault w (.updateVpc router vpc purpose) with heq | heq <;> rw [heq]
  · exact h
  · rcases commit_updateVpc_world router vpc purpose with heq | ⟨current, -, -, heq⟩ <;> rw [heq]
    · exact h
    · exact ⟨by simpa using h.known.tick, by simpa using h.held⟩

theorem Reading.recorded {name : String} {link : Versioned PeeringObject}
    (h : Reading name link w) (hrec : link.value.status.Records router remote) :
    Recorded name router remote w := by
  obtain ⟨current, hlookup, hfin, hstatus⟩ := h.held
  exact ⟨current, hlookup, hfin, by rwa [hstatus]⟩

theorem applyHalf_ensures {name : String} {link : Versioned PeeringObject} {side : Side}
    (hside : side.peering.remote = remote) (hrec : link.value.status.Records router remote) :
    Ensures name (Reading name link) (applyHalf name router remote side)
      fun _ => Reading name link := by
  have hlasting := lasting_reading name link
  refine .bind (getVpc_ensures hlasting) fun x => ?_
  obtain err | vpc := x
  · exact .pure (hlasting.and (lasting_asked router _)) fun w _ h => h.1
  · dsimp only
    split
    · exact .pure (hlasting.and (lasting_asked router _)) fun w _ h => h.1
    · rename_i spec hspec
      refine .ask sound_act sound_serve (hlasting.and (lasting_asked router _))
        (fun _ => hlasting) fun w fault hinv hw => ⟨?_, hw.1.updateVpc fault router _ _⟩
      refine ⟨rfl, hside, hw.1.recorded hrec, fun current hcurrent hversion => ?_⟩
      obtain rfl := hw.2.1.2 current hcurrent hversion
      unfold applySide at hspec
      split at hspec
      · contradiction
      · rw [← hspec]

/-- Known however routers are written, as long as no deletion of one is undone. -/
def Steady (P : World → Prop) : Prop :=
  Lasting P ∧ ∀ (w : World) (router : String) (vpc : Vpc), P w →
    (∀ old, w.routers.lookup router = some old → old.value.deleting = true →
      vpc.deleting = true) → P (w.putRouter router vpc)

theorem steady_reading (name : String) (link : Versioned PeeringObject) :
    Steady (Reading name link) :=
  ⟨lasting_reading name link, fun _ _ _ h _ => ⟨h.known.tick, h.held⟩⟩

theorem Steady.and_endGone {P : World → Prop} (h : Steady P) (owner router remote : String) :
    Steady fun w => P w ∧ EndGone owner router remote w :=
  ⟨h.1.and (lasting_endGone owner router remote),
    fun w name vpc hw hdel => ⟨h.2 w name vpc hw.1 hdel, hw.2.putRouter hdel⟩⟩

theorem Steady.updateVpc {P : World → Prop} (hP : Steady P) (h : P w) (fault : Fault)
    (router owner remote : String) (vpc : Versioned Vpc) :
    P (serve fault w (.updateVpc router vpc (.remove owner remote))).2 := by
  rcases serve_world fault w (.updateVpc router vpc (.remove owner remote)) with heq | heq <;>
    rw [heq]
  · exact h
  rcases commit_updateVpc_world router vpc (.remove owner remote) with
    heq | ⟨current, hcurrent, -, heq⟩ <;> rw [heq]
  · exact h
  · refine hP.2 w router _ h fun old hold hdeleting => ?_
    obtain rfl := Option.mem_unique hcurrent hold
    exact hdeleting

theorem endGone_updateVpc {fault : Fault} {owner : String} {vpc : Versioned Vpc}
    (hnames : vpc.value.names remote = false)
    (hok : (serve fault w (.updateVpc router vpc (.remove owner remote))).1 = .ok ()) :
    EndGone owner router remote
      (serve fault w (.updateVpc router vpc (.remove owner remote))).2 := by
  intro hmem
  obtain ⟨current, heq⟩ := commit_updateVpc_ok (serve_ok hok)
  rw [heq, World.record_remove] at hmem
  obtain ⟨-, hstands⟩ := List.mem_filter.mp hmem
  rw [Vpc.names] at hnames
  simp [hnames] at hstands

/-- Taking a half back: what was known is still known, and once it is reported done
the end is gone. -/
theorem removeHalf_ensures {name : String} {P : World → Prop} (hP : Steady P) :
    Ensures name P (removeHalf name router remote)
      fun x w => P w ∧ (x = .ok () → EndGone name router remote w) := by
  have hasked (x) := hP.1.and (lasting_asked router x)
  refine .bind (getVpc_ensures hP.1) fun x => ?_
  match x with
  | .error .notFound => exact .pure (hasked _) fun w _ h => ⟨h.1, fun _ => h.2 name remote⟩
  | .error .conflict => exact .pure (hasked _) fun w _ h => ⟨h.1, by simp⟩
  | .error (.failed text) => exact .pure (hasked _) fun w _ h => ⟨h.1, by simp⟩
  | .ok vpc =>
    dsimp only
    split
    · rename_i hdel
      exact .pure (hasked _) fun w _ h => ⟨h.1, fun _ => h.2.2 (.inl hdel) name remote⟩
    rename_i hdel
    cases hspec : vpc.value.spec with
    | none =>
      exact .pure (hasked _) fun w _ h =>
        ⟨h.1, fun _ => h.2.2 (.inr hspec) name remote⟩
    | some spec =>
      refine .ask sound_act sound_serve (hasked _) (fun x => hP.1.and ?_)
        fun w fault _ hw => ⟨⟨rfl, fun current hcurrent hversion => ?_⟩,
          hP.updateVpc hw.1 fault router name remote _,
          endGone_updateVpc (names_removeSide spec remote)⟩
      · exact fun a w hinv h hx => lasting_endGone name router remote a w hinv (h hx)
      · obtain rfl := hw.2.1.2 current hcurrent hversion
        exact ⟨by simpa using hdel, spec, hspec, rfl⟩

@[simp] theorem plan_setApplied (link : PeeringObject) (index : Nat) (applied : Bool) :
    (link.setApplied index applied).status.plan = link.status.plan := by
  simp only [Status.plan, PeeringObject.setApplied, Prod.mk.injEq, true_and]
  refine List.ext_getElem? fun i => ?_
  rw [List.getElem?_map, List.getElem?_map, List.getElem?_modify]
  cases link.status.legs[i]? with
  | none => rfl
  | some leg => by_cases h : index = i <;> simp [h]

/-- The same object with another status, in which the plan is still the same. -/
structure Amends (before link : PeeringObject) : Prop where
  plan : link.status.plan = before.status.plan
  rest : link = { before with status := link.status }

namespace Amends

variable {before link : PeeringObject}

theorem refl (link : PeeringObject) : Amends link link := ⟨rfl, rfl⟩

section

variable (h : Amends before link)

include h

theorem trans {last : PeeringObject} (h' : Amends link last) : Amends before last := by
  refine ⟨h'.plan.trans h.plan, ?_⟩
  rw [h'.rest, h.rest]

theorem setAccepted (ok : Bool) (reason message : String) :
    Amends before (link.setAccepted ok reason message) := h.trans ⟨rfl, rfl⟩

theorem setEstablished (ok : Bool) (reason message : String) :
    Amends before (link.setEstablished ok reason message) := h.trans ⟨rfl, rfl⟩

theorem setTraffic (condition : Condition) :
    Amends before (link.setTraffic condition) := h.trans ⟨rfl, rfl⟩

theorem observe : Amends before link.observe := h.trans ⟨rfl, rfl⟩

theorem setApplied (index : Nat) (applied : Bool) : Amends before (link.setApplied index applied) :=
  h.trans ⟨plan_setApplied link index applied, rfl⟩

end

end Amends

/-- A status that is reported written has been written, over the object read. -/
theorem commit_updateStatus_ok {name : String} {link copy : Versioned PeeringObject} {v : World}
    (h : commit w (.updateStatus name link) = (.ok copy, v)) :
    ∃ current, w.peerings.lookup name = some current ∧ current.version = link.version ∧
      copy = ⟨w.clock + 1, { current.value with status := link.value.status }⟩ ∧
      v = (w.adopted current.value link.value.status.legs).putPeering name copy.value := by
  rw [commit] at h
  cases hlookup : w.peerings.lookup name with
  | none => simp [hlookup] at h
  | some current =>
    by_cases hversion : current.version = link.version
    · simp only [hlookup, hversion, ne_eq, not_true_eq_false, if_false, Prod.mk.injEq] at h
      have hcopy := Except.ok.inj h.1
      exact ⟨current, rfl, hversion, hcopy.symm, by rw [← h.2, ← hcopy]⟩
    · simp [hlookup, hversion] at h

/-- What is known once a status has been written, if it has. -/
def Updated (name : String) (link : PeeringObject) (x : Except ApiError (Versioned PeeringObject))
    (w : World) : Prop :=
  ∀ copy, x = .ok copy → copy.value = link ∧ Reading name copy w

theorem lasting_updated (name : String) (link : PeeringObject)
    (x : Except ApiError (Versioned PeeringObject)) : Lasting (Updated name link x) := by
  intro a w hinv h copy hcopy
  exact ⟨(h copy hcopy).1, lasting_reading name copy a w hinv (h copy hcopy).2⟩

theorem updateStatus_ensures {name : String} {version : Nat} {link before : PeeringObject}
    {P : World → Prop} (hP : Lasting P) (hread : ∀ w, P w → Reading name ⟨version, before⟩ w)
    (hrest : link = { before with status := link.status })
    (hplan : ∀ w, P w → link.status.plan = before.status.plan ∨
      NewPlan name before link.status w) :
    Ensures name P (updateStatus name version link before) (Updated name link) := by
  rw [updateStatus]
  by_cases heq : link.status = before.status
  · rw [if_pos heq]
    have hlink : link = before := by rw [hrest, heq]
    refine .pure hP fun w _ h copy hcopy => ?_
    rw [← Except.ok.inj hcopy, hlink]
    exact ⟨rfl, hread w h⟩
  · rw [if_neg heq]
    refine .ask sound_act sound_serve hP (lasting_updated name link)
      fun w fault hinv hw => ⟨⟨rfl, fun current hcurrent hversion => ?_⟩, fun copy hcopy => ?_⟩
    · obtain ⟨hknown, held, hheld, hfin, -⟩ := hread w hw
      obtain rfl := hknown.2 current hcurrent hversion
      obtain rfl := Option.mem_unique hcurrent hheld
      exact ⟨hfin, hplan w hw⟩
    · obtain ⟨current, hcurrent, hversion, hvalue, hworld⟩ :=
        commit_updateStatus_ok (serve_ok hcopy)
      obtain ⟨hknown, held, hheld, hfin, -⟩ := hread w hw
      obtain rfl := hknown.2 current hcurrent hversion
      obtain rfl := Option.mem_unique hcurrent hheld
      have hcopy' : copy.value = link := by rw [hvalue, hrest]
      refine ⟨hcopy', ?_⟩
      have hlookup : (serve fault w (.updateStatus name ⟨version, link⟩)).2.peerings.lookup name =
          some copy := by
        rw [hworld, hvalue, World.putPeering, World.adopted_clock]
        exact AList.lookup_insert _
      refine ⟨(sound_serve fault w _ hinv).peerings.known hlookup, copy, hlookup, ?_, rfl⟩
      rw [hvalue]
      exact hfin

end Peering
