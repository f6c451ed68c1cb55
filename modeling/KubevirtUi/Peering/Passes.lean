import KubevirtUi.Peering.Safety

/-!
# Every pass is safe

The pass is taken apart along its text. Its first half only looks, so nothing that
is known gets lost; from the record of the plan on, what is known is the copy of
the object last written, until the end of the pass.
-/

namespace Peering

open Interference

variable {ε : Type} {cidrs : String → List String}

section Looks

variable {name : String} {α β : Type}

/-- A program that only looks: it loses no knowledge, and what it returns has a
property. -/
def Looks (name : String) (p : Pass α) (φ : α → Prop) : Prop :=
  ∀ P, Lasting P → Ensures name P p fun x w => P w ∧ φ x

variable {φ : α → Prop} {p : Pass α}

theorem Looks.pure {a : α} (h : φ a) : Looks name (Pure.pure a) φ :=
  fun _ hP => .pure hP fun _ _ hw => ⟨hw, h⟩

theorem Looks.bind {f : α → Pass β} {ψ : β → Prop} (hp : Looks name p φ)
    (hf : ∀ a, φ a → Looks name (f a) ψ) : Looks name (p >>= f) ψ := by
  intro P hP
  refine .bind (hp P hP) fun a => ?_
  exact Ensures.weaken (Triple.of_fact fun h => hf a h P hP) fun w hw => hw.symm

theorem Looks.ask {r : Request} (hread : ∀ w, (commit w r).2 = w) (hgood : ∀ w, Good name w r) :
    Looks name (ask r) fun _ => True :=
  fun _ hP => Triple.conseq (Ensures.glance hread hgood hP) (fun _ _ h => h) fun _ _ _ h =>
    ⟨h, trivial⟩

theorem Looks.ite {c : Prop} [Decidable c] {q : Pass α} (hp : c → Looks name p φ)
    (hq : ¬c → Looks name q φ) : Looks name (if c then p else q) φ := by
  split
  · exact hp ‹c›
  · exact hq ‹¬c›

theorem looks_getVpc (router : String) : Looks name (ask (.getVpc router)) fun _ => True :=
  Looks.ask (fun w => commit_getVpc_world w router) fun _ => trivial

theorem looks_listSubnets (vpc : String) : Looks name (listSubnets vpc) fun _ => True := by
  refine Looks.bind (Looks.ask (fun _ => rfl) fun _ => trivial) fun x _ => ?_
  cases x <;> exact Looks.pure trivial

/-- What a check may refuse with is the object with other conditions. -/
def Refuses (link : PeeringObject) {ε : Type} (x : Except ε (Option PeeringObject)) : Prop :=
  ∀ refused, x = .ok (some refused) → Amends link refused

theorem refuses_ok_none (link : PeeringObject) :
    Refuses link (.ok none : Except ε (Option PeeringObject)) := by
  intro refused h
  simp at h

theorem refuses_error (link : PeeringObject) (err : ε) : Refuses link (.error err) := by
  intro refused h
  contradiction

theorem refuses_conditions (link : PeeringObject) (reason message detail : String) :
    Refuses link (.ok (some ((link.setAccepted false reason message).setEstablished false reason
      detail).observe) : Except ε (Option PeeringObject)) := by
  intro refused h
  obtain rfl := Option.some.inj (Except.ok.inj h)
  exact (((Amends.refl link).setAccepted _ _ _).setEstablished _ _ _).observe

theorem looks_checkRouter (link : PeeringObject) (router : String) :
    Looks name (checkRouter link router) (Refuses link) := by
  refine Looks.bind (looks_getVpc router) fun x _ => ?_
  match x with
  | .error .notFound => exact Looks.pure (refuses_conditions link _ _ _)
  | .error .conflict => exact Looks.pure (refuses_error link _)
  | .error (.failed text) => exact Looks.pure (refuses_error link _)
  | .ok vpc =>
    dsimp only
    split
    · exact Looks.pure (refuses_conditions link _ _ _)
    · exact Looks.pure (refuses_ok_none link)

theorem looks_sideWritten (router remote : String) :
    Looks name (sideWritten router remote) fun _ => True := by
  refine Looks.bind (looks_getVpc router) fun x _ => ?_
  match x with
  | .error .notFound => exact Looks.pure trivial
  | .error .conflict => exact Looks.pure trivial
  | .error (.failed text) => exact Looks.pure trivial
  | .ok vpc => exact Looks.pure trivial

theorem looks_pairAlreadyWritten (a b : String) :
    Looks name (pairAlreadyWritten a b) fun _ => True := by
  refine Looks.bind (looks_sideWritten a b) fun x _ => ?_
  cases x with
  | error err => exact Looks.pure trivial
  | ok onA =>
    refine Looks.bind (looks_sideWritten b a) fun y _ => ?_
    cases y with
    | error err => exact Looks.pure trivial
    | ok onB =>
      exact Looks.ite (fun _ => Looks.pure trivial) fun _ => Looks.pure trivial

theorem looks_guardPair (link : PeeringObject) : Looks name (guardPair link) (Refuses link) := by
  unfold guardPair
  split
  · exact Looks.pure (refuses_ok_none link)
  · refine Looks.bind (looks_pairAlreadyWritten link.a link.b) fun x _ => ?_
    cases x with
    | error err => exact Looks.pure (refuses_error link _)
    | ok held =>
      dsimp only
      split
      · exact Looks.pure (refuses_ok_none link)
      · exact Looks.pure (refuses_conditions link _ _ _)

theorem looks_networkCIDRs (link : PeeringObject) (network : String) :
    Looks name (networkCIDRs link network)
      fun x => ∀ refused, x = .ok (.error refused) → Amends link refused := by
  refine Looks.bind (looks_listSubnets network) fun x _ => ?_
  cases x with
  | error err => exact Looks.pure (by simp)
  | ok subnets =>
    dsimp only
    split
    · refine Looks.pure fun refused h => ?_
      obtain rfl := Except.error.inj (Except.ok.inj h)
      exact (((Amends.refl link).setAccepted _ _ _).setEstablished _ _ _).observe
    · exact Looks.pure (by simp)

theorem looks_judgeSide (loc : String) (remoteCIDRs : List String) :
    Looks name (judgeSide listSubnets loc remoteCIDRs) fun _ => True := by
  refine Looks.bind (looks_listSubnets loc) fun x _ => ?_
  cases x with
  | error err => exact Looks.pure trivial
  | ok subnets =>
    dsimp only
    split
    · exact Looks.pure trivial
    · refine Looks.bind (looks_listSubnets loc) fun y _ => ?_
      cases y <;> exact Looks.pure trivial

theorem looks_isolationWillNotLift (a b : String) (cidrs : String → List String) :
    Looks name (isolationWillNotLift listSubnets a b cidrs) fun _ => True := by
  refine Looks.bind (looks_judgeSide a (cidrs b)) fun x _ => ?_
  cases x with
  | error err => exact Looks.pure trivial
  | ok sideA =>
    refine Looks.bind (looks_judgeSide b (cidrs a)) fun y _ => ?_
    cases y <;> exact Looks.pure trivial

theorem looks_judgeFrom (questions : List (String × String)) (blocked : List String) :
    Looks name (judgeFrom listSubnets questions blocked) fun _ => True := by
  induction questions generalizing blocked with
  | nil => exact Looks.pure trivial
  | cons question rest ih =>
    obtain ⟨loc, cidr⟩ := question
    unfold judgeFrom
    split
    · exact ih blocked
    · refine Looks.bind (looks_listSubnets loc) fun x _ => ?_
      cases x with
      | error err => exact Looks.pure trivial
      | ok subnets => exact ih _

theorem looks_judgeTraffic (a b : String) (cidrs : String → List String) :
    Looks name (judgeTraffic listSubnets a b cidrs) fun _ => True := by
  refine Looks.bind (looks_judgeFrom _ []) fun x _ => ?_
  cases x with
  | error err => exact Looks.pure trivial
  | ok blocked =>
    dsimp only
    split <;> exact Looks.pure trivial

end Looks

section Writes

variable {name : String} {version : Nat} {link before : PeeringObject} {P : World → Prop}

theorem finish_ensures (h : Amends before link) (result : PassResult) :
    Ensures name (Reading name ⟨version, before⟩) (finish name version link before result)
      fun _ _ => True := by
  refine .bind (updateStatus_ensures (lasting_reading name _) (fun _ hw => hw) h.rest
    fun _ _ => .inl h.plan) fun x => ?_
  cases x <;> exact .pure (lasting_updated name link _) fun _ _ _ => trivial

theorem rollBack_ensures (hP : Steady P) :
    Ensures name P (rollBack name link) fun link' w => P w ∧ Amends link link' := by
  unfold rollBack
  split
  · rename_i x y hlegs
    refine .bind (removeHalf_ensures hP) fun first => ?_
    refine .bind ((removeHalf_ensures hP).weaken fun _ hw => hw.1) fun second => ?_
    refine Ensures.weaken (Ensures.pure hP.1 fun w _ hw => ⟨hw, ?_⟩) fun _ hw => hw.1
    have hfirst : Amends link (if first.isOk then link.setApplied 0 false else link) := by
      split
      · exact (Amends.refl link).setApplied 0 false
      · exact Amends.refl link
    split
    · exact hfirst.setApplied 1 false
    · exact hfirst
  · exact .pure hP.1 fun w _ hw => ⟨hw, Amends.refl link⟩

theorem refuseOneSided_ensures (h : Amends before link) (loc remote : String) (err : ApiError) :
    Ensures name (Reading name ⟨version, before⟩)
      (refuseOneSided name version link before loc remote err) fun _ _ => True := by
  refine .bind (rollBack_ensures (steady_reading name _)) fun link' => ?_
  refine Ensures.weaken (Triple.of_fact fun h' => ?_) fun w hw => hw.symm
  exact finish_ensures ((h.trans h').setEstablished _ _ _).observe _

theorem writeEnds_ensures {chosen : Link} (hlegs : link.status.networks = [link.a, link.b]) :
    Ensures name (Reading name ⟨version, link⟩) (writeEnds name version link chosen cidrs)
      fun _ _ => True := by
  have hlasting := lasting_reading name ⟨version, link⟩
  unfold writeEnds
  dsimp only
  split
  · rename_i x y _
    refine .bind (applyHalf_ensures renderSide_remote (.inl hlegs)) fun first => ?_
    cases first with
    | error err => exact refuseOneSided_ensures (Amends.refl link) _ _ err
    | ok _ =>
      refine .bind (applyHalf_ensures renderSide_remote (.inr hlegs)) fun second => ?_
      cases second with
      | error err => exact refuseOneSided_ensures ((Amends.refl link).setApplied 0 true) _ _ err
      | ok _ =>
        refine .bind (looks_judgeTraffic _ _ cidrs _ hlasting) fun traffic => ?_
        refine Ensures.weaken (finish_ensures ?_ _) fun w hw => hw.1
        exact (((((Amends.refl link).setApplied 0 true).setApplied 1 true).setEstablished
          _ _ _).setTraffic _).observe
  · exact .pure hlasting fun _ _ _ => trivial

/-- What is known of the links of the others after the objects have been listed. -/
def Listed (name : String) : Except ApiError (List (String × PeeringObject)) → World → Prop
  | .ok listed, w => HeldIn name (heldLinks name listed) w
  | .error _, _ => True

theorem lasting_listed (name : String) (x : Except ApiError (List (String × PeeringObject))) :
    Lasting (Listed name x) := by
  cases x with
  | error err => exact fun _ _ _ _ => trivial
  | ok listed => exact lasting_heldIn name _

theorem listed_commit (name : String) (w : World) : Listed name (commit w .listPeerings).1 w := by
  intro other link hne hlookup hlink
  have hmem : ⟨other, link⟩ ∈ w.peerings.entries := AList.mem_lookup_iff.mp hlookup
  simp only [heldLinks, List.mem_filter, List.mem_map, decide_eq_true_eq]
  exact ⟨⟨(other, link.value), ⟨⟨⟨other, link⟩, hmem, rfl⟩, hne⟩, rfl⟩, hlink⟩

theorem linksInUse_ensures (hP : Lasting P) : Ensures name P (linksInUse name)
      fun x w => P w ∧ ∀ used, x = .ok used → HeldIn name used w := by
  refine .bind (Ensures.glance (fun _ => rfl) (fun _ => trivial) hP) fun vpcs => ?_
  cases vpcs with
  | error err => exact .pure hP fun w _ hw => ⟨hw, by simp⟩
  | ok vpcs =>
    refine .bind (Ensures.read (r := .listPeerings) (fun _ => rfl) (fun _ => trivial) hP
      (lasting_listed name) (fun w _ => listed_commit name w) fun _ _ => trivial) fun listed => ?_
    cases listed with
    | error err =>
      exact .pure (hP.and (lasting_listed name _)) fun w _ hw => ⟨hw.1, by simp⟩
    | ok listed =>
      refine .pure (hP.and (lasting_listed name _)) fun w _ hw =>
        ⟨hw.1, fun used h => ?_⟩
      obtain rfl := Except.ok.inj h
      intro other link hne hlookup hlink
      refine (List.mem_insertionSort _).mpr
        (List.mem_append_right _ (hw.2 other link hne hlookup hlink))

theorem lasting_chosen (chosen : Link) : Lasting fun w => Chosen name link w chosen := by
  intro a w hinv h
  cases h with
  | pinned hpin hparse => exact .pinned hpin hparse
  | kept hkept hparse => exact .kept hkept hparse
  | allocated used hpin hkept hfree hheld =>
    exact .allocated used hpin hkept hfree (lasting_heldIn name used a w hinv hheld)

theorem chooseLink_ensures (hP : Lasting P) : Ensures name P (chooseLink name link)
      fun x w => P w ∧ ∀ chosen, x = .ok chosen → Chosen name link w chosen := by
  have hlink {x : Except LinkError Link} {chosen : Link} (h : linkResult x = .ok chosen) :
      x = .ok chosen := by
    cases x with
    | error err => simp [linkResult] at h
    | ok v => simpa [linkResult] using h
  unfold chooseLink
  split
  · rename_i hpin
    exact .pure hP fun w _ hw => ⟨hw, fun chosen h => .pinned hpin (hlink h)⟩
  rename_i hpin
  split
  · rename_i hkept
    exact .pure hP fun w _ hw => ⟨hw, fun chosen h => .kept hkept (hlink h)⟩
  rename_i hkept
  refine .bind (linksInUse_ensures hP) fun used => ?_
  have hheld : Lasting fun w => ∀ u, used = .ok u → HeldIn name u w :=
    fun a w hinv h u hu => lasting_heldIn name u a w hinv (h u hu)
  cases used with
  | error err => exact .pure (hP.and hheld) fun w _ hw => ⟨hw.1, by simp⟩
  | ok used =>
    refine .pure (hP.and hheld) fun w _ hw => ⟨hw.1, fun chosen h => ?_⟩
    exact .allocated used (not_not.mp hpin) (not_not.mp hkept) (hlink h) (hw.2 used rfl)

theorem networks_of_samePlan {legs planned : List Leg} (h : samePlan legs planned = true) :
    legs.map (·.network) = planned.map (·.network) := by
  induction legs generalizing planned with
  | nil =>
    cases planned with
    | nil => rfl
    | cons y ys => simp [samePlan] at h
  | cons x xs ih =>
    cases planned with
    | nil => simp [samePlan] at h
    | cons y ys =>
      simp only [samePlan, Bool.decide_and, Bool.decide_eq_true, Bool.and_eq_true,
        decide_eq_true_eq] at h
      rw [List.map_cons, List.map_cons, h.1, ih h.2.2]

theorem establish_ensures :
    Ensures name (Reading name ⟨version, link⟩) (establish name version link cidrs)
      fun _ _ => True := by
  have hlasting := lasting_reading name ⟨version, link⟩
  refine .bind (chooseLink_ensures hlasting) fun x => ?_
  cases x with
  | error err =>
    exact Ensures.weaken (finish_ensures ((Amends.refl link).setEstablished _ _ _).observe _)
      fun w hw => hw.1
  | ok chosen =>
    dsimp only
    split
    · refine Ensures.weaken (P := fun w => Reading name ⟨version, link⟩ w ∧
        Chosen name link w chosen) ?_ fun w hw => ⟨hw.1, hw.2 chosen rfl⟩
      refine .bind (updateStatus_ensures (hlasting.and (lasting_chosen chosen))
        (fun w hw => hw.1) rfl fun w hw => .inr ⟨rfl, chosen, rfl, hw.2⟩) fun x => ?_
      cases x with
      | error err => exact .pure (lasting_updated name _ _) fun _ _ _ => trivial
      | ok copy =>
        refine Ensures.weaken (Triple.of_fact fun hcopy => ?_) fun w hw => hw copy rfl
        refine writeEnds_ensures ?_
        rw [hcopy]
        rfl
    · rename_i hsame
      rw [not_or, Bool.not_eq_false] at hsame
      exact Ensures.weaken (writeEnds_ensures (networks_of_samePlan hsame.2)) fun w hw => hw.1

theorem checkIsolation_ensures :
    Ensures name (Reading name ⟨version, link⟩) (checkIsolation name version link cidrs)
      fun _ _ => True := by
  have hlasting := lasting_reading name ⟨version, link⟩
  refine .bind (looks_isolationWillNotLift _ _ cidrs _ hlasting) fun verdict => ?_
  obtain ⟨reason, detail⟩ := verdict
  refine Ensures.weaken ?_ fun w hw => hw.1
  dsimp only
  split
  · refine .bind (rollBack_ensures (steady_reading name _)) fun link' => ?_
    refine Ensures.weaken (Triple.of_fact fun h => ?_) fun w hw => hw.symm
    exact finish_ensures (((((Amends.refl link).setAccepted _ _ _).trans h).setEstablished
      _ _ _).setTraffic _).observe _
  · have hamends := (Amends.refl link).setAccepted true "Accepted" (link.a ++ " and " ++ link.b ++
      " both exist, both have something to route to, and their rules are open or composed")
    refine .bind (updateStatus_ensures hlasting (fun _ hw => hw) hamends.rest
      fun _ _ => .inl hamends.plan) fun x => ?_
    cases x with
    | error err => exact .pure (lasting_updated name _ _) fun _ _ _ => trivial
    | ok copy =>
      refine Ensures.weaken ?_ fun w hw => (hw copy rfl).2
      dsimp only
      split
      · exact finish_ensures (((Amends.refl copy.value).setEstablished _ _ _).setTraffic
          _).observe _
      · exact establish_ensures

theorem collectCIDRs_ensures :
    Ensures name (Reading name ⟨version, link⟩) (collectCIDRs name version link)
      fun _ _ => True := by
  have hlasting := lasting_reading name ⟨version, link⟩
  refine .bind (looks_networkCIDRs link link.a _ hlasting) fun x => ?_
  refine Ensures.weaken (Triple.of_fact fun hx => ?_) fun w hw => hw.symm
  match x, hx with
  | .error err, _ => exact Ensures.pure hlasting fun _ _ _ => trivial
  | .ok (.error refused), hx => exact finish_ensures (hx refused rfl) _
  | .ok (.ok cidrsA), _ =>
    refine Ensures.bind (looks_networkCIDRs link link.b _ hlasting) fun y => ?_
    refine Ensures.weaken (Triple.of_fact fun hy => ?_) fun w hw => hw.symm
    match y, hy with
    | .error err, _ => exact Ensures.pure hlasting fun _ _ _ => trivial
    | .ok (.error refused), hy => exact finish_ensures (hy refused rfl) _
    | .ok (.ok cidrsB), _ => exact checkIsolation_ensures

theorem checked_ensures {p : Pass (Except ApiError (Option PeeringObject))} {rest : Pass PassResult}
    (hp : Looks name p (Refuses link))
    (hrest : Ensures name (Reading name ⟨version, link⟩) rest fun _ _ => True) :
    Ensures name (Reading name ⟨version, link⟩)
      (do
        match ← p with
        | .error err => pure (.failed err.text)
        | .ok (some refused) => finish name version refused link .requeueAfter
        | .ok none => rest) fun _ _ => True := by
  have hlasting := lasting_reading name ⟨version, link⟩
  refine .bind (hp _ hlasting) fun x => ?_
  refine Ensures.weaken (Triple.of_fact fun hx => ?_) fun w hw => hw.symm
  match x, hx with
  | .error err, _ => exact Ensures.pure hlasting fun _ _ _ => trivial
  | .ok (some refused), hx => exact finish_ensures (hx refused rfl) _
  | .ok none, _ => exact hrest

theorem reconcileLive_ensures :
    Ensures name (Reading name ⟨version, link⟩) (reconcileLive name version link)
      fun _ _ => True :=
  checked_ensures (looks_checkRouter link link.a) (checked_ensures (looks_checkRouter link link.b)
      (checked_ensures (looks_guardPair link) collectCIDRs_ensures))

theorem tearDownPeering_ensures {link : Versioned PeeringObject} :
    Ensures name (fun w => link.value.finalizer = true → Reading name link w)
      (tearDownPeering name link) fun _ _ => True := by
  have hcopy : Lasting fun w => link.value.finalizer = true → Reading name link w :=
    fun a w hinv h hfin => lasting_reading name link a w hinv (h hfin)
  unfold tearDownPeering
  split
  · exact .pure hcopy fun _ _ _ => trivial
  rename_i hfin
  have hfirst := steady_reading name link
  have hsecond := hfirst.and_endGone name link.value.a link.value.b
  have hboth := hsecond.and_endGone name link.value.b link.value.a
  refine Ensures.weaken (P := Reading name link) ?_ fun w hw => hw (by simpa using hfin)
  refine .bind (removeHalf_ensures hfirst) fun x => ?_
  cases x with
  | error err => exact Ensures.weaken (Ensures.pure hfirst.1 fun _ _ _ => trivial) fun _ hw => hw.1
  | ok _ =>
    refine Ensures.weaken ?_ fun w hw => And.intro hw.1 (hw.2 rfl)
    refine .bind (removeHalf_ensures hsecond) fun y => ?_
    cases y with
    | error err =>
      exact Ensures.weaken (Ensures.pure hsecond.1 fun _ _ _ => trivial) fun _ hw => hw.1
    | ok _ =>
      refine Ensures.weaken ?_ fun w hw => And.intro hw.1 (hw.2 rfl)
      refine .bind (Q := fun _ _ => True) (Triple.ask sound_act sound_serve hboth.1
        (fun _ => Stable.const True) fun w _ _ hw =>
          ⟨⟨rfl, fun current hcurrent hversion => .inr ?_⟩, trivial⟩) fun z => ?_
      · obtain rfl := hw.1.1.known.2 current hcurrent hversion
        exact ⟨rfl, hw.1.2, hw.2⟩
      · cases z <;> exact .pure (Stable.const True) fun _ _ _ => trivial

end Writes

/-- What is known of the object after it has been asked for. -/
def Found (name : String) : Except ApiError (Versioned PeeringObject) → World → Prop
  | .ok link, w => Store.Known w.peerings w.clock name link ∧
      (link.value.finalizer = true → Reading name link w)
  | .error _, _ => True

theorem lasting_found (name : String) (x : Except ApiError (Versioned PeeringObject)) :
    Lasting (Found name x) := by
  cases x with
  | error err => exact fun _ _ _ _ => trivial
  | ok link =>
    exact fun a w hinv h => ⟨lasting_known name link a w hinv h.1, fun hfin =>
      lasting_reading name link a w hinv (h.2 hfin)⟩

theorem found_commit (name : String) (w : World) (h : w.Sound) :
    Found name (commit w (.getPeering name)).1 w := by
  rw [commit]
  cases hlookup : w.peerings.lookup name with
  | none => trivial
  | some link =>
    have hknown := h.peerings.known hlookup
    exact ⟨hknown, fun hfin => ⟨hknown, link, hlookup, hfin, rfl⟩⟩

theorem reconcile_ensures (name : String) :
    Ensures name (fun _ => True) (reconcile name) fun _ _ => True := by
  have hread (w : World) : (commit w (.getPeering name)).2 = w := by
    rw [commit]
    split <;> rfl
  refine .bind (Ensures.read hread (fun _ => trivial) (Stable.const True)
    (lasting_found name) (fun w h => found_commit name w h) fun _ _ => trivial) fun x => ?_
  refine Ensures.weaken (P := Found name x) ?_ fun w hw => hw.2
  cases x with
  | error e => cases e <;> exact .pure (lasting_found name _) fun _ _ _ => trivial
  | ok link =>
    dsimp only
    split
    · exact tearDownPeering_ensures.weaken fun w hw => hw.2
    rename_i hdel
    split
    · exact .pure (lasting_found name _) fun _ _ _ => trivial
    split
    · refine .bind (Q := fun _ _ => True) (Triple.ask sound_act sound_serve
        (lasting_found name _) (fun _ => Stable.const True) fun w _ _ hw =>
          ⟨⟨rfl, fun current hcurrent hversion => .inl ?_⟩, trivial⟩) fun z => ?_
      · obtain rfl := hw.1.2 current hcurrent hversion
        exact ⟨by simpa using hdel, rfl⟩
      · cases z <;> exact .pure (Stable.const True) fun _ _ _ => trivial
    · rename_i hfin
      exact reconcileLive_ensures.weaken fun w hw => hw.2 (by simpa using hfin)

theorem reconcile_safe (name : String) (w : World) (h : w.Sound) :
    Safe serve act World.Sound (fun w r _ => Good name w r) (fun _ _ => True) (reconcile name) w :=
  reconcile_ensures name w h trivial

/-- The cluster, and the object being reconciled with the rest of its pass. -/
abbrev State : Type := System World Request Request.Response String PassResult

/-- A step of the cluster: somebody else acts, a pass starts, sends a request, or
ends, be it done or stopped on the way. One pass is in hand at a time. -/
abbrev Step : Type := Label Action Fault String

def step (s : State) (label : Step) : Option State := next serve act reconcile s label

/-- The runs from the empty cluster whose steps meet a condition. -/
abbrev Runs (cond : State → Step → Prop) (s : State) : Prop :=
  Run serve act reconcile cond ⟨{}, none⟩ s

theorem sound_empty : World.Sound {} := ⟨Store.timely_empty, Store.timely_empty, by simp⟩

theorem Runs.legal {cond : State → Step → Prop} {s : State} (h : Runs cond s) :
    Legal serve act World.Sound (fun name w r _ => Good name w r) s :=
  Run.legal sound_act sound_serve reconcile_safe ⟨sound_empty, by simp⟩ h

/-- The request that the pass in hand is about to send. -/
def State.request (s : State) : Option (String × Request) :=
  match s.busy with
  | some (name, .call r _) => some (name, r)
  | _ => none

theorem Runs.sound {cond : State → Step → Prop} {s : State} (h : Runs cond s) : s.world.Sound :=
  h.legal.1

theorem Runs.good {cond : State → Step → Prop} {s : State} (h : Runs cond s) {name : String}
    {r : Request} (hrequest : s.request = some (name, r)) : Good name s.world r := by
  unfold State.request at hrequest
  split at hrequest
  · rename_i job r' k hbusy
    simp only [Option.some.injEq, Prod.mk.injEq] at hrequest
    obtain ⟨rfl, rfl⟩ := hrequest
    exact (h.legal.2 _ _ hbusy s.world .refl h.sound .none).1
  · contradiction

/-- What holds in the empty cluster, and survives the actions allowed and the
requests of passes, holds throughout the run. -/
theorem Runs.invariant {cond : State → Step → Prop} {P : World → Prop} (hempty : P {})
    (hother : ∀ s a, cond s (.act a) → s.world.Sound → P s.world → P (act a s.world))
    (hcommit : ∀ s fault name r, cond s (.call fault) → s.request = some (name, r) →
      s.world.Sound → Good name s.world r → P s.world → P (commit s.world r).2)
    {s : State} (h : Runs cond s) : P s.world := by
  refine Run.invariant sound_act sound_serve reconcile_safe ⟨sound_empty, by simp⟩ hempty hother
    (fun t fault name r k hcond hbusy hsound hgood hP => ?_) h
  rcases serve_world fault t.world r with heq | heq <;> rw [heq]
  · exact hP
  · exact hcommit t fault name r hcond (by rw [State.request, hbusy]) hsound hgood hP

section Play

variable (cond : State → Step → Prop) [∀ s label, Decidable (cond s label)]

/-- Take the steps of a list, leaving out those that cannot be taken. -/
def play : List Step → State → State
  | [], s => s
  | label :: labels, s => play labels ((step s label).getD s)

/-- The steps of the list meet the condition, each where it is taken. -/
def allowed : List Step → State → Bool
  | [], _ => true
  | label :: labels, s => decide (cond s label) && allowed labels ((step s label).getD s)

/-- One pass over an object, with its first requests going through. -/
def pass (name : String) : List Step :=
  .start name :: (List.replicate 25 (.call .none) ++ [.stop])

/-- Three routers with a subnet each. -/
def threeRouters : List Step :=
  [.act (.createRouter "a" none), .act (.createRouter "b" none), .act (.createRouter "c" none),
    .act (.setSubnets
      [{ vpc := some "a", cidrBlock := some "10.1.0.0/24" },
        { vpc := some "b", cidrBlock := some "10.2.0.0/24" },
        { vpc := some "c", cidrBlock := some "10.3.0.0/24" }])]

variable {cond}

theorem Runs.play {labels : List Step} {s : State} (h : Runs cond s)
    (hallowed : allowed cond labels s = true) : Runs cond (play labels s) := by
  induction labels generalizing s with
  | nil => exact h
  | cons label labels ih =>
    rw [allowed, Bool.and_eq_true, decide_eq_true_eq] at hallowed
    obtain ⟨hcond, hrest⟩ := hallowed
    refine ih ?_ hrest
    cases hnext : step s label with
    | none => exact h
    | some t => exact h.step hcond hnext

end Play

end Peering
