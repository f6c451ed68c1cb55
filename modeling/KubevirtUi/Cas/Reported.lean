import KubevirtUi.Cas.Linear
import Mathlib.Data.List.Infix

/-!
# A peering that is reported was there

The helper says the same of a router that has the entry already and of one that does not
exist, and a second read tells the two apart. Between the two reads somebody may create
the router: then the call reports an entry that nobody has written. That is the only way
in which a report can be wrong.
-/

namespace Cas

open Interference

/-- One call, and others that create, change and delete what they like meanwhile. -/
abbrev Solo := Crowd (World Unit) Request Request.Response Unit (Except Failure (Option Bool))

/-- At some instant so far the router had the entry. -/
def Held (init : String → Option Json) (key remoteVpc ip : String) (w : World Unit) : Prop :=
  ∃ h, h <+: w.history ∧ ∃ spec, replay init h key = some spec ∧ holdsPeering remoteVpc ip spec

/-- Whether it had can be read off the history. -/
def heldIn (init : String → Option Json) (key remoteVpc ip : String)
    (history : List (Event Unit)) : Bool :=
  history.inits.any fun h => (replay init h key).any (holdsPeering remoteVpc ip)

theorem held_iff {init : String → Option Json} {key remoteVpc ip : String} {w : World Unit} :
    Held init key remoteVpc ip w ↔ heldIn init key remoteVpc ip w.history := by
  simp only [Held, heldIn, List.any_eq_true, List.mem_inits, Option.any_eq_true]

/-- Whoever creates the router after the call has found that there is none creates it with
the entry. -/
def CreatedWith (key remoteVpc ip : String) (t : Solo) (turn : Turn Action Fault Unit) : Prop :=
  ∀ spec, turn = .act (.put key spec) → .missed () key ∈ t.world.history →
    t.world.objects.lookup key = none → holdsPeering remoteVpc ip spec

section Entry

variable {remoteVpc ip : String} {spec : Json}

theorem holdsPeering_of_specOf (h : holdsPeering remoteVpc ip (specOf spec)) :
    holdsPeering remoteVpc ip spec := by
  rw [specOf] at h
  split at h
  · exact h
  · simp [holdsPeering, Json.get, Json.items] at h

theorem holdsPeering_of_ensureMutate_none (h : ensureMutate remoteVpc ip spec = none) :
    holdsPeering remoteVpc ip spec := by
  by_contra hnot
  simp [ensureMutate, hnot] at h

theorem holdsPeering_mergePatch {read patch : Json}
    (h : ensureMutate remoteVpc ip read = some patch) :
    holdsPeering remoteVpc ip (spec.mergePatch patch) := by
  rw [ensureMutate] at h
  split at h
  · contradiction
  · obtain rfl := Option.some.inj h
    rw [holdsPeering, Json.get_mergePatch_arr, Json.items, List.any_eq_true]
    refine ⟨peeringEntry remoteVpc ip, List.mem_append_right _ (List.mem_singleton_self _), ?_⟩
    have hremote : (peeringEntry remoteVpc ip).get "remoteVpc" = .str remoteVpc := rfl
    have hip : (peeringEntry remoteVpc ip).get "localConnectIP" = .str ip := rfl
    simp [hremote, hip]

end Entry

section Call

variable {init : String → Option Json} {vpcName remoteVpc ip : String}

/-- Nobody brings the router back without the entry once the call has missed it. -/
def BroughtBack (key remoteVpc ip : String) (w v : World Unit) : Prop :=
  .missed () key ∈ w.history → w.objects.lookup key = none →
    ∀ item, v.objects.lookup key = some item → holdsPeering remoteVpc ip item.value

/-- The router has had the entry, or the call has missed it and it has not come back. -/
def Waiting (init : String → Option Json) (key remoteVpc ip : String) (w : World Unit) : Prop :=
  Held init key remoteVpc ip w ∨ .missed () key ∈ w.history ∧ w.objects.lookup key = none

theorem lasts_held (key : String) {extra : World Unit → World Unit → Prop} :
    Lasts init extra () (Held init key remoteVpc ip) := lasts_past _

theorem lasts_waiting (key : String) :
    Lasts init (BroughtBack key remoteVpc ip) () (Waiting init key remoteVpc ip) := by
  intro w v hw hv hrely hwaiting
  obtain hheld | ⟨hevent, hnone⟩ := hwaiting
  · exact .inl (lasts_held key w v hw hv hrely hheld)
  · cases hlookup : v.objects.lookup key with
    | none => exact .inr ⟨hrely.1.history.subset hevent, hlookup⟩
    | some item =>
      left
      refine ⟨v.history, List.prefix_rfl, item.value, ?_, hrely.2.2 hevent hnone item hlookup⟩
      rw [← hv.2 key, hlookup]
      rfl

theorem does_getObject_waiting : Does init (Flow.ensure vpcName remoteVpc ip).Mutates
      (BroughtBack (keyOf "vpcs" vpcName) remoteVpc ip) ()
      (Waiting init (keyOf "vpcs" vpcName) remoteVpc ip) (getObject "vpcs" vpcName)
      fun x w => ∀ spec, x = .ok (some spec) →
        Held init (keyOf "vpcs" vpcName) remoteVpc ip w := by
  have hlasts : ∀ p : Prop, Lasts init (BroughtBack (keyOf "vpcs" vpcName) remoteVpc ip) ()
      fun w => p → Held init (keyOf "vpcs" vpcName) remoteVpc ip w :=
    fun p w v hw hv hrely h hp => lasts_held _ w v hw hv hrely (h hp)
  refine .bind (Q := fun x w => (∃ item, x = .ok item) →
      Held init (keyOf "vpcs" vpcName) remoteVpc ip w)
    (Does.ask (lasts_waiting _) (fun x => hlasts _) fun w fault hw hwaiting => ?_) fun x => ?_
  · cases fault with
    | some status => exact ⟨guaranteed_of_history_eq rfl, by simp [serve]⟩
    | none =>
      cases hlookup : w.objects.lookup (keyOf "vpcs" vpcName) with
      | none =>
        simp only [serve, commit, hlookup]
        refine ⟨fun key patch hmerged => ?_, by simp⟩
        exact absurd (List.append_cancel_left hmerged) (by simp)
      | some item =>
        simp only [serve, commit, hlookup]
        refine ⟨guaranteed_of_history_eq rfl, fun _ => hwaiting.resolve_right ?_⟩
        simp [hlookup]
  · cases x with
    | ok item =>
      exact Does.weaken (Does.pure (lasts_held _) fun w hw _ _ => hw)
        (fun w hw => hw ⟨item, rfl⟩) fun _ _ h => h
    | error status =>
      refine Does.weaken (P := fun _ => True) ?_ (fun _ _ => trivial) fun _ _ h => h
      split
      · refine .pure (lasts_const True) fun w _ spec hspec => ?_
        simp at hspec
      · refine .pure (lasts_const True) fun w _ spec hspec => ?_
        simp at hspec
      · contradiction

theorem does_ensure : Does init (Flow.ensure vpcName remoteVpc ip).Mutates
      (BroughtBack (keyOf "vpcs" vpcName) remoteVpc ip) () (fun w => writes () w.history = 0)
      (ensureVpcPeering vpcName remoteVpc ip) fun x w => x = .ok (some true) →
        Held init (keyOf "vpcs" vpcName) remoteVpc ip w := by
  refine .bind (does_attempts (M := Waiting init (keyOf "vpcs" vpcName) remoteVpc ip) .ensure
    (lasts_waiting _) (fun w _ hnone => .inr ⟨by simp, hnone⟩) defaultRetries) fun x => ?_
  cases x with
  | error e =>
    refine .pure (lasts_writes 0) fun w _ hx => ?_
    simp at hx
  | ok written =>
    cases written with
    | true =>
      refine Does.weaken (Does.pure (lasts_held _) fun w hw _ => hw) (fun w hw => ?_) fun _ _ h => h
      obtain ⟨-, h, hpre, before, patch, spec, rfl, hspec, hpatch⟩ := hw
      refine ⟨_, hpre, spec.mergePatch patch, ?_, holdsPeering_mergePatch hpatch⟩
      simp [Event.apply, hspec]
    | false =>
      refine .bind (Does.weaken does_getObject_waiting (fun w hw => ?_) fun _ _ h => h) fun y => ?_
      · obtain ⟨-, hleft | hwaiting | ⟨h, hpre, spec, hspec, hnone⟩⟩ := hw
        · exact absurd hleft (by decide)
        · exact hwaiting
        · have hholds := holdsPeering_of_specOf (holdsPeering_of_ensureMutate_none hnone)
          exact .inl ⟨h, hpre, spec, hspec, hholds⟩
      · cases y with
        | error e =>
          refine Does.weaken (Does.pure (lasts_const True) fun w _ hx => ?_)
            (fun _ _ => trivial) fun _ _ h => h
          simp at hx
        | ok found =>
          cases found with
          | none =>
            refine Does.weaken (Does.pure (lasts_const True) fun w _ hx => ?_)
              (fun _ _ => trivial) fun _ _ h => h
            simp at hx
          | some spec =>
            exact Does.weaken (Does.pure (lasts_held _) fun w hw _ => hw)
              (fun w hw => hw spec rfl) fun _ _ h => h

end Call

def Solo.start (s : Snapshot) (vpcName remoteVpc ip : String) : Solo :=
  ⟨s.world, fun _ => ensureVpcPeering vpcName remoteVpc ip⟩

theorem broughtBack_act {key remoteVpc ip : String} {t : Solo} {a : Action}
    (h : CreatedWith key remoteVpc ip t (.act a)) :
    BroughtBack key remoteVpc ip t.world (act a t.world) := by
  intro hevent hnone item hitem
  cases a with
  | put other spec =>
    by_cases hother : key = other
    · subst hother
      rw [act, AList.lookup_insert, Option.some.injEq] at hitem
      rw [← hitem]
      exact h spec rfl hevent hnone
    · rw [act, AList.lookup_insert_ne hother, hnone] at hitem
      contradiction
  | delete other =>
    have hlookup := Store.lookup_of_erase hitem
    rw [hnone] at hlookup
    contradiction
  | touch other =>
    simp only [act] at hitem
    split at hitem
    · rw [hnone] at hitem
      contradiction
    · next found hfound =>
      by_cases hother : key = other
      · subst hother
        rw [hnone] at hfound
        contradiction
      · rw [AList.lookup_insert_ne hother, hnone] at hitem
        contradiction

/-- If whoever creates the router while the call is under way, once the call has found that
there is none, creates it with the entry, then a call that returns that the entry is in
place returns so of an entry that was there at some instant of the call. -/
theorem reported_was_there (s : Snapshot) (vpcName remoteVpc ip : String) {t u : Solo}
    {fault : Fault} (hrun : Crowd.Run serve act (CreatedWith (keyOf "vpcs" vpcName) remoteVpc ip)
      (Solo.start s vpcName remoteVpc ip) t)
    (hnext : Crowd.next serve act t (.call () fault) = some u)
    (hreturns : u.rest () = .pure (.ok (some true))) :
    Held s.specs (keyOf "vpcs" vpcName) remoteVpc ip u.world := by
  have hstart : Crowd.Legal (Sound s.specs)
      (Relied fun w v => BroughtBack (keyOf "vpcs" vpcName) remoteVpc ip w v)
      (fun i w _ v => Guaranteed s.specs (Flow.ensure vpcName remoteVpc ip).Mutates i w v)
      (fun _ x w => x = .ok (some true) → Held s.specs (keyOf "vpcs" vpcName) remoteVpc ip w)
      serve (Solo.start s vpcName remoteVpc ip) :=
    ⟨s.sound, fun _ => does_ensure s.world s.sound rfl⟩
  have hrefl : ∀ (i : Unit) (w : World Unit),
      Relied (fun w v => BroughtBack (keyOf "vpcs" vpcName) remoteVpc ip w v) i w w := by
    refine fun i w => ⟨Passes.refl w, rfl, fun _ hnone item hitem => ?_⟩
    rw [hnone] at hitem
    contradiction
  obtain ⟨hlegal, -⟩ := Crowd.Run.invariant (P := fun _ => True) hrefl
    (fun i fault w r hw => hw.serve fault r)
    (fun t a hcond hw _ => ⟨hw.act a, fun i => ⟨passes_act a, writes_act a,
      broughtBack_act hcond⟩, trivial⟩)
    (fun t i fault r k _ _ _ _ _ => ⟨fun j hji => absurd rfl hji, trivial⟩)
    hstart trivial (hrun.step (fun spec hput => absurd hput (by simp)) hnext)
  exact hlegal.returned hreturns rfl

/-- Nothing is there at first. -/
def bare : Snapshot where
  clock := 0
  objects := ∅
  timely := Store.timely_empty

def withEntry : Json := .obj [("vpcPeerings", .arr [peeringEntry "b" "10.255.0.1/30"])]

/-- The call finds no router; one is created with the entry, which is taken out again
before the call reads a second time. -/
theorem reported_was_there_created : ∃ t u : Solo,
    Crowd.Run serve act (CreatedWith (keyOf "vpcs" "a") "b" "10.255.0.1/30")
      (Solo.start bare "a" "b" "10.255.0.1/30") t ∧
      Crowd.next serve act t (.call () none) = some u ∧ .missed () "vpcs/a" ∈ u.world.history ∧
      (u.world.objects.lookup "vpcs/a").map (·.value) = some (.obj []) ∧
      Held bare.specs (keyOf "vpcs" "a") "b" "10.255.0.1/30" u.world := by
  have hmissed : Crowd.Run serve act (CreatedWith (keyOf "vpcs" "a") "b" "10.255.0.1/30")
      (Solo.start bare "a" "b" "10.255.0.1/30") _ :=
    .step .refl (fun _ h => absurd h (by simp)) (rfl : Crowd.next serve act _ (.call () none) = _)
  have hcreated := hmissed.step (by
      rintro spec hput - -
      obtain rfl := (Action.put.inj (Turn.act.inj hput)).2
      decide) (rfl : Crowd.next serve act _ (.act (.put (keyOf "vpcs" "a") withEntry)) = _)
  have hemptied := hcreated.step (fun _ _ _ hnone => absurd hnone (by decide))
    (rfl : Crowd.next serve act _ (.act (.put (keyOf "vpcs" "a") (.obj []))) = _)
  exact ⟨_, _, hemptied, rfl, List.Mem.head _, rfl,
    reported_was_there bare "a" "b" "10.255.0.1/30" hemptied
      (rfl : Crowd.next serve act _ (.call () none) = _) rfl⟩

/-- The call finds no router; one is created without peerings; the call finds it, and
reports the entry. -/
theorem reported_never_there : ∃ t u : Solo,
    Crowd.Run serve act (fun _ _ => True) (Solo.start bare "a" "b" "10.255.0.1/30") t ∧
      Crowd.next serve act t (.call () none) = some u ∧ u.rest () = .pure (.ok (some true)) ∧
      ¬ Held bare.specs (keyOf "vpcs" "a") "b" "10.255.0.1/30" u.world := by
  have hplay : Crowd.play serve act (Solo.start bare "a" "b" "10.255.0.1/30")
      [.call () none, .act (.put (keyOf "vpcs" "a") (.obj []))] = some _ := rfl
  refine ⟨_, _, Crowd.run_of_play hplay, rfl, rfl, ?_⟩
  rw [held_iff]
  decide

end Cas
