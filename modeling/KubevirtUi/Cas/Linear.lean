import KubevirtUi.Cas.Clients
import KubevirtUi.Library.Logs
import KubevirtUi.Library.Raising

/-!
# Concurrent list writes take effect one after the other

Any number of flows work on the same objects, while others create and delete these. In
whatever order their requests are served, every object is what the successful patches
make of it one by one, each computed from the spec that the one before has left. A flow
that returns has taken effect at one point of this order: it has written there, or there
was nothing left to write, or no object.
-/

namespace Cas

open Interference

variable {ι : Type} [DecidableEq ι]

/-- The flows that write under compare-and-set: the helper itself, with any function, and
those that are built on it. -/
inductive Flow where
  | patch (plural name : String) (mutate : Json → Option Json) (retries : Nat)
  | ensure (vpcName remoteVpc localConnectIp : String)
  | remove (vpcName remoteVpc : String)
  | attach (vpcName transitSubnet : String)
  | acls (T : RuleText) (transitSubnet eip : String) (wanted : List Json)
      (live : Option (List String))

/-- A flow that returns whether it has written. -/
def reporting (c : Call (Except Failure Bool)) : Call (Except Failure (Option Bool)) := do
  match ← c with
  | .error e => pure (.error e)
  | .ok written => pure (.ok (some written))

def Flow.program : Flow → Call (Except Failure (Option Bool))
  | .patch plural name mutate retries => reporting (patchSpecWithRetry plural name mutate retries)
  | .ensure vpcName remoteVpc ip => ensureVpcPeering vpcName remoteVpc ip
  | .remove vpcName remoteVpc => removeVpcPeering vpcName remoteVpc
  | .attach vpcName transitSubnet => attachVpcToTransit vpcName transitSubnet
  | .acls T transitSubnet eip wanted live => ensureTransitAcls T transitSubnet eip wanted live

/-- The object that a flow may write, and the function that it computes its patch with. A
router is attached with the CIDR that the transit subnet has when the flow reads it. -/
inductive Flow.Mutates : Flow → String → (Json → Option Json) → Prop where
  | patch {plural name : String} {mutate : Json → Option Json} {retries : Nat} :
      Mutates (.patch plural name mutate retries) (keyOf plural name) mutate
  | ensure {vpcName remoteVpc ip : String} :
      Mutates (.ensure vpcName remoteVpc ip) (keyOf "vpcs" vpcName) (ensureMutate remoteVpc ip)
  | remove {vpcName remoteVpc : String} :
      Mutates (.remove vpcName remoteVpc) (keyOf "vpcs" vpcName) (removeMutate remoteVpc)
  | attach {vpcName transitSubnet : String} (cidr : String) :
      Mutates (.attach vpcName transitSubnet) (keyOf "vpcs" vpcName)
        (attachMutate transitSubnet cidr)
  | acls {T : RuleText} {transitSubnet eip : String} {wanted : List Json}
      {live : Option (List String)} :
      Mutates (.acls T transitSubnet eip wanted live) (keyOf "subnets" transitSubnet)
        (aclsMutate T wanted (live.map fun l => l ++ [eip]))

variable {w : World ι} {key : String} {init : String → Option Json}

section Settled

/-- At some point there was no such object. -/
def Missing (init : String → Option Json) (key : String) (w : World ι) : Prop :=
  ∃ h, h <+: w.history ∧ replay init h key = none

/-- At some point the transit subnet had this CIDR. -/
def HadCidr (init : String → Option Json) (transitSubnet cidr : String) (w : World ι) : Prop :=
  ∃ h, h <+: w.history ∧ ∃ spec, replay init h (keyOf "subnets" transitSubnet) = some spec ∧
    (specOf spec).get "cidrBlock" = .str cidr

/-- What has come of the helper with this function: it wrote what the function returns at
the point of the write, or it wrote nothing as the function had nothing to do at some
point, or there was no object, or no attempt was left. -/
abbrev Helped (init : String → Option Json) (i : ι) (key : String)
    (mutate : Json → Option Json) (retries : Nat) (w : World ι) (x : Except Failure Bool) : Prop :=
  Tried init i key mutate (Missing init key) retries w x

/-- What has come of a flow that has ended: it has not written if it raises; if it returns,
its function has taken effect at one point. A peering is not reported missing if it was
written, and where it is reported missing there was no router at some point. -/
def Settled (init : String → Option Json) (i : ι) (w : World ι) :
    Flow → Except Failure (Option Bool) → Prop
  | _, .error _ => writes i w.history = 0
  | .patch plural name mutate retries, .ok (some written) =>
    Helped init i (keyOf plural name) mutate retries w (.ok written)
  | .ensure vpcName remoteVpc ip, .ok (some found) =>
    ∃ written, Helped init i (keyOf "vpcs" vpcName) (ensureMutate remoteVpc ip) defaultRetries w
      (.ok written) ∧ (found = false → written = false ∧ Missing init (keyOf "vpcs" vpcName) w)
  | .remove vpcName remoteVpc, .ok none =>
    ∃ written, Helped init i (keyOf "vpcs" vpcName) (removeMutate remoteVpc) defaultRetries w
      (.ok written)
  | .attach vpcName transitSubnet, .ok none =>
    ∃ cidr written, HadCidr init transitSubnet cidr w ∧
      Helped init i (keyOf "vpcs" vpcName) (attachMutate transitSubnet cidr) defaultRetries w
        (.ok written)
  | .acls T transitSubnet eip wanted live, .ok none =>
    wanted.isEmpty ∧ writes i w.history = 0 ∨
      ∃ written, Helped init i (keyOf "subnets" transitSubnet)
        (aclsMutate T wanted (live.map fun l => l ++ [eip])) defaultRetries w (.ok written)
  | _, .ok _ => False

end Settled

section Flows

variable {flow : Flow} {vpcName : String} {p : Call (Except Failure Bool)} {retries : Nat}
  {extra : World ι → World ι → Prop} {i : ι} {mutate : Json → Option Json}
  {mutates : String → (Json → Option Json) → Prop}

theorem Does.frame {α : Type} {P R : World ι → Prop} {p : Call α} {Q : α → World ι → Prop}
    (hR : ∀ w v : World ι, w.history <+: v.history → R w → R v)
    (h : Does init mutates extra i P p Q) :
    Does init mutates extra i (fun w => P w ∧ R w) p fun a w => Q a w ∧ R w :=
  Triple.frame (fun c w => c.keeps w) (fun f _ r hw => hw.serve f r)
    (stable_of_rely fun w v _ _ hrely => hR w v hrely.1.history)
    (fun f w r _ _ => hR w _ (passes_serve f r).history) (.always p) h

omit [DecidableEq ι] in
theorem missing_of_lookup (hw : Sound init w) (hnone : w.objects.lookup key = none) :
    Missing init key { w with history := w.history ++ [.missed i key] } := by
  refine ⟨w.history, List.prefix_append _ _, ?_⟩
  rw [← hw.2 key, hnone]
  rfl

theorem lasts_helped (x : Except Failure Bool) :
    Lasts init extra i fun w => Helped init i key mutate retries w x := by
  match x with
  | .ok true => exact lasts_written key mutate
  | .ok false =>
    refine (lasts_writes 0).and fun w v hw hv hrely hnothing => ?_
    obtain hzero | hmissing | hidle := hnothing
    · exact .inl hzero
    · exact .inr (.inl (lasts_past _ w v hw hv hrely hmissing))
    · exact .inr (.inr (lasts_past _ w v hw hv hrely hidle))
  | .error _ => exact lasts_writes 0

/-- A program that does what the helper does. -/
abbrev Helps (init : String → Option Json) (mutates : String → (Json → Option Json) → Prop)
    (extra : World ι → World ι → Prop) (i : ι) (key : String) (mutate : Json → Option Json)
    (retries : Nat) (p : Call (Except Failure Bool)) : Prop :=
  Does init mutates extra i (fun w => writes i w.history = 0) p fun x w =>
    Helped init i key mutate retries w x

theorem helps_attempts (hmut : mutates key mutate) (retries : Nat) :
    Helps init mutates extra i key mutate retries (attempts key mutate retries) :=
  does_attempts hmut (lasts_past _) (fun _ hw hnone => missing_of_lookup hw hnone) retries

theorem does_getObject (plural name : String) :
    Does init mutates extra i (fun w => writes i w.history = 0) (getObject plural name)
      fun x w => writes i w.history = 0 ∧
        (x = .ok none → Missing init (keyOf plural name) w) ∧
        ∀ spec, x = .ok (some spec) →
          ∃ h, h <+: w.history ∧ replay init h (keyOf plural name) = some spec := by
  refine .bind (Does.get (M := Missing init (keyOf plural name)) (lasts_writes 0) (lasts_past _)
    (fun _ hw hnone => missing_of_lookup hw hnone) fun w hw => ?_) fun x => ?_
  · rw [writes_append, hw]
    rfl
  · cases x with
    | ok item =>
      refine Does.weaken (P := fun w => writes i w.history = 0 ∧
          ∃ h, h <+: w.history ∧ replay init h (keyOf plural name) = some item.value)
        (.pure ((lasts_writes 0).and (lasts_past _)) fun w hw => ⟨hw.1, by simp, ?_⟩)
        (fun w hw => ⟨hw.1, (hw.2.2 item rfl).2⟩) fun _ _ h => h
      rintro spec hspec
      obtain rfl := Option.some.inj (Except.ok.inj hspec)
      exact hw.2
    | error status =>
      by_cases hstatus : status = 404
      · subst hstatus
        exact Does.weaken (P := fun w => writes i w.history = 0 ∧
            Missing init (keyOf plural name) w)
          (.pure ((lasts_writes 0).and (lasts_past _)) fun w hw => ⟨hw.1, fun _ => hw.2, by simp⟩)
          (fun w hw => ⟨hw.1, hw.2.1 rfl⟩) fun _ _ h => h
      · refine Does.weaken (P := fun w => writes i w.history = 0) ?_ (fun _ hw => hw.1)
          fun _ _ h => h
        split
        · next heq => exact absurd (Except.error.inj heq) hstatus
        · exact .pure (lasts_writes 0) fun w hw => ⟨hw, by simp, by simp⟩
        · contradiction

/-- A flow that ends with the helper comes to what the helper comes to. -/
theorem Helps.bind {f : Except Failure Bool → Call (Except Failure (Option Bool))}
    {R : World ι → Prop} (h : Helps init mutates extra i key mutate retries p)
    (hR : ∀ w v : World ι, w.history <+: v.history → R w → R v) (answer : Bool → Option Bool)
    (herror : ∀ e, f (.error e) = pure (.error e))
    (hok : ∀ written, f (.ok written) = pure (.ok (answer written)))
    (hsettled : ∀ w written, R w → Helped init i key mutate retries w (.ok written) →
      Settled init i w flow (.ok (answer written))) :
    Does init mutates extra i (fun w => writes i w.history = 0 ∧ R w) (p >>= f)
      fun x w => Settled init i w flow x := by
  refine .bind (h.frame hR) fun x => ?_
  cases x with
  | error e =>
    rw [herror]
    exact Does.weaken (.pure (lasts_writes 0) fun w hw => by rwa [Settled]) (fun _ hw => hw.1)
      fun _ _ h => h
  | ok written =>
    rw [hok]
    exact .pure ((lasts_helped _).and fun w v _ _ hrely => hR w v hrely.1.history) fun w hw =>
      hsettled w written hw.2 hw.1

theorem Helps.settled {f : Except Failure Bool → Call (Except Failure (Option Bool))}
    (h : Helps init mutates extra i key mutate retries p) (answer : Bool → Option Bool)
    (herror : ∀ e, f (.error e) = pure (.error e))
    (hok : ∀ written, f (.ok written) = pure (.ok (answer written)))
    (hsettled : ∀ w written, Helped init i key mutate retries w (.ok written) →
      Settled init i w flow (.ok (answer written))) :
    Does init mutates extra i (fun w => writes i w.history = 0) (p >>= f)
      fun x w => Settled init i w flow x :=
  Does.weaken (h.bind (R := fun _ => True) (fun _ _ _ _ => trivial) answer herror hok
    fun w written _ => hsettled w written) (fun _ hw => ⟨hw, trivial⟩) fun _ _ h => h

/-- The object is not there, the helper has not written, or what it has found was wanted. -/
theorem does_ensureVpcPeering {remoteVpc ip : String}
    (hmut : mutates (keyOf "vpcs" vpcName) (ensureMutate remoteVpc ip)) :
    Does init mutates extra i (fun w => writes i w.history = 0)
      (ensureVpcPeering vpcName remoteVpc ip)
      fun x w => Settled init i w (.ensure vpcName remoteVpc ip) x := by
  refine .bind (helps_attempts hmut defaultRetries) fun x => ?_
  cases x with
  | error e => exact .pure (lasts_writes 0) fun w hw => hw
  | ok written =>
    cases written with
    | true => exact .pure (lasts_helped _) fun w hw => ⟨true, hw, by simp⟩
    | false =>
      refine .bind (Does.frame (R := fun w => defaultRetries = 0 ∨
        Missing init (keyOf "vpcs" vpcName) w ∨ Idle init (keyOf "vpcs" vpcName)
          (ensureMutate remoteVpc ip) w) ?_ (does_getObject "vpcs" vpcName)) fun y => ?_
      · rintro w v hpre (hzero | ⟨h, hh, hnone⟩ | ⟨h, hh, hidle⟩)
        · exact .inl hzero
        · exact .inr (.inl ⟨h, hh.trans hpre, hnone⟩)
        · exact .inr (.inr ⟨h, hh.trans hpre, hidle⟩)
      · cases y with
        | error e =>
          exact Does.weaken (.pure (lasts_writes 0) fun w hw => hw) (fun _ hw => hw.1.1)
            fun _ _ h => h
        | ok vpc =>
          refine Does.weaken (P := fun w => Helped init i (keyOf "vpcs" vpcName)
              (ensureMutate remoteVpc ip) defaultRetries w (.ok false) ∧
                (vpc = none → Missing init (keyOf "vpcs" vpcName) w))
            (.pure ((lasts_helped _).and ?_) fun w hw => ⟨false, hw.1, fun hnone => ?_⟩)
            (fun w hw => ⟨⟨hw.1.1, hw.2⟩, fun hnone => hw.1.2.1 (by rw [hnone])⟩) fun _ _ h => h
          · exact fun w v hw hv hrely h hnone => lasts_past _ w v hw hv hrely (h hnone)
          · exact ⟨rfl, hw.2 (Option.not_isSome_iff_eq_none.mp (by simpa using hnone))⟩

theorem does_attachVpcToTransit {transitSubnet : String}
    (hmut : ∀ cidr, mutates (keyOf "vpcs" vpcName) (attachMutate transitSubnet cidr)) :
    Does init mutates extra i (fun w => writes i w.history = 0)
      (attachVpcToTransit vpcName transitSubnet)
      fun x w => Settled init i w (.attach vpcName transitSubnet) x := by
  have hraise : ∀ e, Does init mutates extra i (fun w => writes i w.history = 0)
      (pure (.error e)) fun x w => Settled init i w (.attach vpcName transitSubnet) x :=
    fun e => .pure (lasts_writes 0) fun w hw => hw
  refine .bind (does_getObject "subnets" transitSubnet) fun x => ?_
  match x with
  | .error e => exact Does.weaken (hraise e) (fun _ hw => hw.1) fun _ _ h => h
  | .ok none => exact Does.weaken (hraise _) (fun _ hw => hw.1) fun _ _ h => h
  | .ok (some spec) =>
    dsimp only
    split
    · next cidr hcidr =>
      split
      · exact Does.weaken (hraise _) (fun _ hw => hw.1) fun _ _ h => h
      · have hpatch : Does init mutates extra i
            (fun w => writes i w.history = 0 ∧ HadCidr init transitSubnet cidr w)
            (Cas.discard (patchSpecWithRetry "vpcs" vpcName (attachMutate transitSubnet cidr)
              defaultRetries)) fun x w => Settled init i w (.attach vpcName transitSubnet) x :=
          (helps_attempts (hmut cidr) defaultRetries).bind
            (fun _ _ hpre hhad => hhad.imp fun _ h => ⟨h.1.trans hpre, h.2⟩) (fun _ => none)
            (fun _ => rfl) (fun _ => rfl)
            fun _ written hhad hhelped => ⟨cidr, written, hhad, hhelped⟩
        refine Does.weaken hpatch (fun w hw => ⟨hw.1, ?_⟩) fun _ _ h => h
        obtain ⟨h, hh, hspec⟩ := hw.2.2 spec rfl
        exact ⟨h, hh, spec, hspec, hcidr⟩
    · exact Does.weaken (hraise _) (fun _ hw => hw.1) fun _ _ h => h

theorem Flow.does (flow : Flow) :
    Does init flow.Mutates extra i (fun w => writes i w.history = 0) flow.program
      fun x w => Settled init i w flow x := by
  cases flow with
  | patch plural name mutate retries =>
    exact (helps_attempts .patch retries).settled some (fun _ => rfl)
      (fun _ => rfl) fun _ _ hhelped => hhelped
  | ensure vpcName remoteVpc ip => exact does_ensureVpcPeering .ensure
  | remove vpcName remoteVpc =>
    exact (helps_attempts .remove defaultRetries).settled (fun _ => none) (fun _ => rfl)
      (fun _ => rfl) fun _ written hhelped => ⟨written, hhelped⟩
  | attach vpcName transitSubnet => exact does_attachVpcToTransit .attach
  | acls T transitSubnet eip wanted live =>
    simp only [program, ensureTransitAcls]
    split
    · next hempty => exact .pure (lasts_writes 0) fun w hw => .inl ⟨hempty, hw⟩
    · exact (helps_attempts .acls defaultRetries).settled (fun _ => none)
        (fun _ => rfl) (fun _ => rfl) fun _ written hhelped => .inr ⟨written, hhelped⟩

end Flows

/-- What is there when the flows start. -/
structure Snapshot where
  clock : Nat
  objects : Store Json
  timely : objects.Timely clock

namespace Snapshot

def world (s : Snapshot) : World ι := ⟨s.clock, s.objects, []⟩

def specs (s : Snapshot) (key : String) : Option Json := (s.objects.lookup key).map (·.value)

omit [DecidableEq ι] in
theorem sound (s : Snapshot) : Sound s.specs (s.world : World ι) := ⟨s.timely, fun _ => rfl⟩

end Snapshot

/-- The flows before any of them has asked for anything. -/
def start (s : Snapshot) (flows : ι → Flow) :
    Crowd (World ι) Request Request.Response ι (Except Failure (Option Bool)) :=
  ⟨s.world, fun i => (flows i).program⟩

/-- Each merged patch is its client's function of what the objects were, and no client has
written twice. -/
structure Orderly (init : String → Option Json) (flows : ι → Flow) (history : List (Event ι)) :
    Prop where
  earned : ∀ before i key patch, before ++ [.merged i key patch] <+: history →
    Earned (flows i).Mutates key patch (replay init before)
  once : ∀ i, writes i history ≤ 1

section Runs

variable {flows : ι → Flow} {history : List (Event ι)}

theorem orderly_nil : Orderly init flows [] where
  earned before i key patch h := absurd (List.prefix_nil.mp h) (by simp)
  once i := Nat.zero_le 1

theorem Orderly.concat (h : Orderly init flows history) {e : Event ι}
    (he : ∀ i key patch, e ≠ .merged i key patch) : Orderly init flows (history ++ [e]) where
  earned before i key patch hpre := by
    obtain ⟨-, hlast⟩ | hpre := Logs.last_or_before hpre
    · exact absurd hlast.symm (he i key patch)
    · exact h.earned before i key patch hpre
  once i := by
    rw [writes_append]
    cases e with
    | merged j key patch => exact absurd rfl (he j key patch)
    | put key spec => exact h.once i
    | deleted key => exact h.once i
    | missed j key => exact h.once i

theorem Orderly.merged (h : Orderly init flows history) {i : ι} {patch : Json}
    (hfirst : writes i history = 0)
    (hearned : Earned (flows i).Mutates key patch (replay init history)) :
    Orderly init flows (history ++ [.merged i key patch]) where
  earned before j key' patch' hpre := by
    obtain ⟨rfl, hlast⟩ | hpre := Logs.last_or_before hpre
    · obtain ⟨rfl, rfl, rfl⟩ := Event.merged.inj hlast
      exact hearned
    · exact h.earned before j key' patch' hpre
  once j := by
    rw [writes_append]
    by_cases hij : i = j
    · subst hij
      rw [hfirst]
      simp [writes]
    · have hle := h.once j
      simpa [writes, hij] using hle

theorem Orderly.serve (h : Orderly init flows w.history) {i : ι} {fault : Fault} {r : Request}
    (hguar : Guaranteed init (flows i).Mutates i w (Cas.serve i fault w r).2) :
    Orderly init flows (Cas.serve i fault w r).2.history := by
  obtain hsame | ⟨key, -, -, hmissed⟩ | ⟨key, patch, item, -, -, hmerged⟩ :=
    serve_cases (i := i) fault w r
  · rw [hsame]
    exact h
  · rw [hmissed]
    exact h.concat (by simp)
  · rw [hmerged] at hguar ⊢
    obtain ⟨hfirst, hearned⟩ := hguar key patch rfl
    exact h.merged hfirst hearned

theorem Orderly.act (h : Orderly init flows w.history) (a : Action) :
    Orderly init flows (Cas.act a w).history := by
  cases a with
  | put key spec => exact h.concat (by simp)
  | delete key => exact h.concat (by simp)
  | touch key =>
    simp only [Cas.act]
    split <;> exact h

/-- Every object's spec is what the patches of the flows, and what others do, make of it in
the order of their commits, each patch computed from the spec it is merged into; no flow
writes twice, one that gives up has not written, and one that returns has taken effect at
one point of this order. -/
theorem linearizable (s : Snapshot) (flows : ι → Flow)
    {t : Crowd (World ι) Request Request.Response ι (Except Failure (Option Bool))}
    (h : Crowd.Run serve act (fun _ _ => True) (start s flows) t) :
    (∀ key, (t.world.objects.lookup key).map (·.value) = replay s.specs t.world.history key) ∧
      (∀ before i key patch, before ++ [.merged i key patch] <+: t.world.history →
        Earned (flows i).Mutates key patch (replay s.specs before)) ∧
      (∀ i, writes i t.world.history ≤ 1) ∧
      ∀ i x, t.rest i = .pure x → Settled s.specs i t.world (flows i) x := by
  have hstart : Crowd.Legal (Sound s.specs) (Relied fun _ _ => True)
      (fun i w _ v => Guaranteed s.specs (flows i).Mutates i w v)
      (fun i x w => Settled s.specs i w (flows i) x) serve (start s flows) :=
    ⟨s.sound, fun i => (flows i).does s.world s.sound rfl⟩
  obtain ⟨hlegal, horderly⟩ := Crowd.Run.invariant
    (P := fun w => Orderly s.specs flows w.history)
    (fun i w => ⟨Passes.refl w, rfl, trivial⟩) (fun i fault w r hw => hw.serve fault r)
    (fun t a _ hw hP => ⟨hw.act a, fun i => ⟨passes_act a, writes_act a, trivial⟩, hP.act a⟩)
    (fun t i fault r k _ _ _ hP hguar => ⟨fun j hji =>
      ⟨passes_serve fault r, writes_serve_of_ne hji fault r, trivial⟩, hP.serve hguar⟩)
    hstart orderly_nil h
  exact ⟨hlegal.1.2, horderly.earned, horderly.once, fun i x hdone => hlegal.returned hdone⟩

/-- A router that two flows want to add a peering to. -/
def shared : Snapshot where
  clock := 1
  objects := AList.insert "vpcs/a" ⟨1, .obj []⟩ ∅
  timely := Store.timely_empty.insert _

def racers (second : Bool) : Flow :=
  if second then .ensure "a" "c" "10.255.0.5/30" else .ensure "a" "b" "10.255.0.1/30"

/-- Both read the router before either writes; the second is refused, and reads again. -/
def race : List (Turn Action Fault Bool) :=
  [.call false none, .call true none, .call false none, .call true none, .call true none,
    .call true none]

theorem linearizable_race : ∃ t, Crowd.play serve act (start shared racers) race = some t ∧
    (t.world.objects.lookup "vpcs/a").map (·.value) =
      replay shared.specs t.world.history "vpcs/a" ∧
    writes true t.world.history ≤ 1 ∧ t.world.history.length = 2 ∧
    ∀ second, t.rest second = .pure (.ok (some true)) ∧
      Settled shared.specs second t.world (racers second) (.ok (some true)) := by
  have hplay : Crowd.play serve act (start shared racers) race = some _ := rfl
  obtain ⟨hspecs, -, honce, hsettled⟩ := linearizable shared racers (Crowd.run_of_play hplay)
  refine ⟨_, hplay, hspecs "vpcs/a", honce true, rfl, fun second => ?_⟩
  cases second with
  | false => exact ⟨rfl, hsettled false _ rfl⟩
  | true => exact ⟨rfl, hsettled true _ rfl⟩

end Runs

end Cas
