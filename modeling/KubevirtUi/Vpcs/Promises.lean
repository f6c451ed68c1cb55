import KubevirtUi.Vpcs.Clients

/-!
# What the requests keep to, and what they have done when they succeed

Most of what a request does is no write to a router. A side is laid down under the version that it
was computed from; all other writes say so themselves. A request that has succeeded has left its
writes in the log, or has missed one that it does not report.
-/

namespace Vpcs

open Peering Interference Logs List

variable {ι : Type}

variable {α : Type} {job : Job} {p : Call α} {i : ι} {w : World ι} {name : String}

section Among

variable {among : Request → Prop}

variable {body : Call α}

theorem every_exceptApi {handler : Nat → Call α} (hbody : Every among body.run)
    (hhandler : ∀ status, Every among (handler status).run) :
    Every among (exceptApi body handler).run :=
  hbody.tryCatch fun e => match e with
    | .api status => hhandler status
    | .http .. | .noMatch | .wrapped .. | .other _ => .throw _

theorem every_swallowing {body : Call Unit} (hbody : Every among body.run) :
    Every among (swallowing body).run := hbody.tryCatch fun _ => .pure ()

theorem every_wrapping {doing : String} (hbody : Every among body.run) :
    Every among (wrapping doing body).run := hbody.tryCatch fun _ => .throw _

theorem every_getVpcSubnets (purpose : Purpose) (vpcName : String) :
    Every Request.Plain (getVpcSubnets purpose vpcName).run :=
  (every_exceptApi (.ask trivial) fun _ => .pure _).bind fun _ => .pure _

theorem every_vpcSubnetCidrs (vpcName : String) :
    Every Request.Plain (vpcSubnetCidrs vpcName).run :=
  (every_getVpcSubnets .routes vpcName).bind fun _ => .pure _

theorem every_vpcIfAny (vpcName : String) : Every Request.Plain (vpcIfAny vpcName).run := by
  refine every_exceptApi (Every.bind (.ask trivial) fun _ => .pure _) fun status => ?_
  split
  · exact .pure _
  · exact .throw _

theorem every_getSpec (vpcName : String) : Every Request.Plain (getSpec vpcName).run := by
  refine every_exceptApi (Every.bind (.ask trivial) fun _ => .pure _) fun status => ?_
  split <;> exact .throw _

theorem every_linkFor (other : String → Except Failure Link) (linkCIDR : Option String) :
    Every Request.Plain (linkFor other linkCIDR).run := by
  unfold linkFor
  split
  · exact .ask trivial
  · cases pinnedLink other (linkCIDR.getD "") with
    | ok link => exact .pure link
    | error e => exact .throw e

theorem every_peeringCr (a b : String) : Every Request.Plain (peeringCr a b).run := by
  refine every_exceptApi (Every.bind (.ask trivial) fun _ => .pure _) fun status => ?_
  split
  · exact .pure _
  · exact .throw _

theorem every_getVpcPeerings (vpcName : String) :
    Every Request.Plain (getVpcPeerings vpcName).run :=
  every_exceptApi (Every.bind (.ask trivial) fun _ => .pure _) fun _ => .pure _

theorem every_claimedRemotes (vpcName : String) :
    Every Request.Plain (claimedRemotes vpcName).run := by
  refine every_exceptApi (Every.bind (.ask trivial) fun _ => .pure _) fun status => ?_
  split
  · exact .pure _
  · exact .throw _

theorem every_managedNetworkCascades (name : String) :
    Every Request.Plain (managedNetworkCascades name).run := by
  refine every_exceptApi (Every.bind (.ask trivial) fun _ => .pure _) fun status => ?_
  split
  · exact .pure _
  · exact .throw _

theorem every_awaitManagedNetworkGone (name : String) (attempts : Nat) :
    Every Request.Plain (awaitManagedNetworkGone name attempts).run := by
  induction attempts with
  | zero => exact .pure ()
  | succ attempts ih =>
    refine (every_managedNetworkCascades name).bind fun found => ?_
    cases found with
    | none => exact .pure ()
    | some _ => exact ih

theorem every_getTracking (vpcName : String) : Every Request.Plain (getTracking vpcName).run := by
  refine every_exceptApi (.ask trivial) fun status => ?_
  split
  · exact .pure _
  · exact .throw _

theorem every_natNames (name : String) (plurals : List String) :
    Every Request.Plain (natNames name plurals).run := by
  induction plurals with
  | nil => exact .pure []
  | cons plural rest ih =>
    exact (every_exceptApi (.ask trivial) fun _ => .pure _).bind fun _ => ih.bind fun _ => .pure _

theorem every_tolerating (e : Errand) : Every Request.Plain (tolerating e).run :=
  every_exceptApi (.ask trivial) fun _ => .pure _

theorem every_deleteSubnets (h : ∀ n, among (.deleteSubnet n)) (names : List String) :
    Every among (deleteSubnets names).run := by
  induction names with
  | nil => exact .pure ()
  | cons n rest ih => exact (every_exceptApi (.ask (h n)) fun _ => .pure _).bind fun _ => ih

theorem every_stillPresent {get : String → Call Unit} (hget : ∀ n, Every among (get n).run)
    (names : List String) : Every among (stillPresent get names).run := by
  induction names with
  | nil => exact .pure []
  | cons n rest ih =>
    exact (every_exceptApi ((hget n).bind fun _ => .pure _) fun _ => .pure _).bind fun _ =>
      ih.bind fun _ => .pure _

theorem every_natPresent (h : ∀ plural n, among (.getNat plural n)) (nat : Names) :
    Every among (natPresent nat).run := by
  induction nat with
  | nil => exact .pure []
  | cons kind rest ih =>
    exact (every_stillPresent (fun n => .ask (h kind.1 n)) kind.2).bind fun _ =>
      ih.bind fun _ => .pure _

theorem every_dependentsLeft (subnets : List String) (nat : Names) :
    Every Request.Plain (dependentsLeft subnets nat).run :=
  (every_stillPresent (fun _ => .bind (.ask trivial) fun _ => .pure _) subnets).bind fun _ =>
    (every_natPresent (fun _ _ => trivial) nat).bind fun _ => .pure _

theorem every_awaitDependentsGone (subnets : List String) (nat : Names) (rounds : Nat) :
    Every Request.Plain (awaitDependentsGone subnets nat rounds).run := by
  induction rounds with
  | zero => exact every_dependentsLeft subnets nat
  | succ rounds ih =>
    refine (every_dependentsLeft subnets nat).bind fun left => ?_
    split
    · exact .pure _
    · refine .bind (.ask trivial) fun late => ?_
      split
      · exact .pure _
      · exact ih

theorem every_deleteIfPresent {kind : String} {get : Call Bool} {delete : Call Unit}
    (hget : Every among get.run) (hdelete : Every among delete.run) :
    Every among (deleteIfPresent kind get delete).run := by
  refine .bind ((hget.bind fun _ => .pure _).tryCatch fun e => ?_) fun present => ?_
  · split
    · exact .pure _
    · exact .throw _
  · match present with
    | none | some true => exact .pure ()
    | some false =>
      refine hdelete.tryCatch fun e => ?_
      split
      · exact .pure ()
      · exact .throw _

theorem every_subnetsOf (vpc : String) : Every Request.Plain (subnetsOf vpc).run :=
  (every_wrapping (.ask trivial)).bind fun _ => .pure _

theorem every_deleteAllPresent (names : List String) :
    Every Request.Plain (deleteAllPresent names).run := by
  induction names with
  | nil => exact .pure ()
  | cons n rest ih =>
    exact (every_deleteIfPresent (Every.bind (.ask trivial) fun _ => .pure _)
      (.ask trivial)).bind fun _ => ih

theorem every_proper (h : Every Request.Plain p.run) : Every (Request.Proper job) p.run :=
  h.mono fun _ => Request.Plain.proper

theorem every_removeVpcExternalConfig (vpcName : String) :
    Every (Request.Proper job) (removeVpcExternalConfig vpcName).run := by
  refine (every_proper (every_vpcIfAny vpcName)).bind fun found => ?_
  match found with
  | none => exact .pure ()
  | some item =>
    dsimp only
    split
    · exact .ask ⟨rfl, rfl⟩
    · exact .pure ()

theorem every_cleanupOvnGateway (vpcName : String) :
    Every (Request.Proper job) (cleanupOvnGateway vpcName).run := by
  refine .bind (.ask trivial) fun _ =>
    (every_proper (every_getTracking vpcName)).bind fun tracking => ?_
  split
  · exact .bind (.pure ()) fun _ => .ask trivial
  · exact (every_removeVpcExternalConfig vpcName).bind fun _ => .ask trivial

theorem every_takeGateway (name : String) : Every (Request.Proper job) (takeGateway name).run := by
  refine (every_proper (every_getTracking name)).bind fun tracking => ?_
  split
  · exact (every_proper (every_natNames name natPlurals)).bind fun _ =>
      (every_swallowing (every_cleanupOvnGateway name)).bind fun _ => .pure _
  · exact .pure []

theorem every_removePeeringSide {undo : Bool} {vpcName remoteVpc : String}
    (h : undo = false → job.Deletes vpcName remoteVpc) :
    Every (Request.Proper job) (removePeeringSide undo vpcName remoteVpc).run := by
  refine (every_proper (every_vpcIfAny vpcName)).bind fun found => ?_
  match found with
  | none => exact .pure ()
  | some item =>
    exact (every_proper (every_vpcSubnetCidrs remoteVpc)).bind fun _ => .ask ⟨rfl, rfl, h⟩

theorem every_rollBack (applied : List (String × String)) :
    Every (Request.Proper job) (rollBack applied).run := by
  induction applied with
  | nil => exact .pure ()
  | cons side rest ih =>
    exact (every_swallowing (every_removePeeringSide (by simp))).bind fun _ => ih

theorem every_errand (e : Errand) : Every Request.Plain (ask (.errand e)).run := .ask trivial

theorem every_keepsLists (h : Every Request.Plain p.run) : Every Request.KeepsLists p.run :=
  h.mono fun _ => Request.Plain.keepsLists

theorem every_takeSubnets (rounds : Nat) (name : String) (nat : Names) :
    Every Request.KeepsLists (takeSubnets rounds name nat).run := by
  refine (every_keepsLists (every_getVpcSubnets .deletion name)).bind fun subnets => ?_
  refine (every_deleteSubnets (fun _ => trivial) _).bind fun _ => ?_
  refine (every_keepsLists (every_awaitDependentsGone _ nat rounds)).bind fun stranded => ?_
  split
  · exact .throw _
  · refine (every_exceptApi (.ask trivial) fun status => ?_).bind fun _ =>
      (every_swallowing (.ask trivial)).bind fun _ => .pure _
    split <;> exact .throw _

theorem every_tearDown (name : String) (finalizer : Bool) :
    Every Request.KeepsLists (tearDown name finalizer).run := by
  have herrand (kind : String) (e : Errand) : Every Request.Plain
      (deleteIfPresent kind (do ask (.errand e); return false) (ask (.errand e))).run :=
    every_deleteIfPresent ((every_errand e).bind fun _ => .pure _) (every_errand e)
  unfold tearDown
  split
  · exact .pure _
  refine (every_keepsLists (herrand _ .vpcDns)).bind fun _ => ?_
  refine (every_keepsLists (herrand _ .vpcDnsPolicy)).bind fun _ => ?_
  refine (every_keepsLists (every_subnetsOf name)).bind fun subnets => ?_
  refine (every_keepsLists (every_deleteAllPresent subnets)).bind fun _ => ?_
  refine (every_keepsLists (every_subnetsOf name)).bind fun stuck => ?_
  split
  · exact (every_keepsLists (every_errand .status)).bind fun _ => .pure _
  · refine .bind (every_deleteIfPresent (Every.bind (.ask trivial) fun _ => .pure _)
      (.ask trivial)) fun _ => ?_
    exact (every_keepsLists (every_wrapping (every_errand .finalizer))).bind fun _ => .pure _

end Among

section Answers

variable {fault : Fault}

/-- A router has been read, or it is not there, or it has been missed. -/
theorem served_getVpc (i : ι) (fault : Fault) (w : World ι) (name : String) :
    (∃ item, serve i fault w (.getVpc name) = (.ok item, w) ∧
      w.routers.lookup name = some item) ∨
    (serve i fault w (.getVpc name) = (.error (.api 404), w) ∧
      w.routers.lookup name = none) ∨
    ∃ e, e ≠ .api 404 ∧ serve i fault w (.getVpc name) = (.error e, w.note (.missed i name)) := by
  match fault with
  | some e => exact .inr (.inr ⟨e.1, e.2, rfl⟩)
  | none =>
    simp only [serve, commit]
    cases hitem : w.routers.lookup name with
    | none => exact .inr (.inl ⟨rfl, rfl⟩)
    | some item => exact .inl ⟨item, rfl, rfl⟩

/-- A patch has been merged, or the router is not there or another than it was read, or it has been
missed. -/
theorem served_patchVpc (i : ι) (fault : Fault) (w : World ι) (name : String)
    (version : Option Nat) (patch : VpcSpec) (reason : Reason) :
    (∃ v, serve i fault w (.patchVpc name version patch reason) = (.ok (), v) ∧
      v.log = w.log ++ [reason.event i name]) ∨
    (∃ e, serve i fault w (.patchVpc name version patch reason) = (.error e, w) ∧
      (w.routers.lookup name = none ∨ version ≠ none)) ∨
    ∃ e, serve i fault w (.patchVpc name version patch reason) =
      (.error e, w.note (.missed i name)) := by
  match fault with
  | some e => exact .inr (.inr ⟨e.1, rfl⟩)
  | none =>
    simp only [serve, commit]
    cases hitem : w.routers.lookup name with
    | none => exact .inr (.inl ⟨_, rfl, .inl rfl⟩)
    | some item =>
      dsimp only
      split
      · refine .inl ⟨_, rfl, ?_⟩
        simp only [World.patched]
        split <;> rfl
      · next hversion =>
        refine .inr (.inl ⟨_, rfl, .inr fun hnone => hversion ?_⟩)
        rw [hnone]
        rfl

end Answers

/-- The client has taken back nothing. -/
def NoUndo (i : ι) (w : World ι) : Prop := ∀ router remote, .taken i router remote true ∉ w.log

theorem lasts_noUndo (i : ι) : Lasts Timely (Relied i) (NoUndo i) := fun _ _ _ _ hrely h router
    remote htaken => h router remote ((hrely.log.mem_iff rfl).mp htaken)

theorem lasts_known (i : ι) (name : String) (item : Versioned VpcSpec) :
    Lasts Timely (Relied i) fun w => Store.Known w.routers w.clock name item :=
  fun _ _ _ _ hrely => hrely.known name item

theorem NoUndo.concat {v : World ι} {e : Event ι} (h : NoUndo i w) (hv : v.log = w.log ++ [e])
    (he : ∀ router remote, e ≠ .taken i router remote true) : NoUndo i v := by
  intro router remote htaken
  rw [hv, mem_append, mem_singleton] at htaken
  obtain hold | hnew := htaken
  · exact h router remote hold
  · exact he router remote hnew.symm

theorem NoUndo.served {r : Request} (h : NoUndo i w) (hr : r.Plain) (fault : Fault) :
    NoUndo i (serve i fault w r).2 := by
  obtain hlog | ⟨e, he, hlog⟩ := log_serve i fault w r
  · intro router remote htaken
    rw [hlog] at htaken
    exact h router remote htaken
  · refine h.concat hlog fun router remote htaken => ?_
    subst htaken
    cases r with
    | patchVpc _ _ _ _ | deleteVpc _ => exact hr
    | getVpcPeerings _ | listSubnets _ | getSubnet _ =>
      obtain ⟨_, he⟩ := he
      contradiction
    | getVpc _ | deleteRecord _ =>
      rw [Request.Notes] at he
      contradiction
    | _ => exact he

/-- A program keeps to how it may write, and what it achieves. -/
abbrev Tries {α : Type} (job : Job) (i : ι) (P : World ι → Prop) (p : Call α)
    (Q : α → World ι → Prop) (E : Failure → World ι → Prop) : Prop :=
  Attempts (serve i) Timely (Relied i) (fun w r _ => Sent job w r) P p Q E

variable {E' : Failure → World ι → Prop} {router : String}

section Rules

variable {β : Type} {P R : World ι → Prop} {Q : α → World ι → Prop} {E : Failure → World ι → Prop}

theorem tries_of_proper (hp : Every (Request.Proper job) p.run) (hR : Growing R) :
    Tries job i R p (fun _ => R) fun _ => R :=
  Attempts.keeps (timely_serve i) hR.lasts
    (fun fault w r htimely _ hw => hR.served fault w r htimely trivial hw)
    (fun _ _ _ _ hr => hr.sent) hp

theorem tries_noUndo (hp : Every Request.Plain p.run) :
    Tries job i (NoUndo i) p (fun _ => NoUndo i) fun _ => NoUndo i :=
  Attempts.keeps (timely_serve i) (lasts_noUndo i) (fun fault _ _ _ hr hw => hw.served hr fault)
    (fun _ _ _ _ hr => hr.proper.sent) hp

theorem Tries.noUndo (h : Tries job i P p Q E) (hp : Every Request.Plain p.run) :
    Tries job i (fun w => P w ∧ NoUndo i w) p (fun a w => Q a w ∧ NoUndo i w)
      fun e w => E e w ∧ NoUndo i w :=
  Attempts.frame (timely_serve i) (lasts_noUndo i)
      (fun fault _ _ _ hr hw => hw.served hr fault) hp h

theorem Tries.growing (h : Tries job i P p Q E) (hR : Growing R) :
    Tries job i (fun w => P w ∧ R w) p (fun a w => Q a w ∧ R w) fun e w => E e w ∧ R w :=
  Attempts.frame (timely_serve i) hR.lasts hR.served (Every.always p.run) h

theorem attempts_exceptApi {guar : World ι → Request → World ι → Prop} {handler : Nat → Call α}
    (hQ : ∀ a, Lasts Timely (Relied i) (Q a)) (hE : ∀ e, Lasts Timely (Relied i) (E e))
    (hp : Attempts (serve i) Timely (Relied i) guar P p Q E)
    (hother : ∀ e w, e.isApi = false → E e w → E' e w)
    (hapi : ∀ status, Attempts (serve i) Timely (Relied i) guar (E (.api status))
      (handler status) Q E') :
    Attempts (serve i) Timely (Relied i) guar P (exceptApi p handler) Q E' :=
  Attempts.tryCatch (timely_serve i) hQ hp fun e => match e with
    | .api status => hapi status
    | .http .. | .noMatch | .wrapped .. | .other _ =>
      Attempts.throw (hE _) fun w hw => hother _ w rfl hw

theorem attempts_bind {guar : World ι → Request → World ι → Prop} {f : α → Call β}
    {S : β → World ι → Prop} (hp : Attempts (serve i) Timely (Relied i) guar P p Q fun _ _ => True)
    (hf : ∀ a, Attempts (serve i) Timely (Relied i) guar (Q a) (f a) S fun _ _ => True) :
    Attempts (serve i) Timely (Relied i) guar P (p >>= f) S fun _ _ => True :=
  Attempts.bind (timely_serve i) (fun _ => lasts_const True) hp hf

end Rules

/-- The Subnets have been listed, unless there are none. -/
def Listing (before : List (Event ι)) (i : ι) (subnets : List Subnet) (w : World ι) : Prop :=
  subnets = [] ∨ Since before (.looked i .routes (.ok subnets)) w

/-- The Subnets could not be looked at. -/
def Blind (before : List (Event ι)) (i : ι) (w : World ι) : Prop :=
  ∃ e : Failure, e.isApi = false ∧ Since before (.looked i .routes (.error e)) w

/-- Both sides have been laid down over one link, for the prefixes that were listed. -/
def Made (i : ι) (name remote : String) (w : World ι) : Prop :=
  ∃ link found found', .looked i .routes (.ok found) ∈ w.log ∧
    .looked i .routes (.ok found') ∈ w.log ∧
    ∀ p ∈ sidesOver link name remote (cidrsOf found name) (cidrsOf found' remote),
      .laid i p.1 p.2 ∈ w.log

/-- The entry of another router has been taken away or named to the operator, or the router is not
there, or something was missed. -/
def Released (before : List (Event ι)) (i : ι) (name remote : String) (w : World ι) : Prop :=
  Since before (.handed i (peeringCrName name remote)) w ∨
    Since before (.taken i remote name false) w ∨ w.routers.lookup remote = none ∨
    Since before (.missed i remote) w ∨ Blind before i w

/-- What a request has done that reports its work as done. -/
def Job.Achieves (i : ι) (w : World ι) : Job → Prop
  | .createVpcPeering name remote _ => NoUndo i w ∧ Made i name remote w
  | .deleteVpcPeering name remote => ∀ p ∈ [(name, remote), (remote, name)],
    .taken i p.1 p.2 false ∈ w.log ∨ w.routers.lookup p.1 = none
  | .deleteVpc name => ∃ before found, before ++ [.listed i name found] <+: w.log ∧
    (∀ e, found = .error e → e.isApi = true) ∧
    ∀ remote ∈ found.toOption.getD [], remote ≠ "" →
      Released (before ++ [.listed i name found]) i name remote w
  | .tearDown .. => True

section Done

variable {before : List (Event ι)} {e : Event ι} {remote vpcName : String} {cidrs : List String}

theorem growing_mem (e : Event ι) : Growing fun w : World ι => e ∈ w.log :=
  fun _ _ h he => h.log.subset he

theorem growing_listing {subnets : List Subnet} : Growing (Listing before i subnets) :=
  (Growing.const _).or (growing_since before _)

theorem growing_blind : Growing (Blind before i) := fun w v h ⟨e, he, hlooked⟩ =>
  ⟨e, he, growing_since before _ w v h hlooked⟩

theorem growing_released : Growing (Released before i name remote) :=
  (growing_since before _).or <| (growing_since before _).or <| (growing_absent remote).or <|
    (growing_since before _).or growing_blind

theorem growing_made : Growing (Made i name remote) := by
  rintro w v h ⟨link, found, found', hfound, hfound', hlaid⟩
  exact ⟨link, found, found', h.log.subset hfound, h.log.subset hfound',
    fun p hp => h.log.subset (hlaid p hp)⟩

theorem tries_listing (before : List (Event ι)) : Tries job i (fun w => before <+: w.log)
      (exceptApi (ask (.listSubnets .routes)) fun _ => pure []) (Listing before i)
      fun _ => Blind before i := by
  refine attempts_exceptApi (E := fun e => Since before (.looked i .routes (.error e)))
    (fun _ => growing_listing.lasts) (fun e => (growing_since before _).lasts) ?_
    (fun e w he hw => ⟨e, he, hw⟩)
    fun status => .pure (growing_since before _).lasts fun w _ => .inl rfl
  refine .ask (timely_serve i) (growing_started before).lasts
    (fun _ => growing_listing.lasts) (fun _ => (growing_since before _).lasts)
    fun w fault _ hw => ⟨trivial, ?_⟩
  cases fault with
  | none => exact .inr (since_concat hw rfl)
  | some e => exact since_concat hw rfl

theorem tries_vpcSubnetCidrs (before : List (Event ι)) (vpcName : String) :
    Tries job i (fun w => before <+: w.log) (vpcSubnetCidrs vpcName)
      (fun cidrs w => ∃ found, cidrs = cidrsOf found vpcName ∧ Listing before i found w)
      fun _ => Blind before i := by
  have hlisting (f : List Subnet → List Subnet) (subnets : List Subnet) :
      Growing fun w => ∃ found, subnets = f found ∧ Listing before i found w :=
    fun w v h ⟨found, hsame, hw⟩ => ⟨found, hsame, growing_listing w v h hw⟩
  have hsubnets : Tries job i (fun w => before <+: w.log) (getVpcSubnets .routes vpcName)
      (fun subnets w => ∃ found, subnets = found.filter (fun s => s.vpc = some vpcName) ∧
        Listing before i found w) fun _ => Blind before i := by
    refine .bind (timely_serve i) (fun _ => growing_blind.lasts) (tries_listing before)
      fun subnets => ?_
    exact .pure growing_listing.lasts fun w hw => ⟨subnets, rfl, hw⟩
  refine .bind (timely_serve i) (fun _ => growing_blind.lasts) hsubnets fun subnets => ?_
  refine .pure (hlisting _ subnets).lasts fun w hw => ?_
  obtain ⟨found, rfl, hfound⟩ := hw
  exact ⟨found, rfl, hfound⟩

/-- A side that is laid down is laid down on what is there, and nothing is taken back. -/
theorem tries_applyPeeringSide (router : String) (side : Side) (left : Nat) :
    Tries job i (NoUndo i) (applyPeeringSide router side (left + 1))
      (fun _ w => .laid i router side ∈ w.log ∧ NoUndo i w) fun _ _ => True := by
  have hlaid : Lasts Timely (Relied i) fun w => .laid i router side ∈ w.log ∧ NoUndo i w :=
    (growing_mem _).lasts.and (lasts_noUndo i)
  have hknown (item : Versioned VpcSpec) : Lasts Timely (Relied i) fun w =>
      NoUndo i w ∧ Store.Known w.routers w.clock router item :=
    (lasts_noUndo i).and (lasts_known i router item)
  have hread : Tries job i (NoUndo i) (ask (.getVpc router))
      (fun item w => NoUndo i w ∧ Store.Known w.routers w.clock router item)
      fun _ _ => True := by
    refine .ask (timely_serve i) (lasts_noUndo i) hknown (fun _ => lasts_const True)
      fun w fault htimely hw => ⟨trivial, ?_⟩
    obtain ⟨item, hserve, hitem⟩ | ⟨hserve, -⟩ | ⟨e, -, hserve⟩ := served_getVpc i fault w router
    · rw [hserve]
      exact ⟨hw, htimely.known hitem⟩
    · rw [hserve]
      trivial
    · rw [hserve]
      trivial
  have hwrite (item : Versioned VpcSpec) : Tries job i
      (fun w => NoUndo i w ∧ Store.Known w.routers w.clock router item)
      (ask (.patchVpc router (some item.version) (peeringSidePatch item.value side) (.lay side)))
      (fun _ w => .laid i router side ∈ w.log ∧ NoUndo i w) fun _ => NoUndo i := by
    refine .ask (timely_serve i) (hknown item) (fun _ => hlaid) (fun _ => lasts_noUndo i)
      fun w fault _ hw => ⟨⟨item.version, rfl, fun found hfound hversion => ?_⟩, ?_⟩
    · rw [hw.2.2 found hfound hversion]
    · obtain ⟨v, hserve, hlog⟩ | ⟨e, hserve, -⟩ | ⟨e, hserve⟩ := served_patchVpc i fault w router
        (some item.version) (peeringSidePatch item.value side) (.lay side)
      · rw [hserve]
        refine ⟨?_, hw.1.concat hlog (by simp [Reason.event])⟩
        rw [hlog]
        exact mem_append_right _ (mem_singleton.mpr rfl)
      · rw [hserve]
        exact hw.1
      · rw [hserve]
        exact hw.1.concat rfl (by simp)
  induction left with
  | zero =>
    refine attempts_bind hread fun item => ?_
    refine attempts_exceptApi (fun _ => hlaid) (fun _ => lasts_noUndo i) (hwrite item)
      (fun _ _ _ _ => trivial) fun status => ?_
    rw [if_neg (by simp)]
    exact .throw (lasts_noUndo i) fun _ _ => trivial
  | succ left ih =>
    refine attempts_bind hread fun item => ?_
    refine attempts_exceptApi (fun _ => hlaid) (fun _ => lasts_noUndo i) (hwrite item)
      (fun _ _ _ _ => trivial) fun status => ?_
    split
    · exact ih
    · exact .throw (lasts_noUndo i) fun _ _ => trivial

/-- Where all sides are laid down, all are in the log, and nothing has been taken back. -/
theorem tries_applySides (applied : List (String × String)) (sides : List (String × Side)) :
    Tries job i (NoUndo i) (applySides applied sides)
      (fun _ w => (∀ p ∈ sides, .laid i p.1 p.2 ∈ w.log) ∧ NoUndo i w) fun _ _ => True := by
  induction sides generalizing applied with
  | nil =>
    exact .pure (lasts_noUndo i) fun w hw => ⟨by simp, hw⟩
  | cons p rest ih =>
    have hlaid : Lasts Timely (Relied i) fun w => .laid i p.1 p.2 ∈ w.log ∧ NoUndo i w :=
      (growing_mem _).lasts.and (lasts_noUndo i)
    refine attempts_bind (attempts_exceptApi (fun _ => hlaid) (fun _ => lasts_const True)
        (tries_applyPeeringSide p.1 p.2 4) (fun _ _ _ _ => trivial) fun status => ?_) fun _ => ?_
    · refine attempts_bind
        (tries_of_proper (every_rollBack applied) (Growing.const True)) fun _ => ?_
      exact .throw (lasts_const True) fun _ _ => trivial
    · refine ((ih (applied ++ [(p.1, p.2.remoteVpc)])).growing
        (growing_mem (.laid i p.1 p.2))).weaken (fun w hw => ⟨hw.2, hw.1⟩) (fun _ w hw => ?_)
        fun _ _ _ => trivial
      refine ⟨fun q hq => ?_, hw.1.2⟩
      obtain rfl | hrest := mem_cons.mp hq
      · exact hw.2
      · exact hw.1.1 q hrest

/-- The prefixes of a network, and where they come from. -/
def Prefixes (i : ι) (vpcName : String) (cidrs : List String) (w : World ι) : Prop :=
  ∃ found, cidrs = cidrsOf found vpcName ∧ Listing [] i found w

theorem growing_prefixes : Growing (Prefixes i vpcName cidrs) :=
  fun w v h ⟨found, hsame, hw⟩ => ⟨found, hsame, growing_listing w v h hw⟩

theorem Prefixes.looked (h : Prefixes i vpcName cidrs w) (hcidrs : cidrs ≠ []) :
    ∃ found, cidrs = cidrsOf found vpcName ∧ .looked i .routes (.ok found) ∈ w.log := by
  obtain ⟨found, rfl, rfl | hlooked⟩ := h
  · exact absurd rfl hcidrs
  · exact ⟨found, rfl, hlooked.mem⟩

theorem tries_prefixes (vpcName : String) : Tries job i (NoUndo i) (vpcSubnetCidrs vpcName)
      (fun cidrs w => Prefixes i vpcName cidrs w ∧ NoUndo i w) fun _ _ => True :=
  ((tries_vpcSubnetCidrs [] vpcName).noUndo (every_vpcSubnetCidrs vpcName)).weaken
    (fun _ hw => ⟨List.nil_prefix, hw⟩) (fun _ _ hw => hw) fun _ _ _ => trivial

theorem tries_joinOver (other : String → Except Failure Link) (linkCIDR : Option String)
    (localCIDRs remoteCIDRs : List String) :
    Tries job i (fun w => Prefixes i remote remoteCIDRs w ∧ Prefixes i name localCIDRs w ∧
        NoUndo i w)
      (joinOver other name remote linkCIDR localCIDRs remoteCIDRs)
      (fun _ w => NoUndo i w ∧ Made i name remote w) fun _ _ => True := by
  have hP : Growing fun w => Prefixes i remote remoteCIDRs w ∧ Prefixes i name localCIDRs w :=
    growing_prefixes.and growing_prefixes
  unfold joinOver
  split
  · refine .throw ?_ fun _ _ => trivial
    exact growing_prefixes.lasts.and (growing_prefixes.lasts.and (lasts_noUndo i))
  next hsome =>
  obtain ⟨hlocal, hremote⟩ := not_or.mp hsome
  have hlink : Tries job i (NoUndo i) (linkFor other linkCIDR) (fun _ => NoUndo i)
      fun _ _ => True :=
    (tries_noUndo (every_linkFor other linkCIDR)).forget
  have hboth : Tries job i (NoUndo i) (linkFor other linkCIDR >>= fun link =>
        applySides [] (sidesOver link name remote localCIDRs remoteCIDRs))
      (fun _ w => ∃ link, (∀ p ∈ sidesOver link name remote localCIDRs remoteCIDRs,
        .laid i p.1 p.2 ∈ w.log) ∧ NoUndo i w) fun _ _ => True := by
    refine attempts_bind hlink fun link => ?_
    exact (tries_applySides [] _).gives fun _ _ h => ⟨link, h⟩
  refine (hboth.growing hP).weaken (fun w hw => ⟨hw.2.2, hw.1, hw.2.1⟩) (fun _ w hw => ?_)
    fun _ _ _ => trivial
  obtain ⟨⟨link, hlaid, hno⟩, hfar, hnear⟩ := hw
  obtain ⟨found, rfl, hfound⟩ := hnear.looked hlocal
  obtain ⟨found', rfl, hfound'⟩ := hfar.looked hremote
  exact ⟨hno, link, found, found', hfound, hfound', hlaid⟩

theorem tries_createPeeringPair (other : String → Except Failure Link) (linkCIDR : Option String) :
    Tries job i (NoUndo i) (createPeeringPair other name remote linkCIDR)
      (fun _ w => NoUndo i w ∧ Made i name remote w) fun _ _ => True := by
  unfold createPeeringPair
  split
  · exact .throw (lasts_noUndo i) fun _ _ => trivial
  have hspec (vpcName : String) : Tries job i (NoUndo i) (getSpec vpcName) (fun _ => NoUndo i)
      fun _ _ => True :=
    (tries_noUndo (every_getSpec vpcName)).forget
  refine attempts_bind (hspec name) fun _ => ?_
  refine attempts_bind (hspec remote) fun _ => ?_
  refine attempts_bind (tries_prefixes name) fun localCIDRs => ?_
  have hfar : Tries job i (fun w => Prefixes i name localCIDRs w ∧ NoUndo i w)
      (vpcSubnetCidrs remote) (fun remoteCIDRs w => Prefixes i remote remoteCIDRs w ∧
        Prefixes i name localCIDRs w ∧ NoUndo i w) fun _ _ => True :=
    ((tries_prefixes remote).growing growing_prefixes).weaken (fun w hw => ⟨hw.2, hw.1⟩)
      (fun remoteCIDRs w hw => ⟨hw.1.1, hw.2, hw.1.2⟩) fun _ _ _ => trivial
  refine attempts_bind hfar fun remoteCIDRs => ?_
  exact tries_joinOver other linkCIDR localCIDRs remoteCIDRs

theorem tries_swallowing {P Q : World ι → Prop} {body : Call Unit} {E : Failure → World ι → Prop}
    (hQ : Lasts Timely (Relied i) Q) (hE : ∀ e, Lasts Timely (Relied i) (E e))
    (h : Tries job i P body (fun _ => Q) E) (hsub : ∀ e w, E e w → Q w) :
    Tries job i P (swallowing body) (fun _ => Q) E' :=
  Attempts.tryCatch (timely_serve i) (fun _ => hQ) h fun e => .pure (hE e) fun w => hsub e w

theorem tries_createVpcPeering (other : String → Except Failure Link) (linkCIDR : Option String) :
    Tries job i (NoUndo i) (createVpcPeering other name remote linkCIDR)
      (fun _ w => NoUndo i w ∧ Made i name remote w) fun _ _ => True := by
  have hdone : Lasts Timely (Relied i) fun w => NoUndo i w ∧ Made i name remote w :=
    (lasts_noUndo i).and growing_made.lasts
  refine attempts_bind (tries_createPeeringPair other linkCIDR) fun _ => ?_
  have hrest : Every Request.Plain (swallowing (ask (.errand .reconcileIsolationAcls)) >>= fun _ =>
        (pure .done : Call Outcome)).run :=
    (every_swallowing (.ask trivial)).bind fun _ => .pure _
  exact ((tries_noUndo hrest).growing growing_made).forget

/-- What has come of taking one side away, where it was not missed. -/
def Gone (before : List (Event ι)) (i : ι) (router remote : String) (w : World ι) : Prop :=
  Since before (.taken i router remote false) w ∨ w.routers.lookup router = none

/-- What kept a side from being taken away. -/
def Spared (before : List (Event ι)) (i : ι) (router : String) (w : World ι) : Prop :=
  w.routers.lookup router = none ∨ Since before (.missed i router) w ∨ Blind before i w

theorem growing_gone : Growing (Gone before i router remote) :=
  (growing_since before _).or (growing_absent router)

theorem growing_spared : Growing (Spared before i router) :=
  (growing_absent router).or ((growing_since before _).or growing_blind)

theorem tries_vpcIfAny (before : List (Event ι)) (router : String) :
    Tries job i (fun w => before <+: w.log) (vpcIfAny router)
      (fun found w => before <+: w.log ∧ (found = none → w.routers.lookup router = none))
      fun _ => Spared before i router := by
  have hfound (found : Option (Versioned VpcSpec)) : Growing fun w =>
      before <+: w.log ∧ (found = none → w.routers.lookup router = none) :=
    (growing_started before).and fun w v h hw hnone => h.absent router (hw hnone)
  have hfailed (e : Failure) : Growing fun w => before <+: w.log ∧
      (e = .api 404 → w.routers.lookup router = none) ∧
      (e ≠ .api 404 → Since before (.missed i router) w) :=
    (growing_started before).and (.and (fun w v h hw hsame => h.absent router (hw hsame))
      fun w v h hw hother => growing_since before _ w v h (hw hother))
  refine attempts_exceptApi (fun found => (hfound found).lasts) (fun e => (hfailed e).lasts)
    (Attempts.bind (timely_serve i) (fun e => (hfailed e).lasts) ?_ fun item =>
      Attempts.pure (Q := fun found w => before <+: w.log ∧
        (found = none → w.routers.lookup router = none)) (growing_started before).lasts
        fun w hw => ⟨hw, by simp⟩)
    (fun e w he hw => .inr (.inl (hw.2.2 ?_))) fun status => ?_
  · refine .ask (timely_serve i) (growing_started before).lasts
      (fun _ => (growing_started before).lasts) (fun e => (hfailed e).lasts)
      fun w fault _ hw => ⟨trivial, ?_⟩
    obtain ⟨item, hserve, -⟩ | ⟨hserve, hnone⟩ | ⟨e, he, hserve⟩ := served_getVpc i fault w router
    · rw [hserve]
      exact hw
    · rw [hserve]
      exact ⟨hw, fun _ => hnone, fun hne => absurd rfl hne⟩
    · rw [hserve]
      exact ⟨hw.trans (prefix_append _ _), fun hsame => absurd hsame he,
        fun _ => since_concat hw rfl⟩
  · rintro rfl
    contradiction
  · split
    · next hstatus =>
      exact .pure (hfailed _).lasts fun w hw => ⟨hw.1, fun _ => hw.2.1 (by rw [hstatus])⟩
    · next hstatus =>
      refine .throw (hfailed _).lasts fun w hw => .inr (.inl (hw.2.2 ?_))
      exact fun hsame => hstatus (Failure.api.inj hsame)

theorem tries_removePeeringSide (before : List (Event ι)) (h : job.Deletes router remote) :
    Tries job i (fun w => before <+: w.log) (removePeeringSide false router remote)
      (fun _ => Gone before i router remote) fun _ => Spared before i router := by
  refine .bind (timely_serve i) (fun _ => growing_spared.lasts)
    (tries_vpcIfAny before router) fun found => ?_
  match found with
  | none =>
    exact .pure ((growing_started before).and fun w v h hw hnone =>
      h.absent router (hw hnone)).lasts fun w hw => .inr (hw.2 rfl)
  | some item =>
    have hcidrs : Tries job i (fun w => before <+: w.log) (vpcSubnetCidrs remote)
        (fun _ w => before <+: w.log) fun _ => Spared before i router :=
      ((tries_vpcSubnetCidrs before remote).growing (growing_started before)).weaken
        (fun _ hw => ⟨hw, hw⟩) (fun _ _ hw => hw.2) fun _ _ hw => .inr (.inr hw.1)
    refine .bind (timely_serve i) (fun _ => growing_spared.lasts)
      (hcidrs.pre fun _ hw => hw.1) fun cidrs => ?_
    refine .ask (timely_serve i) (growing_started before).lasts
      (fun _ => growing_gone.lasts) (fun _ => growing_spared.lasts)
      fun w fault _ hw => ⟨⟨rfl, rfl, fun _ => h⟩, ?_⟩
    obtain ⟨v, hserve, hlog⟩ | ⟨e, hserve, hnone⟩ | ⟨e, hserve⟩ := served_patchVpc i fault w
      router none (withoutSide item.value remote cidrs) (.take remote cidrs item.value false)
    · rw [hserve]
      exact .inl (since_concat hw hlog)
    · rw [hserve]
      exact .inl (hnone.resolve_right (by simp))
    · rw [hserve]
      exact .inr (.inl (since_concat hw rfl))

/-- Where all sides are taken away, each is in the log, or its router is not there. -/
theorem tries_removeSides (sides : List (String × String)) (h : ∀ p ∈ sides, job.Deletes p.1 p.2) :
    Tries job i (fun _ => True) (removeSides sides)
      (fun _ w => ∀ p ∈ sides, .taken i p.1 p.2 false ∈ w.log ∨ w.routers.lookup p.1 = none)
      fun _ _ => True := by
  induction sides with
  | nil => exact .pure (lasts_const True) fun w _ => by simp
  | cons p rest ih =>
    have hgone : Growing (Gone [] i p.1 p.2) := growing_gone
    have hfirst : Tries job i (fun _ => True)
        (exceptApi (removePeeringSide false p.1 p.2) fun status =>
          throw (k8sErrorToHttp status ("removing peering from VPC '" ++ p.1 ++ "'")))
        (fun _ => Gone [] i p.1 p.2) fun _ _ => True := by
      refine attempts_exceptApi (fun _ => hgone.lasts) (fun _ => growing_spared.lasts)
        ((tries_removePeeringSide [] (h p (by simp))).pre fun _ _ => nil_prefix)
        (fun _ _ _ _ => trivial) fun status => ?_
      exact .throw growing_spared.lasts fun _ _ => trivial
    refine attempts_bind hfirst fun _ => ?_
    refine ((ih fun q hq => h q (mem_cons_of_mem p hq)).growing hgone).weaken
      (fun w hw => ⟨trivial, hw⟩) (fun _ w hw q hq => ?_) fun _ _ _ => trivial
    obtain rfl | hrest := mem_cons.mp hq
    · exact hw.2.imp Since.mem id
    · exact hw.1 q hrest

theorem tries_finish {R : World ι → Prop} (hR : Growing R) :
    Tries job i R (swallowing (ask (.errand .reconcileIsolationAcls)) >>= fun _ => pure .done)
      (fun x w => x = Outcome.done → R w) fun _ _ => True := by
  have hrest : Every Request.Plain (swallowing (ask (.errand .reconcileIsolationAcls)) >>= fun _ =>
        (pure .done : Call Outcome)).run :=
    (every_swallowing (.ask trivial)).bind fun _ => .pure _
  exact (tries_of_proper (every_proper hrest) hR).weaken (fun _ h => h) (fun _ _ h _ => h)
    fun _ _ _ => trivial

theorem tries_deleteVpcPeering :
    Tries (.deleteVpcPeering name remote) i (fun _ => True) (deleteVpcPeering name remote)
      (fun x w => x = .done → (Job.deleteVpcPeering name remote).Achieves i w)
      fun _ _ => True := by
  refine attempts_bind
    (tries_of_proper (every_proper (every_peeringCr name remote)) (Growing.const True))
    fun found => ?_
  split
  · refine attempts_bind (tries_of_proper (.ask trivial) (Growing.const True)) fun _ => ?_
    exact .pure (lasts_const True) fun w _ hdone => absurd hdone (by simp)
  · refine attempts_bind
      (tries_removeSides [(name, remote), (remote, name)] (by simp [Job.Deletes])) fun _ => ?_
    exact tries_finish fun w v h hw p hp => (hw p hp).imp (fun htaken => h.log.subset htaken)
      (h.absent p.1)

theorem releaseAll_cons (name remote : String) (claimed rest : List String) :
    releaseAll name claimed (remote :: rest) =
      (if remote = "" then pure ()
        else if remote ∈ claimed then
          exceptApi (ask (.deleteRecord (peeringCrName name remote))) fun _ => pure ()
        else swallowing (removePeeringSide false remote name)) >>= fun _ =>
      releaseAll name claimed rest := by
  rw [releaseAll]
  split
  · rfl
  · split <;> rfl

theorem tries_releaseAll (before : List (Event ι)) (claimed remotes : List String) :
    Tries (.deleteVpc name) i (fun w => before <+: w.log) (releaseAll name claimed remotes)
      (fun _ w => ∀ remote ∈ remotes, remote ≠ "" → Released before i name remote w)
      fun _ _ => True := by
  induction remotes with
  | nil => exact .pure (growing_started before).lasts fun w _ => by simp
  | cons remote rest ih =>
    have hone : Growing fun w => remote ≠ "" → Released before i name remote w :=
      fun w v h hw hne => growing_released w v h (hw hne)
    have hfirst : Tries (.deleteVpc name) i (fun w => before <+: w.log) (if remote = "" then pure ()
          else if remote ∈ claimed then
            exceptApi (ask (.deleteRecord (peeringCrName name remote))) fun _ => pure ()
          else swallowing (removePeeringSide false remote name))
        (fun _ w => remote ≠ "" → Released before i name remote w) fun _ _ => True := by
      split
      · next hempty =>
        exact .pure (growing_started before).lasts fun w _ hne => absurd hempty hne
      split
      · have hhanded : Growing (Since before (.handed i (peeringCrName name remote))) :=
          growing_since before _
        refine attempts_exceptApi (fun _ => hone.lasts) (fun _ => hhanded.lasts)
          (Attempts.ask (timely_serve i) (growing_started before).lasts (fun _ => hone.lasts)
            (fun _ => hhanded.lasts) fun w fault _ hw => ⟨trivial, ?_⟩)
          (fun _ _ _ _ => trivial) fun status =>
            Attempts.pure hhanded.lasts fun w hw _ => .inl hw
        cases fault with
        | none =>
          simp only [serve, commit]
          split
          · exact fun _ => .inl (since_concat hw rfl)
          · exact since_concat hw rfl
        | some e => exact since_concat hw rfl
      · have hremove : Tries (.deleteVpc name) i (fun w => before <+: w.log)
            (removePeeringSide false remote name) (fun _ => Gone before i remote name)
            fun _ => Spared before i remote := tries_removePeeringSide before rfl
        refine tries_swallowing hone.lasts (fun _ => growing_spared.lasts)
          (hremove.gives fun _ w hw _ => ?_)
          fun _ w hw _ => ?_
        · exact .inr (hw.imp id .inl)
        · exact .inr (.inr hw)
    rw [releaseAll_cons]
    refine attempts_bind ((hfirst.growing (growing_started before)).weaken (fun _ hw => ⟨hw, hw⟩)
        (fun _ _ hw => hw) fun _ _ _ => trivial) fun _ => ?_
    refine ((ih.growing hone).weaken (fun w hw => ⟨hw.2, hw.1⟩)
      (fun _ w hw q hq hne => ?_) fun _ _ _ => trivial)
    obtain rfl | hrest := mem_cons.mp hq
    · exact hw.2 hne
    · exact hw.1 q hrest hne

/-- The entries of a router have been listed, or have been taken for none. -/
def Asked (i : ι) (name : String) (remotes : List String) (w : World ι) : Prop :=
  ∃ before found, before ++ [.listed i name found] <+: w.log ∧
    (∀ e, found = .error e → e.isApi = true) ∧ found.toOption.getD [] = remotes

theorem growing_asked {remotes : List String} : Growing (Asked i name remotes) :=
  fun _ _ h ⟨before, found, hw, hrest⟩ => ⟨before, found, hw.trans h.log, hrest⟩

theorem growing_achieves_deleteVpc : Growing fun w => (Job.deleteVpc name).Achieves i w :=
  fun w v h ⟨before, found, hw, hfound, hall⟩ => ⟨before, found, hw.trans h.log, hfound,
    fun remote hremote hne => growing_released w v h (hall remote hremote hne)⟩

theorem tries_getVpcPeerings :
    Tries job i (fun _ => True) (getVpcPeerings name) (Asked i name) fun _ _ => True := by
  have hfailed (e : Failure) : Growing fun w => e.isApi = true → Asked i name [] w :=
    fun w v h hw hapi => growing_asked w v h (hw hapi)
  have hasked (spec : VpcSpec) : Growing (Asked i name (remotesOf spec)) := growing_asked
  refine attempts_exceptApi (fun _ => growing_asked.lasts) (fun e => (hfailed e).lasts)
    (Attempts.bind (timely_serve i) (fun e => (hfailed e).lasts)
      (Attempts.ask (timely_serve i) (lasts_const True) (fun spec => (hasked spec).lasts)
        (fun e => (hfailed e).lasts) fun w fault _ _ => ⟨trivial, ?_⟩) fun spec =>
      Attempts.pure (hasked spec).lasts fun _ hw => hw)
    (fun _ _ _ _ => trivial) fun status => .pure (hfailed _).lasts fun w hw => hw rfl
  match fault with
  | some e =>
    refine fun hapi => ⟨w.log, .error e.1, prefix_refl _, fun e' hsame => ?_, rfl⟩
    rwa [← Except.error.inj hsame]
  | none =>
    simp only [serve, commit]
    split
    · exact fun _ => ⟨w.log, .ok [], prefix_refl _, by simp, rfl⟩
    · next item _ => exact ⟨w.log, .ok _, prefix_refl _, by simp, rfl⟩

theorem tries_releasePeerings : Tries (.deleteVpc name) i (fun _ => True) (releasePeerings name)
      (fun _ w => (Job.deleteVpc name).Achieves i w) fun _ _ => True := by
  refine attempts_bind tries_getVpcPeerings fun remotes => ?_
  refine attempts_bind
    (tries_of_proper (every_proper (every_claimedRemotes name)) growing_asked).forget
    fun claimed => ?_
  refine Attempts.of_exists fun before => Attempts.of_exists fun found => ?_
  have hfacts : Growing fun w : World ι => before ++ [.listed i name found] <+: w.log ∧
      (∀ e, found = .error e → e.isApi = true) ∧ found.toOption.getD [] = remotes :=
    (growing_started _).and (.const _)
  refine ((tries_releaseAll (before ++ [.listed i name found]) claimed remotes).growing
    hfacts).weaken (fun w hw => ⟨hw.1, hw⟩) (fun _ w hw => ?_) fun _ _ _ => trivial
  obtain ⟨hall, hbefore, hfound, rfl⟩ := hw
  exact ⟨before, found, hbefore, hfound, hall⟩

theorem tries_of_keepsLists {p : Call α} {R : World ι → Prop}
    (hp : Every Request.KeepsLists p.run) (hR : Growing R) :
    Tries job i R p (fun _ => R) fun _ => R :=
  Attempts.keeps (timely_serve i) hR.lasts
    (fun fault w r htimely _ hw => hR.served fault w r htimely trivial hw)
    (fun _ _ _ _ hr => hr.sent) hp

theorem tries_takeDown (rounds : Nat) :
    Tries (.deleteVpc name) i (fun _ => True) (takeDown rounds name)
      (fun x w => x = .done → (Job.deleteVpc name).Achieves i w) fun _ _ => True := by
  have hskip {α : Type} {p : Call α} (hp : Every (Request.Proper (.deleteVpc name)) p.run) :
      Tries (.deleteVpc name) i (fun _ => True) p (fun _ _ => True) fun _ _ => True :=
    tries_of_proper hp (Growing.const True)
  refine attempts_bind (hskip (every_takeGateway name)) fun nat => ?_
  refine attempts_bind (hskip (every_proper (every_tolerating .vpcDns))) fun _ => ?_
  refine attempts_bind (hskip (every_proper (every_tolerating .vpcDnsPolicy))) fun _ => ?_
  refine attempts_bind tries_releasePeerings fun _ => ?_
  exact (tries_of_keepsLists (every_takeSubnets rounds name nat) growing_achieves_deleteVpc).weaken
    (fun _ hw => hw) (fun _ _ hw _ => hw) fun _ _ _ => trivial

theorem tries_deleteVpc (rounds : Nat) :
    Tries (.deleteVpc name) i (fun _ => True) (deleteVpc rounds name)
      (fun x w => x = .done → (Job.deleteVpc name).Achieves i w) fun _ _ => True := by
  have hskip {α : Type} {p : Call α} (hp : Every Request.Plain p.run) :
      Tries (.deleteVpc name) i (fun _ => True) p (fun _ _ => True) fun _ _ => True :=
    tries_of_proper (every_proper hp) (Growing.const True)
  refine attempts_bind (hskip (every_managedNetworkCascades name)) fun found => ?_
  match found with
  | none => exact tries_takeDown rounds
  | some cascades =>
    refine attempts_bind (hskip (.ask trivial)) fun _ => ?_
    split
    · exact .pure (lasts_const True) fun w _ hdone => absurd hdone (by simp)
    · exact attempts_bind
        (hskip (every_awaitManagedNetworkGone name 30)) fun _ => tries_takeDown rounds

theorem tries_program (other : String → Except Failure Link) (rounds : Nat) (job : Job) :
    Tries job i (NoUndo i) (job.program other rounds) (fun x w => x = .done → job.Achieves i w)
      fun _ _ => True := by
  cases job with
  | createVpcPeering name remote linkCIDR =>
    exact (tries_createVpcPeering other linkCIDR).gives fun _ _ hw _ => hw
  | deleteVpcPeering name remote =>
    exact tries_deleteVpcPeering.pre fun _ _ => trivial
  | deleteVpc name =>
    exact (tries_deleteVpc rounds).pre fun _ _ => trivial
  | tearDown name finalizer =>
    exact (tries_of_keepsLists (every_tearDown name finalizer) (Growing.const True)).weaken
      (fun _ _ => trivial) (fun _ _ _ _ => trivial) fun _ _ hw => hw

end Done

end Vpcs
