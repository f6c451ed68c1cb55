import KubevirtUi.Vpcs.Standing
import KubevirtUi.Vpcs.Unpeering

/-!
# Peerings do not erase each other, where requests are orderly

Whatever the requests are and however their reads and patches interleave: in a run whose steps are
all orderly, a peering whose creation was acknowledged is on both routers until its deletion is
asked for, and an entry whose deletion was acknowledged is gone until it is made again.

A removal carries no version. One that was computed before another peering was made puts the lists
back as they were.
-/

namespace Vpcs

open Peering Interference Logs List

variable {ι : Type}

/-- The event says nothing that the report of a deletion leaves out. -/
def Event.Reported (jobs : ι → Job) : Event ι → Prop
  | .listed _ _ (.error e) => e.isApi = false
  | .missed i router => ∀ name, jobs i = .deleteVpc name → router = name
  | .looked i .routes (.error e) => ∀ name, jobs i = .deleteVpc name → e.isApi = true
  | _ => True

/-- What holds of the routers, and of what was done, as long as steps are orderly. -/
structure Sharing (jobs : ι → Job) (w : World ι) : Prop where
  holds : ∀ router spec, w.spec? router = some spec →
    ∀ side ∈ sidesOn w.log router, Holds spec side
  gone : ∀ router remote spec, w.spec? router = some spec →
    standing w.log router remote = .taken → entriesFor spec remote = []
  credited : ∀ i router side before after, w.log = before ++ .laid i router side :: after →
    (∃ d, (jobs d).Deletes router side.remoteVpc ∧
      .taken d router side.remoteVpc false ∈ after) ∨
    .taken i router side.remoteVpc true ∈ after ∨
    i ∈ (standing w.log router side.remoteVpc).clients
  released : ∀ i name remotes before after,
    w.log = before ++ .listed i name (.ok remotes) :: after →
      ∀ router, router ≠ name → router ≠ "" → router ∉ remotes →
        (∃ j side, .laid j router side ∈ after ∧ side.remoteVpc = name) ∨
        ∀ spec, w.spec? router = some spec → entriesFor spec name = []
  reported : ∀ e ∈ w.log, e.Reported jobs

variable {i : ι} {undo : Bool} {spec : VpcSpec}

variable {jobs : ι → Job} {w : World ι} {router remote : String} {log : List (Event ι)}

section Step

variable {v : World ι} {e : Event ι} {name : String} {old new : VpcSpec} {side : Side}

theorem Event.Fits.reported (h : e.Fits jobs w) : e.Reported jobs := by
  cases e with
  | listed i name found =>
    cases found with
    | ok _ => trivial
    | error _ => exact h
  | missed i router => exact h
  | looked i purpose found =>
    cases purpose with
    | routes =>
      cases found with
      | ok _ => trivial
      | error _ => exact h
    | deletion | presence => trivial
  | _ => trivial

theorem Event.about (e : Event ι) (router remote : String) :
    e.Silent router remote ∨ (∃ i side, e = .laid i router side ∧ side.remoteVpc = remote) ∨
      ∃ i undo, e = .taken i router remote undo := by
  by_cases hlaid : ∃ i side, e = .laid i router side ∧ side.remoteVpc = remote
  · exact .inr (.inl hlaid)
  by_cases htaken : ∃ i undo, e = .taken i router remote undo
  · exact .inr (.inr htaken)
  · exact .inl ⟨fun i side he hremote => hlaid ⟨i, side, he, hremote⟩,
      fun i undo he => htaken ⟨i, undo, he⟩⟩

theorem Event.Turns.entriesFor (h : e.Turns log router old new) (hsilent : e.Silent router remote) :
    Vpcs.entriesFor new remote = Vpcs.entriesFor old remote := by
  cases e with
  | laid i r side =>
    rw [Event.Turns] at h
    split at h
    · next hrouter =>
      subst hrouter
      rw [h.1, entriesFor_peeringSidePatch_ne (hsilent.1 i side rfl).symm]
    · rw [h]
  | taken i r m undo =>
    rw [Event.Turns] at h
    split at h
    · next hrouter =>
      subst hrouter
      obtain ⟨cidrs, rfl, -⟩ := h
      refine entriesFor_withoutSide_ne ?_
      rintro rfl
      exact hsilent.2 i undo rfl
    · rw [h]
  | cleaned i r =>
    rw [Event.Turns] at h
    split at h
    · rw [h.1]
      rfl
    · rw [h]
  | _ =>
    rw [show new = old from h]

theorem Event.Turns.holds (h : e.Turns log router old new)
    (hsilent : e.Silent router side.remoteVpc) (hside : side ∈ sidesOn log router)
    (hold : Holds old side) : Holds new side := by
  cases e with
  | laid i r s =>
    rw [Event.Turns] at h
    split at h
    · next hrouter =>
      subst hrouter
      have hne := hsilent.1 i s rfl
      rw [h.1]
      exact hold.peeringSidePatch hne.symm fun c hc => h.2 side hside hne.symm c hc
    · rwa [h]
  | taken i r m undo =>
    rw [Event.Turns] at h
    split at h
    · next hrouter =>
      subst hrouter
      obtain ⟨cidrs, rfl, hapart, hhops⟩ := h
      have hne : side.remoteVpc ≠ m := by
        rintro rfl
        exact hsilent.2 i undo rfl
      exact hold.withoutSide hne (fun c hc => hapart side hside hne c hc) (hhops side hside hne)
    · rwa [h]
  | cleaned i r =>
    rw [Event.Turns] at h
    split at h
    · rw [h.1]
      exact hold.clean (h.2 side hside)
    · rwa [h]
  | _ => rwa [show new = old from h]

theorem entriesFor_of_taken (h : (Event.taken i router remote undo).Turns log router old new) :
    entriesFor new remote = [] := by
  rw [Event.Turns, if_pos rfl] at h
  obtain ⟨cidrs, rfl, -⟩ := h
  exact entriesFor_withoutSide

namespace Follows

section

variable (h : Follows jobs w e v) (hw : Sharing jobs w)

include h hw

theorem holds (hspec : v.spec? router = some new) (hside : side ∈ sidesOn v.log router) :
    Holds new side := by
  obtain ⟨old, hold, hturns⟩ := h.specs router new hspec
  rw [mem_sidesOn, h.log] at hside
  obtain hsilent | ⟨i, s, rfl, hremote⟩ | ⟨i, undo, rfl⟩ := e.about router side.remoteVpc
  · rw [standing_concat_of_silent hsilent, ← mem_sidesOn] at hside
    exact hturns.holds hsilent hside (hw.holds router old hold side hside)
  · rw [← hremote, standing_concat_laid] at hside
    obtain rfl := Option.some.inj hside
    rw [Event.Turns, if_pos rfl] at hturns
    rw [hturns.1]
    exact holds_peeringSidePatch old s
  · rw [standing_concat_taken] at hside
    contradiction

theorem gone (hspec : v.spec? router = some new)
    (hstanding : standing v.log router remote = .taken) : entriesFor new remote = [] := by
  obtain ⟨old, hold, hturns⟩ := h.specs router new hspec
  rw [h.log] at hstanding
  obtain hsilent | ⟨i, s, rfl, rfl⟩ | ⟨i, undo, rfl⟩ := e.about router remote
  · rw [standing_concat_of_silent hsilent] at hstanding
    rw [hturns.entriesFor hsilent]
    exact hw.gone router remote old hold hstanding
  · rw [standing_concat_laid] at hstanding
    contradiction
  · exact entriesFor_of_taken hturns

theorem credited {before after : List (Event ι)}
    (hlog : v.log = before ++ .laid i router side :: after) :
    (∃ d, (jobs d).Deletes router side.remoteVpc ∧
      .taken d router side.remoteVpc false ∈ after) ∨ .taken i router side.remoteVpc true ∈ after ∨
    i ∈ (standing v.log router side.remoteVpc).clients := by
  rw [h.log] at hlog
  obtain ⟨rfl, rfl, rfl⟩ | ⟨after', rfl, hbefore⟩ := split_concat hlog
  · rw [h.log, standing_concat_laid]
    exact .inr (.inr (mem_append_right _ (mem_singleton.mpr rfl)))
  · obtain ⟨d, hd, htaken⟩ | hundone | hclient := hw.credited i router side before after' hbefore
    · exact .inl ⟨d, hd, mem_append_left [e] htaken⟩
    · exact .inr (.inl (mem_append_left [e] hundone))
    · rw [h.log]
      obtain hsilent | ⟨j, s, rfl, hremote⟩ | ⟨j, undo, rfl⟩ := e.about router side.remoteVpc
      · rw [standing_concat_of_silent hsilent]
        exact .inr (.inr hclient)
      · rw [← hremote, standing_concat_laid, hremote]
        exact .inr (.inr (mem_append_left [j] hclient))
      · have hlast : .taken j router side.remoteVpc undo ∈
            after' ++ [Event.taken j router side.remoteVpc undo] :=
          mem_append_right after' (mem_singleton.mpr rfl)
        cases undo with
        | false => exact .inl ⟨j, h.fits, hlast⟩
        | true =>
          obtain rfl := h.fits i hclient
          exact .inr (.inl hlast)

theorem released {remotes : List String} {before after : List (Event ι)}
    (hlog : v.log = before ++ .listed i name (.ok remotes) :: after) (hne : router ≠ name)
    (hempty : router ≠ "") (hremote : router ∉ remotes) :
    (∃ j side, .laid j router side ∈ after ∧ side.remoteVpc = name) ∨
      ∀ spec, v.spec? router = some spec → entriesFor spec name = [] := by
  rw [h.log] at hlog
  obtain ⟨rfl, rfl, rfl⟩ | ⟨after', rfl, hbefore⟩ := split_concat hlog
  · refine .inr fun spec hspec => ?_
    obtain ⟨old, hold, hturns⟩ := h.specs router spec hspec
    rw [show spec = old from hturns]
    exact h.fits router hne hempty hremote old hold
  · obtain ⟨j, s, hlaid, hs⟩ | hnone :=
      hw.released i name remotes before after' hbefore router hne hempty hremote
    · exact .inl ⟨j, s, mem_append_left [e] hlaid, hs⟩
    · obtain hsilent | ⟨j, s, rfl, hs⟩ | ⟨j, undo, rfl⟩ := e.about router name
      · refine .inr fun spec hspec => ?_
        obtain ⟨old, hold, hturns⟩ := h.specs router spec hspec
        rw [hturns.entriesFor hsilent]
        exact hnone old hold
      · exact .inl ⟨j, s, mem_append_right after' (mem_singleton.mpr rfl), hs⟩
      · refine .inr fun spec hspec => ?_
        obtain ⟨old, -, hturns⟩ := h.specs router spec hspec
        exact entriesFor_of_taken hturns

theorem sharing : Sharing jobs v where
  holds _ _ hspec _ := h.holds hw hspec
  gone _ _ _ hspec := h.gone hw hspec
  credited _ _ _ _ _ hlog := h.credited hw hlog
  released _ _ _ _ _ hlog _ hne hempty hremote := h.released hw hlog hne hempty hremote
  reported e' he' := by
    rw [h.log, mem_append, mem_singleton] at he'
    obtain hold | rfl := he'
    · exact hw.reported e' hold
    · exact h.fits.reported

end

end Follows

theorem Same.sharing (h : Same w v) (hw : Sharing jobs w) : Sharing jobs v where
  holds router spec hspec side hside := hw.holds router spec (h.specs router spec hspec) side
    (h.log ▸ hside)
  gone router remote spec hspec hstanding := hw.gone router remote spec
    (h.specs router spec hspec) (h.log ▸ hstanding)
  credited i router side before after hlog := by
    rw [h.log] at hlog ⊢
    exact hw.credited i router side before after hlog
  released i name remotes before after hlog router hne hempty hremote := by
    rw [h.log] at hlog
    refine (hw.released i name remotes before after hlog router hne hempty hremote).imp_right ?_
    exact fun hnone spec hspec => hnone spec (h.specs router spec hspec)
  reported e he := hw.reported e (h.log ▸ he)

end Step

/-- What has been acknowledged stands: a peering that was created is on both of its routers, unless
a deletion of it was asked for later; and an entry that was deleted is gone, unless it was laid down
later, or left to the operator. -/
structure Kept (jobs : ι → Job)
    (t : Crowd (World ι) Request Request.Response ι (Except Failure Outcome)) : Prop where
  created : ∀ i name remote linkCIDR, jobs i = .createVpcPeering name remote linkCIDR →
    t.rest i = .pure (.ok .done) → ∃ link found found',
      .looked i .routes (.ok found) ∈ t.world.log ∧
      .looked i .routes (.ok found') ∈ t.world.log ∧
      ∀ p ∈ sidesOver link name remote (cidrsOf found name) (cidrsOf found' remote),
        ∃ before after, t.world.log = before ++ .laid i p.1 p.2 :: after ∧
          ((∃ d, (jobs d).Deletes p.1 p.2.remoteVpc ∧
              .taken d p.1 p.2.remoteVpc false ∈ after) ∨
            ∀ spec, t.world.spec? p.1 = some spec → ∃ clients last, i ∈ clients ∧
              standing t.world.log p.1 p.2.remoteVpc = .laid clients last ∧ Holds spec last)
  deleted : ∀ i name remote, jobs i = .deleteVpcPeering name remote → t.rest i = .pure (.ok .done) →
    ∀ p ∈ [(name, remote), (remote, name)], ∀ spec, t.world.spec? p.1 = some spec →
      ∃ before after, t.world.log = before ++ .taken i p.1 p.2 false :: after ∧
        ((∃ j side, .laid j p.1 side ∈ after ∧ side.remoteVpc = p.2) ∨ entriesFor spec p.2 = [])
  deletedVpc : ∀ i name, jobs i = .deleteVpc name → t.rest i = .pure (.ok .done) →
    ∀ router, router ≠ name → router ≠ "" → ∀ spec, t.world.spec? router = some spec →
      ∃ before remotes after, t.world.log = before ++ .listed i name (.ok remotes) :: after ∧
        ((∃ j side, .laid j router side ∈ after ∧ side.remoteVpc = name) ∨
          .handed i (peeringCrName name router) ∈ after ∨ entriesFor spec name = [])

/-- Every client is about to start. -/
def starting (other : String → Except Failure Link) (rounds : Nat) (jobs : ι → Job)
    (w : World ι) : Crowd (World ι) Request Request.Response ι (Except Failure Outcome) where
  world := w
  rest i := ((jobs i).program other rounds).run

section Runs

variable {before after : List (Event ι)}

theorem standing_taken (h : ∀ j side, .laid j router side ∈ after → side.remoteVpc ≠ remote) :
    standing (before ++ .taken i router remote undo :: after) router remote = .taken := by
  induction after using List.reverseRecOn with
  | nil => exact standing_concat_taken undo
  | append_singleton after e ih =>
    have hold := ih fun j side hlaid => h j side (mem_append_left [e] hlaid)
    rw [← cons_append, ← append_assoc]
    obtain hsilent | ⟨j, s, rfl, hs⟩ | ⟨j, undo', rfl⟩ := e.about router remote
    · rw [standing_concat_of_silent hsilent, hold]
    · exact absurd hs (h j s (mem_append_right after (mem_singleton.mpr rfl)))
    · exact standing_concat_taken undo'

theorem Sharing.created (h : Sharing jobs w) {i : ι} {name : String} (hno : NoUndo i w)
    (hmade : Made i name remote w) : ∃ link found found',
      .looked i .routes (.ok found) ∈ w.log ∧ .looked i .routes (.ok found') ∈ w.log ∧
      ∀ p ∈ sidesOver link name remote (cidrsOf found name) (cidrsOf found' remote),
        ∃ before after, w.log = before ++ .laid i p.1 p.2 :: after ∧
          ((∃ d, (jobs d).Deletes p.1 p.2.remoteVpc ∧
              .taken d p.1 p.2.remoteVpc false ∈ after) ∨
            ∀ spec, w.spec? p.1 = some spec → ∃ clients last, i ∈ clients ∧
              standing w.log p.1 p.2.remoteVpc = .laid clients last ∧ Holds spec last) := by
  obtain ⟨link, found, found', hfound, hfound', hlaid⟩ := hmade
  refine ⟨link, found, found', hfound, hfound', fun p hp => ?_⟩
  obtain ⟨before, after, hlog⟩ := append_of_mem (hlaid p hp)
  refine ⟨before, after, hlog, ?_⟩
  obtain hdeleted | hundone | hclient := h.credited i p.1 p.2 before after hlog
  · exact .inl hdeleted
  · refine absurd ?_ (hno p.1 p.2.remoteVpc)
    rw [hlog]
    exact mem_append_right before (mem_cons_of_mem _ hundone)
  · refine .inr fun spec hspec => ?_
    match hstanding : standing w.log p.1 p.2.remoteVpc with
    | .laid clients last =>
      rw [hstanding] at hclient
      exact ⟨clients, last, hclient, rfl,
        h.holds p.1 spec hspec last (mem_sidesOn_of_standing hstanding)⟩
    | .untold | .taken =>
      rw [hstanding] at hclient
      simp [Standing.clients] at hclient

/-- An entry that was taken away is gone, or has been laid down since. -/
theorem Sharing.gone_since (h : Sharing jobs w)
    (hlog : w.log = before ++ .taken i router remote undo :: after)
    (hspec : w.spec? router = some spec) :
    (∃ j side, .laid j router side ∈ after ∧ side.remoteVpc = remote) ∨
      entriesFor spec remote = [] := by
  by_cases hlaid : ∃ j side, .laid j router side ∈ after ∧ side.remoteVpc = remote
  · exact .inl hlaid
  · refine .inr (h.gone router remote spec hspec ?_)
    rw [hlog]
    exact standing_taken fun j side hmem hs => hlaid ⟨j, side, hmem, hs⟩

theorem Sharing.deleted (h : Sharing jobs w) {i : ι} {name : String} {spec : VpcSpec}
    (hdone : (Job.deleteVpcPeering name remote).Achieves i w) {p : String × String}
    (hp : p ∈ [(name, remote), (remote, name)]) (hspec : w.spec? p.1 = some spec) :
    ∃ before after, w.log = before ++ .taken i p.1 p.2 false :: after ∧
      ((∃ j side, .laid j p.1 side ∈ after ∧ side.remoteVpc = p.2) ∨
        entriesFor spec p.2 = []) := by
  obtain htaken | hnone := hdone p hp
  · obtain ⟨before, after, hlog⟩ := append_of_mem htaken
    exact ⟨before, after, hlog, h.gone_since hlog hspec⟩
  · rw [World.spec?, hnone] at hspec
    contradiction

theorem Sharing.deletedVpc (h : Sharing jobs w) {name : String} (hjob : jobs i = .deleteVpc name)
    (hdone : (Job.deleteVpc name).Achieves i w) (hne : router ≠ name) (hempty : router ≠ "")
    (hspec : w.spec? router = some spec) :
    ∃ before remotes after, w.log = before ++ .listed i name (.ok remotes) :: after ∧
      ((∃ j side, .laid j router side ∈ after ∧ side.remoteVpc = name) ∨
        .handed i (peeringCrName name router) ∈ after ∨ entriesFor spec name = []) := by
  obtain ⟨before, found, ⟨after, hlog⟩, hfound, hreleased⟩ := hdone
  have hsince {e : Event ι} (he : Since (before ++ [.listed i name found]) e w) : e ∈ after := by
    obtain ⟨after', hafter, he⟩ := he
    rw [← hlog] at hafter
    rwa [append_cancel_left hafter]
  rw [append_assoc, singleton_append] at hlog
  have hmem {e : Event ι} (he : e ∈ after) : e ∈ w.log := by
    rw [← hlog]
    exact mem_append_right before (mem_cons_of_mem _ he)
  cases found with
  | error e =>
    have hanswered := h.reported (.listed i name (.error e)) (by
      rw [← hlog]
      exact mem_append_right before mem_cons_self)
    have hapi := hfound e rfl
    rw [show e.isApi = false from hanswered] at hapi
    contradiction
  | ok remotes =>
    refine ⟨before, remotes, after, hlog.symm, ?_⟩
    by_cases hremote : router ∈ remotes
    · obtain hhanded | htaken | hnone | hmissed | ⟨e, he, hlooked⟩ :=
        hreleased router hremote hempty
      · exact .inr (.inl (hsince hhanded))
      · obtain ⟨start, rest, hsplit⟩ := append_of_mem (hsince htaken)
        have hwhole : w.log = (before ++ .listed i name (.ok remotes) :: start) ++
            .taken i router name false :: rest := by
          rw [← hlog, hsplit, append_assoc, cons_append]
        obtain ⟨j, side, hlaid, hside⟩ | hgone := h.gone_since hwhole hspec
        · refine .inl ⟨j, side, ?_, hside⟩
          rw [hsplit]
          exact mem_append_right start (mem_cons_of_mem _ hlaid)
        · exact .inr (.inr hgone)
      · rw [World.spec?, hnone] at hspec
        contradiction
      · exact absurd (h.reported _ (hmem (hsince hmissed)) name hjob) hne
      · have hapi := h.reported _ (hmem (hsince hlooked)) name hjob
        rw [he] at hapi
        contradiction
    · exact (h.released i name remotes before after hlog.symm router hne hempty hremote).imp_right
        fun hnone => .inr (hnone spec hspec)

theorem sharing_start (h : w.log = []) : Sharing jobs w where
  holds router spec _ side hside := by
    rw [h] at hside
    simp [sidesOn] at hside
  gone router remote spec _ hstanding := by
    rw [h] at hstanding
    simp [standing] at hstanding
  credited i router side before after hlog := by
    rw [h] at hlog
    simp at hlog
  released i name remotes before after hlog := by
    rw [h] at hlog
    simp at hlog
  reported e he := by
    rw [h] at he
    simp at he

theorem same_act (a : Action) (w : World ι) : Same w (act a w) := by
  cases a with
  | change around => exact .of_routers rfl rfl
  | touch here =>
    simp only [act]
    split
    · exact .of_routers rfl rfl
    · next item hitem =>
      refine ⟨rfl, fun router new hnew => ?_⟩
      by_cases hrouter : router = here
      · subst hrouter
        rw [World.spec?, AList.lookup_insert, Option.map_some] at hnew
        rw [World.spec?, hitem, Option.map_some, hnew]
      · rwa [World.spec?, AList.lookup_insert_ne hrouter] at hnew

/-- In a run whose steps are all orderly, what has been acknowledged stands. -/
theorem peerings_kept [DecidableEq ι] (other : String → Except Failure Link) (rounds : Nat)
    (jobs : ι → Job) (w : World ι) (htimely : Timely w) (hlog : w.log = [])
    {t : Crowd (World ι) Request Request.Response ι (Except Failure Outcome)}
    (hrun : Crowd.Run serve act (Orderly jobs) (starting other rounds jobs w) t) : Kept jobs t := by
  have hno (i : ι) : NoUndo i w := fun router remote htaken => by
    rw [hlog] at htaken
    simp at htaken
  have hstart : Crowd.Legal Timely Relied (fun i w r _ => Sent (jobs i) w r)
      (fun i => outcome (fun x w => x = .done → (jobs i).Achieves i w) fun _ _ => True) serve
      (starting other rounds jobs w) :=
    ⟨htimely, fun i => tries_program other rounds (jobs i) w htimely (hno i)⟩
  have hturn (s : Crowd (World ι) Request Request.Response ι (Except Failure Outcome)) (i : ι)
      (fault : Fault) (r : Request) (k : r.Response → Program Request Request.Response _)
      (hcond : Orderly jobs s (.call i fault)) (hrest : s.rest i = .call r k)
      (hsharing : Sharing jobs s.world) (hsent : Sent (jobs i) s.world r) :
      Sharing jobs (serve i fault s.world r).2 := by
    obtain ⟨hunmissed, hfit⟩ := hcond r (by rw [hrest]; rfl)
    obtain hsame | ⟨e, he⟩ := follows_serve hsent hunmissed hfit
    · exact hsame.sharing hsharing
    · exact he.sharing hsharing
  obtain ⟨hlegal, hsharing⟩ := Crowd.Run.invariant (P := Sharing jobs) relied_refl timely_serve
    (fun s a _ hinv hs => ⟨timely_act a hinv, fun i => relied_act i a s.world,
      (same_act a s.world).sharing hs⟩)
    (fun s i fault r k hcond hrest _ hs hsent => ⟨fun j hj => relied_serve hj,
      hturn s i fault r k hcond hrest hs hsent⟩) hstart (sharing_start hlog) hrun
  have hdone (i : ι) (hrest : t.rest i = .pure (.ok .done)) : (jobs i).Achieves i t.world :=
    hlegal.returned hrest rfl
  refine ⟨fun i name remote linkCIDR hjob hrest => ?_, fun i name remote hjob hrest p hp spec => ?_,
    fun i name hjob hrest router hne hempty spec => ?_⟩
  · have hmade := hdone i hrest
    rw [hjob] at hmade
    exact hsharing.created hmade.1 hmade.2
  · have hachieved := hdone i hrest
    rw [hjob] at hachieved
    exact hsharing.deleted hachieved hp
  · have hachieved := hdone i hrest
    rw [hjob] at hachieved
    exact hsharing.deletedVpc hjob hachieved hne hempty

end Runs

section Example

/-- Three networks without peerings. -/
def market : World (Fin 2) where
  clock := 3
  routers := (((∅ : Store VpcSpec).insert "shop" ⟨1, {}⟩).insert "bank" ⟨2, {}⟩).insert "mall"
    ⟨3, {}⟩
  around := { joined.around with
    subnets := { name := "mall-default", vpc := some "mall", cidrBlock := "10.3.0.0/24" } ::
      joined.around.subnets }
  log := []

/-- Two clients. -/
def first : Fin 2 := ⟨0, Nat.zero_lt_two⟩

def second : Fin 2 := ⟨1, Nat.one_lt_two⟩

/-- One request peers the shop with the bank, another parts it from the mall. -/
def trading : Fin 2 → Job
  | 0 => .createVpcPeering "shop" "bank" none
  | 1 => .deleteVpcPeering "shop" "mall"

/-- So many requests of one client, and none of them fails. -/
def turns (i : Fin 2) (n : Nat) : List (Turn Action Fault (Fin 2)) :=
    List.replicate n (.call i none)

theorem timely_market : Timely market := by
  have hempty : Store.Timely (∅ : Store VpcSpec) 0 := Store.timely_empty
  exact ((hempty.insert _).insert _).insert _

/-- Both clients have been told that their work is done. -/
def acknowledged (t : Crowd (World (Fin 2)) Request Request.Response (Fin 2)
    (Except Failure Outcome)) : Bool :=
  [first, second].all fun i => match t.rest i with
    | .pure (.ok .done) => true
    | _ => false

theorem rest_of_acknowledged {t : Crowd (World (Fin 2)) Request Request.Response (Fin 2)
    (Except Failure Outcome)} (h : acknowledged t = true) : t.rest 0 = .pure (.ok .done) := by
  have hzero := all_eq_true.mp h 0 mem_cons_self
  match hrest : t.rest 0 with
  | .pure (.ok .done) => rfl
  | .pure (.ok .handedOver) | .pure (.ok .waiting) | .pure (.error _) | .call _ _ =>
    rw [hrest] at hzero
    contradiction

instance (fault : Fault) (job : Job) (r : Request) : Decidable (Unmissed fault job r) := by
  unfold Unmissed
  split <;> infer_instance

instance (log : List (Event (Fin 2))) (router remote : String) (cidrs : List String) :
    Decidable (Apart log router remote cidrs) := by
  unfold Apart
  infer_instance

instance (i : Fin 2) (w : World (Fin 2)) (r : Request) : Decidable (Fitting i w r) := by
  unfold Fitting
  split <;> infer_instance

instance {ρ : Type} (jobs : Fin 2 → Job)
    (s : Crowd (World (Fin 2)) Request Request.Response (Fin 2) ρ) :
    DecidablePred (Orderly jobs s) := fun turn => by
  unfold Orderly
  split <;> infer_instance

/-- Where the parting comes after the peering, the peering stands. -/
theorem peerings_kept_market : ∃ t, acknowledged t = true ∧ Kept trading t := by
  have hplay : (Crowd.playWhile serve act (Orderly trading) (starting notAnother 1 trading market)
      (turns 0 10 ++ turns 1 8)).any acknowledged = true := by decide +kernel
  obtain ⟨t, hrun, ht⟩ := Crowd.exists_run_of_playWhile _ hplay
  exact ⟨t, ht, peerings_kept notAnother 1 trading market timely_market rfl hrun⟩

/-- The shop has no entry for the bank, and nobody has asked to delete one. -/
def erased (t : Crowd (World (Fin 2)) Request Request.Response (Fin 2)
    (Except Failure Outcome)) : Bool :=
  (t.world.spec? "shop").any (fun spec => entriesFor spec "bank" = []) &&
    t.world.log.all fun e => match e with
      | .taken _ _ remote _ => remote ≠ "bank"
      | _ => true

/-- The parting reads the router of the shop, the peering is made, and the parting writes what it
has read: the peering with the bank is gone from the shop, and both were told that all is well. -/
theorem not_kept_market : ∃ t, Crowd.Run serve act (fun _ _ => True)
    (starting notAnother 1 trading market) t ∧ acknowledged t = true ∧ ¬ Kept trading t := by
  have hplay : (Crowd.playWhile serve act (fun _ _ => True) (starting notAnother 1 trading market)
      (turns 1 2 ++ turns 0 10 ++ turns 1 6)).any
        (fun t => acknowledged t && erased t) = true := by decide +kernel
  obtain ⟨t, hrun, ht⟩ := Crowd.exists_run_of_playWhile _ hplay
  obtain ⟨hdone, herased⟩ := Bool.and_eq_true_iff.mp ht
  obtain ⟨hspec, hlog⟩ := Bool.and_eq_true_iff.mp herased
  obtain ⟨spec, hshop, hnone⟩ := (Option.any_eq_true _ _).mp hspec
  refine ⟨t, hrun, hdone, fun hkept => ?_⟩
  obtain ⟨link, found, found', -, -, hsides⟩ :=
    hkept.created 0 "shop" "bank" none rfl (rest_of_acknowledged hdone)
  obtain ⟨before, after, hsplit, ⟨d, -, htaken⟩ | hstands⟩ := hsides _ mem_cons_self
  · have hmem : .taken d "shop" "bank" false ∈ t.world.log := by
      rw [hsplit]
      exact mem_append_right before (mem_cons_of_mem _ htaken)
    have hother := all_eq_true.mp hlog _ hmem
    simp at hother
  · obtain ⟨clients, last, -, hstanding, hholds⟩ := hstands spec hshop
    have hentry := hholds.entry
    rw [(laid_of_standing hstanding).1, of_decide_eq_true hnone] at hentry
    exact cons_ne_nil _ _ hentry.symm

end Example

end Vpcs
