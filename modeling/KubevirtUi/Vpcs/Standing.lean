import KubevirtUi.Vpcs.Alone
import KubevirtUi.Vpcs.Promises

/-!
# What stands on a router, as the log has it

The log tells for every router which sides have been laid down and not taken away since. A step is
orderly if what it writes is what it would be on the router as it is, and concerns no side that
stands there but its own; and if a deletion of a VPC misses nothing that it does not report.
-/

namespace Vpcs

open Peering Interference

variable {ι : Type}

/-- What was done last about the entry of a router for another network: nothing yet, a side was laid
down, by these clients since there was none, or it was taken away. -/
inductive Standing (ι : Type) where
  | untold
  | laid (clients : List ι) (side : Side)
  | taken

namespace Standing

def clients : Standing ι → List ι
  | laid clients _ => clients
  | _ => []

def side? : Standing ι → Option Side
  | laid _ side => some side
  | _ => none

def step (router remote : String) (old : Standing ι) : Event ι → Standing ι
  | .laid i r side =>
    if r = router ∧ side.remoteVpc = remote then laid (old.clients ++ [i]) side else old
  | .taken _ r m _ => if r = router ∧ m = remote then taken else old
  | _ => old

end Standing

def standing (log : List (Event ι)) (router remote : String) : Standing ι :=
  log.foldl (Standing.step router remote) .untold

/-- The side that an event lays down on the router. -/
def Event.side? (router : String) : Event ι → Option Side
  | .laid _ r side => if r = router then some side else none
  | _ => none

/-- The sides that stand on the router. -/
def sidesOn (log : List (Event ι)) (router : String) : List Side :=
  (log.filterMap (Event.side? router)).filter fun side =>
    (standing log router side.remoteVpc).side? = some side

/-- No other side that stands on the router goes to one of the prefixes. -/
def Apart (log : List (Event ι)) (router remote : String) (cidrs : List String) : Prop :=
  ∀ other ∈ sidesOn log router, other.remoteVpc ≠ remote → ∀ c ∈ other.remoteCIDRs, c ∉ cidrs

/-- The networks that the entries of a router lead to, if it is there. -/
def World.remotesAt (w : World ι) (name : String) : List String :=
  ((w.spec? name).map remotesOf).getD []

/-- What is written is what it would be on the router as it is now, and harms no side that stands
there but its own. Where the entries of a VPC are read to release it, the other routers with an
entry for it are among them. -/
def Fitting (i : ι) (w : World ι) : Request → Prop
  | .patchVpc router version _ (.lay side) =>
    ∀ item ∈ w.routers.lookup router, version = some item.version →
      Apart w.log router side.remoteVpc side.remoteCIDRs
  | .patchVpc router _ patch (.take remote cidrs _ undo) =>
    ∀ item ∈ w.routers.lookup router, patch = withoutSide item.value remote cidrs ∧
      Apart w.log router remote cidrs ∧
      (∀ other ∈ sidesOn w.log router, other.remoteVpc ≠ remote →
        other.nextHop ∉ nextHops item.value remote) ∧
      (undo = true → ∀ j ∈ (standing w.log router remote).clients, j = i)
  | .patchVpc router _ patch (.clean _) =>
    ∀ item ∈ w.routers.lookup router,
      patch.staticRoutes = some (Keyed.drop StaticRoute.cidr [some "0.0.0.0/0"]
        (items item.value.staticRoutes)) ∧
      ∀ other ∈ sidesOn w.log router, "0.0.0.0/0" ∉ other.remoteCIDRs
  | .getVpcPeerings name =>
    ∀ router ∈ w.routers.keys, router ≠ name → router ≠ "" → router ∉ w.remotesAt name →
      ∀ spec ∈ w.spec? router, entriesFor spec name = []
  | _ => True

/-- A deletion of a VPC does not fail to read its entries, or to read or write another router. -/
def Unmissed (fault : Fault) : Job → Request → Prop
  | .deleteVpc name, .getVpc router => router ≠ name → fault = none
  | .deleteVpc name, .patchVpc router .. => router ≠ name → fault = none
  | .deleteVpc _, .listSubnets .routes => ∀ e ∈ fault, e.1.isApi = true
  | _, .getVpcPeerings _ => ∀ e ∈ fault, e.1.isApi = false
  | _, _ => True

/-- The condition on a turn. -/
def Orderly {ρ : Type} (jobs : ι → Job) (s : Crowd (World ι) Request Request.Response ι ρ) :
    Turn Action Fault ι → Prop
  | .act _ => True
  | .call i fault => ∀ r ∈ (s.rest i).request?,
    Unmissed fault (jobs i) r ∧ (fault = none → Fitting i s.world r)

section Standing

variable {log : List (Event ι)} {e : Event ι} {router remote : String} {side : Side} {i : ι}

theorem standing_concat : standing (log ++ [e]) router remote =
    Standing.step router remote (standing log router remote) e := by
  rw [standing, List.foldl_append, List.foldl_cons, List.foldl_nil, standing]

/-- The event says nothing about the entry. -/
def Event.Silent (router remote : String) (e : Event ι) : Prop :=
  (∀ i side, e = .laid i router side → side.remoteVpc ≠ remote) ∧
    ∀ i undo, e ≠ .taken i router remote undo

theorem step_of_silent (h : e.Silent router remote) (old : Standing ι) :
    Standing.step router remote old e = old := by
  cases e with
  | laid i r side =>
    refine if_neg fun hsame => ?_
    obtain ⟨rfl, hremote⟩ := hsame
    exact h.1 i side rfl hremote
  | taken i r m undo =>
    refine if_neg fun hsame => ?_
    obtain ⟨rfl, rfl⟩ := hsame
    exact h.2 i undo rfl
  | _ => rfl

theorem standing_concat_of_silent (h : e.Silent router remote) :
    standing (log ++ [e]) router remote = standing log router remote := by
  rw [standing_concat, step_of_silent h]

@[simp] theorem standing_concat_laid : standing (log ++ [.laid i router side]) router
    side.remoteVpc = .laid ((standing log router side.remoteVpc).clients ++ [i]) side := by
  rw [standing_concat, Standing.step, if_pos ⟨rfl, rfl⟩]

@[simp] theorem standing_concat_taken (undo : Bool) :
    standing (log ++ [.taken i router remote undo]) router remote = .taken := by
  rw [standing_concat, Standing.step, if_pos ⟨rfl, rfl⟩]

theorem laid_of_standing {clients : List ι} (h : standing log router remote = .laid clients side) :
    side.remoteVpc = remote ∧ ∃ i, .laid i router side ∈ log := by
  induction log using List.reverseRecOn generalizing clients with
  | nil => exact absurd h (by simp [standing])
  | append_singleton log e ih =>
    rw [standing_concat] at h
    have hold (hsame : standing log router remote = .laid clients side) :
        side.remoteVpc = remote ∧ ∃ i, .laid i router side ∈ log ++ [e] := by
      obtain ⟨hremote, i, hi⟩ := ih hsame
      exact ⟨hremote, i, List.mem_append_left [e] hi⟩
    cases e with
    | laid i r s =>
      rw [Standing.step] at h
      split at h
      · next hsame =>
        obtain ⟨rfl, hremote⟩ := hsame
        obtain ⟨-, rfl⟩ := Standing.laid.inj h
        exact ⟨hremote, i, List.mem_append_right log (List.mem_singleton.mpr rfl)⟩
      · exact hold h
    | taken i r m undo =>
      rw [Standing.step] at h
      split at h
      · contradiction
      · exact hold h
    | _ => exact hold h

theorem mem_sidesOn : side ∈ sidesOn log router ↔
    (standing log router side.remoteVpc).side? = some side := by
  rw [sidesOn, List.mem_filter, decide_eq_true_eq]
  refine ⟨fun h => h.2, fun h => ⟨?_, h⟩⟩
  match hstanding : standing log router side.remoteVpc with
  | .laid clients s =>
    rw [hstanding] at h
    obtain rfl := Option.some.inj h
    obtain ⟨-, i, hi⟩ := laid_of_standing hstanding
    exact List.mem_filterMap.mpr ⟨_, hi, if_pos rfl⟩
  | .untold | .taken =>
    rw [hstanding] at h
    contradiction

theorem mem_sidesOn_of_standing {clients : List ι}
    (h : standing log router remote = .laid clients side) : side ∈ sidesOn log router := by
  obtain ⟨rfl, -⟩ := laid_of_standing h
  rw [mem_sidesOn, h]
  rfl

end Standing

/-- The router that an event writes. -/
def Event.written : Event ι → Option String
  | .laid _ router _ => some router
  | .taken _ router .. => some router
  | .cleaned _ router => some router
  | _ => none

/-- What an event does to the lists of a router. -/
def Event.Turns (log : List (Event ι)) (router : String) (old new : VpcSpec) : Event ι → Prop
  | .laid _ r side =>
    if router = r then new = peeringSidePatch old side ∧
      Apart log router side.remoteVpc side.remoteCIDRs
    else new = old
  | .taken _ r remote _ =>
    if router = r then ∃ cidrs, new = withoutSide old remote cidrs ∧
      Apart log router remote cidrs ∧
      ∀ other ∈ sidesOn log router, other.remoteVpc ≠ remote →
        other.nextHop ∉ nextHops old remote
    else new = old
  | .cleaned _ r =>
    if router = r then new = { old with staticRoutes := some (Keyed.drop StaticRoute.cidr
        [some "0.0.0.0/0"] (items old.staticRoutes)) } ∧
      ∀ other ∈ sidesOn log router, "0.0.0.0/0" ∉ other.remoteCIDRs
    else new = old
  | _ => new = old

/-- What is so when an event is noted. -/
def Event.Fits (jobs : ι → Job) (w : World ι) : Event ι → Prop
  | .taken i router remote false => (jobs i).Deletes router remote
  | .taken i router remote true => ∀ j ∈ (standing w.log router remote).clients, j = i
  | .listed _ name (.ok remotes) => ∀ router, router ≠ name → router ≠ "" → router ∉ remotes →
    ∀ spec, w.spec? router = some spec → entriesFor spec name = []
  | .listed _ _ (.error e) => e.isApi = false
  | .missed i router => ∀ name, jobs i = .deleteVpc name → router = name
  | .looked i .routes (.error e) => ∀ name, jobs i = .deleteVpc name → e.isApi = true
  | _ => True

/-- One event more, and what it does. -/
structure Follows (jobs : ι → Job) (w : World ι) (e : Event ι) (v : World ι) : Prop where
  log : v.log = w.log ++ [e]
  specs : ∀ router new, v.spec? router = some new →
    ∃ old, w.spec? router = some old ∧ e.Turns w.log router old new
  fits : e.Fits jobs w

/-- Nothing has been noted, and no router has other lists. -/
structure Same (w v : World ι) : Prop where
  log : v.log = w.log
  specs : ∀ router new, v.spec? router = some new → w.spec? router = some new

section Step

variable {jobs : ι → Job} {i : ι} {fault : Fault} {w v : World ι} {r : Request} {e : Event ι}
  {name : String} {item : Versioned VpcSpec} {patch : VpcSpec}

theorem Event.turns_self (h : e.written ≠ some name) (log : List (Event ι)) (spec : VpcSpec) :
    e.Turns log name spec spec := by
  cases e with
  | laid _ r _ | taken _ r _ _ | cleaned _ r =>
    rw [Event.Turns, if_neg]
    rintro rfl
    exact h rfl
  | _ => rfl

theorem Follows.of_note (hwritten : e.written = none) (h : e.Fits jobs w)
    (hspecs : ∀ router new, v.spec? router = some new → w.spec? router = some new)
    (hlog : v.log = w.log ++ [e]) : Follows jobs w e v where
  log := hlog
  specs router new hnew := ⟨new, hspecs router new hnew,
    Event.turns_self (by rw [hwritten]; simp) w.log new⟩
  fits := h

theorem Follows.of_patched (hitem : w.routers.lookup name = some item)
    (hwritten : e.written = some name) (h : e.Fits jobs w)
    (hturns : e.Turns w.log name item.value (merge item.value patch)) :
    Follows jobs w e (w.patched name item patch e) where
  log := by
    simp only [World.patched]
    split <;> rfl
  specs router new hnew := by
    have hrewritten := rewritten_patched hitem patch e
    by_cases hname : router = name
    · subst hname
      rw [hrewritten.spec] at hnew
      obtain rfl := Option.some.inj hnew
      exact ⟨item.value, by rw [World.spec?, hitem, Option.map_some], hturns⟩
    · rw [hrewritten.others router hname] at hnew
      refine ⟨new, hnew, Event.turns_self ?_ w.log new⟩
      rw [hwritten]
      exact fun hsame => hname (Option.some.inj hsame).symm
  fits := h

theorem follows_patched {version : Option Nat} {reason : Reason}
    (hitem : w.routers.lookup name = some item) (hversion : version.all (· = item.version) = true)
    (hsent : Sent (jobs i) w (.patchVpc name version patch reason))
    (hfit : Fitting i w (.patchVpc name version patch reason)) :
    Follows jobs w (reason.event i name) (w.patched name item patch (reason.event i name)) := by
  cases reason with
  | lay side =>
    obtain ⟨read, rfl, hpatch⟩ := hsent
    have hread : read = item.version := by simpa using hversion
    have hmerge : merge item.value patch = peeringSidePatch item.value side := by
      rw [hpatch item hitem hread.symm]
      rfl
    refine .of_patched hitem rfl trivial ?_
    rw [Reason.event, Event.Turns, if_pos rfl, hmerge]
    exact ⟨rfl, hfit item hitem (by rw [hread])⟩
  | take remote cidrs read undo =>
    obtain ⟨hnow, hapart, hhops, hundo⟩ := hfit item hitem
    refine .of_patched hitem rfl ?_ ?_
    · cases undo with
      | false => exact hsent.2.2 rfl
      | true => exact hundo rfl
    · rw [Reason.event, Event.Turns, if_pos rfl, hnow]
      exact ⟨cidrs, rfl, hapart, hhops⟩
  | clean read =>
    obtain ⟨hnow, hapart⟩ := hfit item hitem
    refine .of_patched hitem rfl trivial ?_
    rw [Reason.event, Event.Turns, if_pos rfl]
    refine ⟨?_, hapart⟩
    rw [hsent.2] at hnow ⊢
    rw [merge, hnow]
    rfl

theorem Same.of_routers (hlog : v.log = w.log) (hrouters : v.routers = w.routers) : Same w v where
  log := hlog
  specs router new hnew := by rwa [World.spec?, hrouters] at hnew

theorem Follows.of_routers (hwritten : e.written = none) (h : e.Fits jobs w)
    (hlog : v.log = w.log ++ [e]) (hrouters : v.routers = w.routers) : Follows jobs w e v :=
  .of_note hwritten h (fun router new hnew => by rwa [World.spec?, hrouters] at hnew) hlog

theorem fits_missed (fault : { e : Failure // e ≠ .api 404 }) {router : String}
    (h : ∀ vpc, jobs i = .deleteVpc vpc → router ≠ vpc → some fault = none) :
    (Event.missed i router).Fits jobs w := by
  intro vpc hjob
  by_contra hne
  have hnone := h vpc hjob hne
  contradiction

theorem follows_refused (fault : { e : Failure // e ≠ .api 404 })
    (h : Unmissed (some fault) (jobs i) r) :
    Same w (refused i fault.1 w r) ∨ ∃ e, Follows jobs w e (refused i fault.1 w r) := by
  cases r with
  | getVpc name =>
    refine .inr ⟨_, .of_routers rfl (fits_missed fault fun vpc hjob => ?_) rfl rfl⟩
    rw [hjob] at h
    exact h
  | patchVpc name version patch reason =>
    refine .inr ⟨_, .of_routers rfl (fits_missed fault fun vpc hjob => ?_) rfl rfl⟩
    rw [hjob] at h
    exact h
  | getVpcPeerings name =>
    refine .inr ⟨.listed i name (.error fault.1), .of_routers rfl ?_ rfl rfl⟩
    cases hjob : jobs i <;> rw [hjob] at h <;> exact h fault rfl
  | listSubnets purpose =>
    refine .inr ⟨.looked i purpose (.error fault.1), .of_routers rfl ?_ rfl rfl⟩
    cases purpose with
    | routes =>
      intro vpc hjob
      rw [hjob] at h
      exact h fault rfl
    | deletion | presence => trivial
  | getSubnet name | deleteVpc name | deleteRecord name =>
    exact .inr ⟨_, .of_routers rfl (by trivial) rfl rfl⟩
  | _ => exact .inl (.of_routers rfl rfl)

theorem follows_commit (hsent : Sent (jobs i) w r) (hfit : Fitting i w r) :
    Same w (commit i w r).2 ∨ ∃ e, Follows jobs w e (commit i w r).2 := by
  cases r with
  | getVpc name | deleteSubnet name | getNetwork name =>
    simp only [commit]
    split <;> exact .inl (.of_routers rfl rfl)
  | getVpcPeerings name =>
    have hlisted {remotes : List String} (hentries : w.remotesAt name = remotes) :
        (Event.listed i name (.ok remotes)).Fits jobs w := by
      intro router hne hempty hremote spec hspec
      obtain ⟨item, hitem, -⟩ := lookup_of_spec? hspec
      have hkey : router ∈ w.routers.keys := AList.mem_keys.mp (AList.lookup_isSome.mp (by
        rw [hitem]
        rfl))
      rw [← hentries] at hremote
      exact hfit router hkey hne hempty hremote spec hspec
    simp only [commit]
    split
    · next hnone =>
      refine .inr ⟨_, .of_routers rfl (hlisted ?_) rfl rfl⟩
      rw [World.remotesAt, World.spec?, hnone]
      rfl
    · next item hitem =>
      refine .inr ⟨_, .of_routers rfl (hlisted ?_) rfl rfl⟩
      rw [World.remotesAt, World.spec?, hitem]
      rfl
  | patchVpc name version patch reason =>
    simp only [commit]
    split
    · exact .inl (.of_routers rfl rfl)
    · next item hitem =>
      split
      · next hversion => exact .inr ⟨_, follows_patched hitem hversion hsent hfit⟩
      · exact .inl (.of_routers rfl rfl)
  | deleteVpc name =>
    simp only [commit]
    split
    · exact .inr ⟨_, .of_routers rfl (by trivial) rfl rfl⟩
    · refine .inr ⟨.deleting i name, .of_note rfl trivial (fun router new hnew => ?_) rfl⟩
      obtain ⟨item, hitem, rfl⟩ := lookup_of_spec? hnew
      rw [World.spec?, Store.lookup_of_erase hitem, Option.map_some]
  | listSubnets purpose =>
    refine .inr ⟨.looked i purpose (.ok w.around.subnets), .of_routers rfl ?_ rfl rfl⟩
    cases purpose <;> trivial
  | getSubnet name | deleteRecord name => exact .inr ⟨_, .of_routers rfl (by trivial) rfl rfl⟩
  | _ => exact .inl (.of_routers rfl rfl)

theorem follows_serve (hsent : Sent (jobs i) w r) (hunmissed : Unmissed fault (jobs i) r)
    (hfit : fault = none → Fitting i w r) :
    Same w (serve i fault w r).2 ∨ ∃ e, Follows jobs w e (serve i fault w r).2 := by
  cases fault with
  | none => exact follows_commit hsent (hfit rfl)
  | some fault => exact follows_refused fault hunmissed

end Step

end Vpcs
