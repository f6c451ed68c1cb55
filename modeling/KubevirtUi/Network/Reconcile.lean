import KubevirtUi.Go.Strings
import KubevirtUi.Library.Machine
import Mathlib.Data.List.AList

/-!
# Passes over a network

What a network declares is merged into the two lists of its VPC, and what it no longer declares
is withdrawn if the last pass has recorded it. Others write to the same lists. Each entry here
says who put it there: that is for the statements only, no function reads it.

A pass reads what is declared and what the last pass has recorded, writes the two lists of the
VPC, and records what is declared now. It can fail before anything is written, at the VPC, or
after it, and the record is saved or lost each time. Between passes the plane, the gateways, the
tenants and the lists change.
-/

namespace Network

inductive Writer where
  | reconciler
  | other
  deriving DecidableEq

/-- An entry of `extraExternalSubnets`. -/
structure Leg where
  name : String
  addedBy : Writer
  deriving DecidableEq

/-- An entry of `staticRoutes`. -/
structure LiveRoute where
  cidr : String
  nextHopIP : String
  policy : String
  addedBy : Writer
  deriving DecidableEq

/-- A route reduced to the fields anything here decides. -/
structure Route where
  cidr : String
  nextHopIP : String
  policy : String
  deriving DecidableEq

/-- How a network reaches anything outside itself. -/
structure ExternalPlane where
  attachments : List String
  egressSubnet : String

def defaultCIDR : String := "0.0.0.0/0"

/-- The external subnets the VPC gets a port on. -/
def attachments : Option ExternalPlane → List String
  | none => []
  | some plane =>
    let out := (plane.attachments.map Go.trimSpace).foldl
      (fun out name => if name = "" ∨ name ∈ out then out else out ++ [name]) []
    let egress := Go.trimSpace plane.egressSubnet
    if egress ≠ "" ∧ egress ∉ out then out ++ [egress] else out

/-- The routes a network declares, and the default route if there is a next hop for it. -/
def desiredRoutes (staticRoutes : List Route) (nextHop : String) : List Route :=
  let out := staticRoutes.map fun route =>
    { route with policy := if route.policy = "" then "policyDst" else route.policy }
  let hasDefault := staticRoutes.any (·.cidr = defaultCIDR)
  if nextHop ≠ "" ∧ hasDefault = false then out ++ [⟨defaultCIDR, nextHop, "policyDst"⟩] else out

/-- The live route is the one that is wanted. -/
def LiveRoute.is (route : LiveRoute) (want : Route) : Bool :=
  let policy := if route.policy = "" then "policyDst" else route.policy
  route.cidr = want.cidr && route.nextHopIP = want.nextHopIP && policy = want.policy

/-- Add the desired routes to the live list without disturbing it. -/
def mergeRoutes (liveRoutes : List LiveRoute) (desired : List Route) : List LiveRoute × Bool :=
  let missing := desired.filter fun want => !liveRoutes.any (·.is want)
  (liveRoutes ++ missing.map fun want =>
    ⟨want.cidr, want.nextHopIP, want.policy, .reconciler⟩, missing ≠ [])

/-- The same for the attachments. -/
def mergeStrings (liveValues : List Leg) (desired : List String) : List Leg × Bool :=
  desired.foldl (fun (out, changed) want =>
    if want ∈ out.map Leg.name then (out, changed) else (out ++ [⟨want, .reconciler⟩], true))
    (liveValues, false)

/-- Remove what was applied and is no longer wanted. -/
def withdraw (live : List Leg) (wanted applied : List String) : List Leg × Bool :=
  (live.filter fun leg => !(leg.name ∈ applied && leg.name ∉ wanted),
    live.any fun leg => leg.name ∈ applied && leg.name ∉ wanted)

/-- Remove the default route through the hop that was applied. -/
def withdrawRoute (liveRoutes : List LiveRoute) (appliedNextHop : String) : List LiveRoute × Bool :=
  if appliedNextHop = "" then (liveRoutes, false)
  else
    (liveRoutes.filter fun route =>
        !(route.cidr = defaultCIDR && route.nextHopIP = appliedNextHop),
      liveRoutes.any fun route => route.cidr = defaultCIDR && route.nextHopIP = appliedNextHop)

section Changed

/-- What was there stays, and what is new is what is wanted and was not there. -/
theorem exists_mergeStrings (live : List Leg) (desired : List String) :
    ∃ new : List String, mergeStrings live desired =
        (live ++ new.map fun name => ⟨name, .reconciler⟩, decide (new ≠ [])) ∧
      (∀ name, name ∈ new ↔ name ∈ desired ∧ name ∉ live.map Leg.name) ∧ new.Nodup := by
  have hfold (changed : Bool) (live : List Leg) : ∃ new : List String,
      (desired.foldl (fun (out, changed) want =>
        if want ∈ out.map Leg.name then (out, changed) else (out ++ [⟨want, .reconciler⟩], true))
        (live, changed)) =
          (live ++ new.map fun name => ⟨name, .reconciler⟩, changed || decide (new ≠ [])) ∧
      (∀ name, name ∈ new ↔ name ∈ desired ∧ name ∉ live.map Leg.name) ∧ new.Nodup := by
    induction desired generalizing changed live with
    | nil => exact ⟨[], by simp⟩
    | cons want desired ih =>
      rw [List.foldl_cons]
      by_cases hwant : want ∈ live.map Leg.name
      · simp only [hwant, if_true]
        obtain ⟨new, hnew, hmem, hnodup⟩ := ih changed live
        refine ⟨new, hnew, fun name => ?_, hnodup⟩
        have hother : name ∉ live.map Leg.name → name ≠ want := fun hnot hsame =>
          hnot (hsame ▸ hwant)
        rw [hmem, List.mem_cons]
        tauto
      · simp only [hwant, if_false]
        obtain ⟨new, hnew, hmem, hnodup⟩ := ih true (live ++ [⟨want, .reconciler⟩])
        refine ⟨want :: new, by rw [hnew]; simp, fun name => ?_,
          hnodup.cons fun hin => ((hmem want).mp hin).2 (by simp)⟩
        rw [List.mem_cons, List.mem_cons, hmem, List.map_append, List.mem_append]
        by_cases hname : name = want
        · simp [hname, hwant]
        · simp [hname]
  obtain ⟨new, hnew, hmem⟩ := hfold false live
  exact ⟨new, by rw [mergeStrings, hnew, Bool.false_or], hmem⟩

theorem filter_not_of_any {α : Type} {p : α → Bool} {l : List α} (h : l.any p = false) :
    l.filter (!p ·) = l := by
  rw [List.filter_eq_self]
  intro x hx
  simpa using List.any_eq_false.mp h x hx

theorem ite_mergeStrings (live : List Leg) (desired : List String) :
    (if (mergeStrings live desired).2 then (mergeStrings live desired).1 else live) =
      (mergeStrings live desired).1 := by
  obtain ⟨new, hnew, -⟩ := exists_mergeStrings live desired
  rw [hnew]
  cases new with
  | nil => simp
  | cons name new => simp

theorem ite_withdraw (live : List Leg) (wanted applied : List String) :
    (if (withdraw live wanted applied).2 then (withdraw live wanted applied).1 else live) =
      (withdraw live wanted applied).1 := by
  split
  · rfl
  · next h => exact (filter_not_of_any (Bool.eq_false_iff.mpr h)).symm

theorem ite_mergeRoutes (live : List LiveRoute) (desired : List Route) :
    (if (mergeRoutes live desired).2 then (mergeRoutes live desired).1 else live) =
      (mergeRoutes live desired).1 := by
  rw [mergeRoutes]
  dsimp only
  generalize (desired.filter fun want => !live.any (·.is want)) = missing
  cases missing with
  | nil => simp
  | cons want missing => simp

theorem ite_withdrawRoute (live : List LiveRoute) (applied : String) :
    (if (withdrawRoute live applied).2 then (withdrawRoute live applied).1 else live) =
      (withdrawRoute live applied).1 := by
  rw [withdrawRoute]
  split
  · rfl
  · dsimp only
    split
    · rfl
    · next h => exact (filter_not_of_any (Bool.eq_false_iff.mpr h)).symm

end Changed

/-- The record of a pass. -/
structure Status where
  attachments : List String := []
  defaultRouteVia : String := ""
  deriving DecidableEq

/-- The two lists of the router. -/
structure Vpc where
  legs : List Leg
  routes : List LiveRoute
  deriving DecidableEq

/-- What does not change in a run: the routes that the network declares itself, and the subnet
that tenants reach their control plane over. -/
structure Settings where
  staticRoutes : List Route
  transitSubnet : String

structure State where
  externalPlane : Option ExternalPlane
  /-- The gateways of the egress subnets. -/
  gateways : AList fun _ : String => String
  /-- Whether a tenant declares this network. -/
  tenants : Bool
  status : Status
  vpc : Vpc

/-- The gateway of the subnet the default route leaves through. -/
def egressNextHop (s : State) : String :=
  match s.externalPlane with
  | none => ""
  | some plane =>
    if plane.egressSubnet = "" then "" else (s.gateways.lookup plane.egressSubnet).getD ""

/-- The attachments that somebody is living behind. -/
def legsHeldByTenants (settings : Settings) (s : State) : List String :=
  if settings.transitSubnet = "" then []
  else if s.tenants then [settings.transitSubnet] else []

def ensureVPC (settings : Settings) (s : State) (nextHop : String) (applied : Status) : Vpc :=
  let held := legsHeldByTenants settings s
  let routes :=
    let (merged, changed) := mergeRoutes s.vpc.routes (desiredRoutes settings.staticRoutes nextHop)
    if changed then merged else s.vpc.routes
  let wanted := attachments s.externalPlane
  let legs :=
    if wanted.length > 0 then
      let (merged, changed) := mergeStrings s.vpc.legs wanted
      if changed then merged else s.vpc.legs
    else s.vpc.legs
  let legs :=
    let (kept, changed) := withdraw legs (wanted ++ held) applied.attachments
    if changed then kept else legs
  let routes :=
    if nextHop = "" then
      let (kept, changed) := withdrawRoute routes applied.defaultRouteVia
      if changed then kept else routes
    else routes
  ⟨legs, routes⟩

/-- How a pass ends. -/
inductive Outcome where
  /-- Nothing is written. -/
  | unread
  /-- The VPC could not be written. -/
  | writeFailed (statusSaved : Bool)
  /-- Something after the VPC failed, the status itself included. -/
  | laterFailed (statusSaved : Bool)
  | done
  deriving DecidableEq

namespace Outcome

def written : Outcome → Bool
  | unread | writeFailed _ => false
  | laterFailed _ | done => true

def saved : Outcome → Bool
  | unread => false
  | writeFailed statusSaved | laterFailed statusSaved => statusSaved
  | done => true

end Outcome

def reconcile (settings : Settings) (s : State) (outcome : Outcome) : State :=
  let nextHop := egressNextHop s
  { s with
    vpc := if outcome.written then ensureVPC settings s nextHop s.status else s.vpc
    status := if outcome.saved then ⟨attachments s.externalPlane, nextHop⟩ else s.status }

/-- What can happen. -/
inductive Event where
  | declare (plane : Option ExternalPlane)
  | gateway (subnet gateway : String)
  | tenants (declared : Bool)
  | appendLeg (name : String)
  | appendRoute (cidr nextHopIP policy : String)
  | pass (outcome : Outcome)

def step (settings : Settings) (s : State) : Event → State
  | .declare plane => { s with externalPlane := plane }
  | .gateway subnet gateway => { s with gateways := s.gateways.insert subnet gateway }
  | .tenants declared => { s with tenants := declared }
  | .appendLeg name => { s with vpc.legs := s.vpc.legs ++ [⟨name, .other⟩] }
  | .appendRoute cidr nextHopIP policy =>
    { s with vpc.routes := s.vpc.routes ++ [⟨cidr, nextHopIP, policy, .other⟩] }
  | .pass outcome => reconcile settings s outcome

section Ensure

variable {settings : Settings} {s : State} {nextHop : String} {applied : Status}

theorem legs_ensureVPC : (ensureVPC settings s nextHop applied).legs =
    (withdraw (mergeStrings s.vpc.legs (attachments s.externalPlane)).1
      (attachments s.externalPlane ++ legsHeldByTenants settings s) applied.attachments).1 := by
  have hmerged : (if (attachments s.externalPlane).length > 0 then
      (mergeStrings s.vpc.legs (attachments s.externalPlane)).1 else s.vpc.legs) =
      (mergeStrings s.vpc.legs (attachments s.externalPlane)).1 := by
    cases attachments s.externalPlane with
    | nil => rfl
    | cons name wanted => simp
  simp only [ensureVPC, ite_mergeStrings, ite_withdraw, hmerged]

theorem routes_ensureVPC : (ensureVPC settings s nextHop applied).routes =
    if nextHop = "" then
      (withdrawRoute (mergeRoutes s.vpc.routes (desiredRoutes settings.staticRoutes nextHop)).1
        applied.defaultRouteVia).1
    else (mergeRoutes s.vpc.routes (desiredRoutes settings.staticRoutes nextHop)).1 := by
  simp only [ensureVPC, ite_mergeRoutes, ite_withdrawRoute]

end Ensure

end Network
