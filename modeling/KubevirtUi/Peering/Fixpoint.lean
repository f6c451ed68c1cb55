import KubevirtUi.Peering.Router

/-!
# When a router is left alone

A half is written only when the router differs from what is wanted, and what is
wanted has the entry of the peering last. One peering on a router therefore comes
to rest after one pass. Two of them do not: each takes the last place from the
other, and every pass writes again.
-/

namespace Peering

/-- The entry, the routes and the policies of the side stand at the end of their
lists, in order, and nothing before them has one of their keys. -/
structure InPlace (spec : VpcSpec) (side : Side) : Prop where
  peering : ∃ xs, spec.vpcPeerings = some xs ∧ Keyed.Last PeeringEntry.remote xs [side.peering]
  routes : ∃ xs, spec.staticRoutes = some xs ∧ Keyed.Last StaticRoute.cidrText xs side.routes
  policies : ∃ xs, spec.policyRoutes = some xs ∧
    Keyed.Last PolicyRoute.matchText xs side.policies

/-- The router carries the entry, every route and every policy, wherever. -/
structure Carries (spec : VpcSpec) (side : Side) : Prop where
  peering : side.peering ∈ items spec.vpcPeerings
  routes : ∀ route ∈ side.routes, route ∈ items spec.staticRoutes
  policies : ∀ policy ∈ side.policies, policy ∈ items spec.policyRoutes

section Side

variable {spec : VpcSpec} {remote : String} {side : Side}

private theorem eq_some_put_iff {α : Type} {key : α → String} {existing : Option (List α)}
    {ys : List α} : existing = some (Keyed.put key (items existing) ys) ↔
      ∃ xs, existing = some xs ∧ Keyed.Last key xs ys := by
  constructor
  · intro h
    refine ⟨_, h, ?_⟩
    exact Keyed.last_put
  · rintro ⟨xs, rfl, hlast⟩
    rw [items_some, Keyed.put_eq_self_iff.mpr hlast]

theorem applySide_eq_none_iff (h : side.peering.remote = remote) :
    applySide spec remote side = none ↔ InPlace spec side := by
  have hwanted : spec = spec.withSide remote side ↔ InPlace spec side := by
    rw [VpcSpec.withSide, withPeering_eq_put _ h, withRoutes, withPolicies]
    constructor
    · intro heq
      exact ⟨eq_some_put_iff.mp (congrArg VpcSpec.vpcPeerings heq),
        eq_some_put_iff.mp (congrArg VpcSpec.staticRoutes heq),
        eq_some_put_iff.mp (congrArg VpcSpec.policyRoutes heq)⟩
    · rintro ⟨hp, hr, hq⟩
      rw [← eq_some_put_iff] at hp hr hq
      cases spec
      simp only [VpcSpec.mk.injEq]
      exact ⟨hp, hr, hq⟩
  rw [← hwanted, applySide]
  split
  · rename_i hsame
    exact ⟨fun _ => hsame, fun _ => rfl⟩
  · rename_i hdiff
    exact ⟨fun hnone => by simp at hnone, fun hsame => absurd hsame hdiff⟩

theorem inPlace_afterApply (h : side.peering.remote = remote) :
    InPlace (afterApply spec remote side) side := by
  rw [afterApply_eq, VpcSpec.withSide, withPeering_eq_put _ h]
  exact ⟨⟨_, rfl, Keyed.last_put⟩, ⟨_, rfl, Keyed.last_put⟩, ⟨_, rfl, Keyed.last_put⟩⟩

end Side

/-- One end of a peering, as the reconciler passes it on. -/
structure End where
  router : String
  remote : String
  connectIP : String
  linkCIDR : String
  deriving DecidableEq

/-- What the end has to say, given the prefixes of every network. -/
def End.side (subnetCIDRs : String → List String) (e : End) : Side :=
  renderSide e.remote e.connectIP e.linkCIDR (subnetCIDRs e.remote)

/-- One write of one end; the flag says whether anything was written. -/
def applyEnd (subnetCIDRs : String → List String) (routers : String → VpcSpec) (e : End) :
    (String → VpcSpec) × Bool :=
  match applySide (routers e.router) e.remote (e.side subnetCIDRs) with
  | none => (routers, false)
  | some spec => (Function.update routers e.router spec, true)

/-- The routers after the ends have been applied one after the other. -/
def applyEnds (subnetCIDRs : String → List String) (routers : String → VpcSpec)
    (ends : List End) : String → VpcSpec :=
  ends.foldl (fun routers e => (applyEnd subnetCIDRs routers e).1) routers

/-- The ends are applied one after the other and none of them writes. -/
def Quiet (subnetCIDRs : String → List String) : (String → VpcSpec) → List End → Prop
  | _, [] => True
  | routers, e :: ends =>
    (applyEnd subnetCIDRs routers e).2 = false ∧
      Quiet subnetCIDRs (applyEnd subnetCIDRs routers e).1 ends

instance (subnetCIDRs : String → List String) (routers : String → VpcSpec) (ends : List End) :
    Decidable (Quiet subnetCIDRs routers ends) :=
  match ends with
  | [] => inferInstanceAs (Decidable True)
  | e :: ends =>
    have := instDecidableQuiet subnetCIDRs (applyEnd subnetCIDRs routers e).1 ends
    inferInstanceAs (Decidable (_ ∧ _))

section Runs

variable {subnetCIDRs : String → List String} {routers : String → VpcSpec} {e f : End}

theorem applyEnd_quiet_iff : (applyEnd subnetCIDRs routers e).2 = false ↔
      InPlace (routers e.router) (e.side subnetCIDRs) := by
  rw [← applySide_eq_none_iff (by rfl : (e.side subnetCIDRs).peering.remote = e.remote), applyEnd]
  split <;> simp_all

theorem applyEnd_of_inPlace (h : InPlace (routers e.router) (e.side subnetCIDRs)) :
    (applyEnd subnetCIDRs routers e).1 = routers := by
  rw [applyEnd, (applySide_eq_none_iff (by rfl)).mpr h]

theorem applyEnd_apply : (applyEnd subnetCIDRs routers e).1 = Function.update routers e.router
      (afterApply (routers e.router) e.remote (e.side subnetCIDRs)) := by
  unfold applyEnd afterApply
  split <;> simp_all

theorem inPlace_applyEnd (hsame : e.router = f.router → e.side subnetCIDRs = f.side subnetCIDRs)
    (h : e.router = f.router ∨ InPlace (routers e.router) (e.side subnetCIDRs)) :
    InPlace ((applyEnd subnetCIDRs routers f).1 e.router) (e.side subnetCIDRs) := by
  rw [applyEnd_apply]
  by_cases hrouter : e.router = f.router
  · rw [hrouter, Function.update_self, hsame hrouter]
    exact inPlace_afterApply rfl
  · rw [Function.update_of_ne hrouter]
    exact h.resolve_left hrouter

/-- After a run in which no two different sides meet on a router, every end that
took part is in place. -/
theorem inPlace_applyEnds {ends : List End} (hsame : ∀ e ∈ ends, ∀ f ∈ ends, e.router = f.router →
      e.side subnetCIDRs = f.side subnetCIDRs) (he : e ∈ ends) :
    InPlace (applyEnds subnetCIDRs routers ends e.router) (e.side subnetCIDRs) := by
  induction ends using List.reverseRecOn with
  | nil => simp at he
  | append_singleton ends f ih =>
    rw [applyEnds, List.foldl_append, List.foldl_cons, List.foldl_nil]
    refine inPlace_applyEnd (hsame e he f (by simp)) ?_
    obtain hmem | hlast := List.mem_append.mp he
    · exact .inr (ih (fun e he f hf => hsame e (by simp [he]) f (by simp [hf])) hmem)
    · exact .inl (by rw [List.mem_singleton.mp hlast])

theorem quiet_of_inPlace {ends : List End}
    (h : ∀ e ∈ ends, InPlace (routers e.router) (e.side subnetCIDRs)) :
    Quiet subnetCIDRs routers ends := by
  induction ends with
  | nil => trivial
  | cons e ends ih =>
    have he := h e (by simp)
    refine ⟨applyEnd_quiet_iff.mpr he, ?_⟩
    rw [applyEnd_of_inPlace he]
    exact ih fun f hf => h f (by simp [hf])

theorem side_eq_of_inPlace (hrouter : e.router = f.router)
    (he : InPlace (routers e.router) (e.side subnetCIDRs))
    (hf : InPlace (routers f.router) (f.side subnetCIDRs)) :
    e.side subnetCIDRs = f.side subnetCIDRs := by
  rw [← hrouter] at hf
  obtain ⟨ps, hps, hpe⟩ := he.peering
  obtain ⟨ps', hps', hpf⟩ := hf.peering
  obtain rfl := Option.mem_unique hps hps'
  have hpeering : (e.side subnetCIDRs).peering = (f.side subnetCIDRs).peering := by
    simpa using hpe.unique hpf rfl
  have hremote : e.remote = f.remote := congrArg PeeringEntry.remote hpeering
  obtain ⟨rs, hrs, hre⟩ := he.routes
  obtain ⟨rs', hrs', hrf⟩ := hf.routes
  obtain rfl := Option.mem_unique hrs hrs'
  have hroutes : (e.side subnetCIDRs).routes = (f.side subnetCIDRs).routes :=
    hre.unique hrf (by simp [End.side, renderSide, hremote])
  have hpolicies : (e.side subnetCIDRs).policies = (f.side subnetCIDRs).policies := by
    simp [End.side, renderSide, hremote]
  cases he' : e.side subnetCIDRs
  cases hf' : f.side subnetCIDRs
  simp_all

end Runs

/-- When applying a side writes nothing: for one side, when it stands last; and
over all runs of several sides, when no router carries two different ones. -/
theorem applySide_quiet_iff (spec : VpcSpec) (remote connectIP linkCIDR : String)
    (cidrs : List String) (subnetCIDRs : String → List String) (ends : List End) :
    (applySide spec remote (renderSide remote connectIP linkCIDR cidrs) = none ↔
      InPlace spec (renderSide remote connectIP linkCIDR cidrs)) ∧
    ((∀ (routers : String → VpcSpec) (before after : List End),
        before ⊆ ends → ends ⊆ before → after ⊆ ends →
        Quiet subnetCIDRs (applyEnds subnetCIDRs routers before) after) ↔
      ∀ e ∈ ends, ∀ f ∈ ends, e.router = f.router →
        e.side subnetCIDRs = f.side subnetCIDRs) := by
  refine ⟨applySide_eq_none_iff rfl, ?_⟩
  constructor
  · intro hquiet e he f hf hrouter
    have hrun := hquiet (fun _ => {}) ends [e, f] (List.Subset.refl _) (List.Subset.refl _)
      (by simp [he, hf])
    obtain ⟨hquietE, hquietF, -⟩ := hrun
    rw [applyEnd_quiet_iff] at hquietE
    rw [applyEnd_of_inPlace hquietE, applyEnd_quiet_iff] at hquietF
    exact side_eq_of_inPlace hrouter hquietE hquietF
  · intro hsame routers before after hbefore hcover hafter
    refine quiet_of_inPlace fun e he => inPlace_applyEnds ?_ (hcover (hafter he))
    exact fun e he f hf => hsame e (hbefore he) f (hbefore hf)

def hubToLeft : End := ⟨"hub", "left", "169.254.101.1", "169.254.101.0/30"⟩

def hubToRight : End := ⟨"hub", "right", "169.254.101.5", "169.254.101.4/30"⟩

def hubCIDRs (name : String) : List String :=
  if name = "left" then ["10.1.0.0/24"] else if name = "right" then ["10.2.0.0/24"] else []

/-- The hub's router after both of its ends have been applied once. -/
def hubRouter : VpcSpec := applyEnds hubCIDRs (fun _ => {}) [hubToLeft, hubToRight] "hub"

/-- The hub carries all of its first peering and is written again all the same. -/
theorem hub_written_again : Carries hubRouter (hubToLeft.side hubCIDRs) ∧
      applySide hubRouter "left" (hubToLeft.side hubCIDRs) ≠ none ∧
      ¬ Quiet hubCIDRs (applyEnds hubCIDRs (fun _ => {}) [hubToLeft, hubToRight])
        [hubToLeft, hubToRight, hubToLeft, hubToRight] := by
  refine ⟨⟨?_, ?_, ?_⟩, ?_, ?_⟩
  · decide
  · decide
  · decide
  · decide
  · decide

end Peering
