import KubevirtUi.Network.Reconcile
import Mathlib.Data.List.Infix

/-!
# What the record knows

The record of the last pass is all that tells the reconciler's entries from those of others. As
long as it names what the reconciler has added, and nothing that another has, what is no longer
declared is taken back and what others have added stays.

The record goes wrong where it is saved over something that has not been taken back, where a
write is not recorded, and where what is declared was added by another.
-/

namespace Network

open List

variable {settings : Settings} {s t : State} {outcome : Outcome} {nextHop : String}

/-- What the reconciler has added is declared, or a tenant lives behind it. -/
def TakenBack (settings : Settings) (s : State) : Prop :=
  (∀ leg ∈ s.vpc.legs, leg.addedBy = .reconciler →
    leg.name ∈ attachments s.externalPlane ∨ leg.name ∈ legsHeldByTenants settings s) ∧
  ∀ route ∈ s.vpc.routes, route.addedBy = .reconciler → route.cidr = defaultCIDR →
    ∃ want ∈ desiredRoutes settings.staticRoutes (egressNextHop s), route.is want

/-- The default routes that the reconciler has added. -/
def ourDefaults (routes : List LiveRoute) : List LiveRoute :=
  routes.filter fun route => route.addedBy = .reconciler && route.cidr = defaultCIDR

def otherLegs (legs : List Leg) : List Leg := legs.filter (·.addedBy = .other)

def otherRoutes (routes : List LiveRoute) : List LiveRoute := routes.filter (·.addedBy = .other)

/-- A step removes nothing that others have added, and a pass that succeeds leaves nothing of
the reconciler's that is not declared, and at most one default route. -/
structure Correct (settings : Settings) (s : State) (event : Event) (t : State) : Prop where
  otherLegs : otherLegs s.vpc.legs <+: otherLegs t.vpc.legs
  otherRoutes : otherRoutes s.vpc.routes <+: otherRoutes t.vpc.routes
  takenBack : event = .pass .done → TakenBack settings t
  oneDefault : event = .pass .done → (ourDefaults t.vpc.routes).length ≤ 1

/-- When a pass keeps the record right.

Where its status is saved, what it leaves of the reconciler's is declared, and what is declared
is not another's. Where it is not, the pass adds nothing that the record does not name. -/
structure CleanPass (settings : Settings) (s : State) (outcome : Outcome) : Prop where
  legs : outcome.saved = true → ∀ leg ∈ s.vpc.legs, leg.addedBy = .reconciler →
    leg.name ∈ attachments s.externalPlane ∨
      outcome.written = true ∧ leg.name ∉ legsHeldByTenants settings s
  route : outcome.saved = true → ∀ route ∈ s.vpc.routes, route.addedBy = .reconciler →
    route.cidr = defaultCIDR →
    (∃ want ∈ desiredRoutes settings.staticRoutes (egressNextHop s), route.is want) ∨
      outcome.written = true ∧ egressNextHop s = ""
  newLegs : outcome.written = true → outcome.saved = false →
    ∀ name ∈ attachments s.externalPlane,
      name ∈ s.vpc.legs.map Leg.name ∨ name ∈ s.status.attachments
  newRoute : outcome.written = true → outcome.saved = false →
    ∀ want ∈ desiredRoutes settings.staticRoutes (egressNextHop s), want.cidr = defaultCIDR →
      (∃ route ∈ s.vpc.routes, route.is want) ∨
        want ∈ desiredRoutes settings.staticRoutes s.status.defaultRouteVia
  otherLegs : outcome.saved = true → ∀ leg ∈ s.vpc.legs, leg.addedBy = .other →
    leg.name ∉ attachments s.externalPlane
  otherRoutes : outcome.saved = true → egressNextHop s ≠ "" → ∀ route ∈ s.vpc.routes,
    route.addedBy = .other → route.cidr = defaultCIDR → route.nextHopIP ≠ egressNextHop s

/-- When a step does: others add nothing that the record names. -/
def Clean (settings : Settings) (s : State) : Event → Prop
  | .declare _ | .gateway _ _ | .tenants _ => True
  | .appendLeg name => name ∉ s.status.attachments
  | .appendRoute cidr nextHopIP _ => cidr = defaultCIDR → s.status.defaultRouteVia ≠ "" →
    nextHopIP ≠ s.status.defaultRouteVia
  | .pass outcome => CleanPass settings s outcome

/-- The record names what the reconciler has added, and nothing that another has. -/
structure Recorded (settings : Settings) (s : State) : Prop where
  legs : ∀ leg ∈ s.vpc.legs, leg.addedBy = .reconciler → leg.name ∈ s.status.attachments
  otherLegs : ∀ leg ∈ s.vpc.legs, leg.addedBy = .other → leg.name ∉ s.status.attachments
  route : ∀ route ∈ s.vpc.routes, route.addedBy = .reconciler → route.cidr = defaultCIDR →
    ∃ want ∈ desiredRoutes settings.staticRoutes s.status.defaultRouteVia, route.is want
  otherRoutes : s.status.defaultRouteVia ≠ "" → ∀ route ∈ s.vpc.routes,
    route.addedBy = .other → route.cidr = defaultCIDR →
      route.nextHopIP ≠ s.status.defaultRouteVia
  oneDefault : (ourDefaults s.vpc.routes).length ≤ 1

/-- Nothing has been recorded yet, and nothing is the reconciler's. -/
structure Fresh (s : State) : Prop where
  status : s.status = {}
  legs : ∀ leg ∈ s.vpc.legs, leg.addedBy = .other
  routes : ∀ route ∈ s.vpc.routes, route.addedBy = .other

variable {route : LiveRoute} {leg : Leg} {applied : Status} {live : List LiveRoute}
  {desired : List Route}

theorem LiveRoute.cidr_of_is {want : Route} (h : route.is want = true) :
    want.cidr = route.cidr := by
  simp only [LiveRoute.is, Bool.and_eq_true, decide_eq_true_eq] at h
  exact h.1.1.symm

theorem LiveRoute.nextHopIP_of_is {want : Route} (h : route.is want = true) :
    route.nextHopIP = want.nextHopIP := by
  simp only [LiveRoute.is, Bool.and_eq_true, decide_eq_true_eq] at h
  exact h.1.2

section Write

theorem mem_withdraw {live : List Leg} {wanted applied : List String} :
    leg ∈ (withdraw live wanted applied).1 ↔
      leg ∈ live ∧ (leg.name ∈ applied → leg.name ∈ wanted) := by
  rw [withdraw, mem_filter]
  by_cases happlied : leg.name ∈ applied
  · simp [happlied]
  · simp [happlied]

/-- A leg that was there stays if it is wanted, or held, or the record does not name it. -/
theorem mem_legs_ensureVPC : leg ∈ (ensureVPC settings s nextHop applied).legs ↔
      (leg ∈ s.vpc.legs ∧ (leg.name ∈ applied.attachments →
          leg.name ∈ attachments s.externalPlane ∨ leg.name ∈ legsHeldByTenants settings s)) ∨
        (leg.addedBy = .reconciler ∧ leg.name ∈ attachments s.externalPlane ∧
          leg.name ∉ s.vpc.legs.map Leg.name) := by
  obtain ⟨new, hnew, hmem, -⟩ := exists_mergeStrings s.vpc.legs (attachments s.externalPlane)
  rw [legs_ensureVPC, mem_withdraw, hnew, mem_append, mem_append, or_and_right]
  refine or_congr Iff.rfl ?_
  constructor
  · rintro ⟨hleg, -⟩
    obtain ⟨name, hname, rfl⟩ := mem_map.mp hleg
    exact ⟨rfl, (hmem name).mp hname⟩
  · rintro ⟨hours, hwanted, hnot⟩
    refine ⟨mem_map.mpr ⟨leg.name, (hmem _).mpr ⟨hwanted, hnot⟩, ?_⟩, fun _ => .inl hwanted⟩
    rw [← hours]

/-- What others have added and the record does not name stays as it is. -/
theorem otherLegs_ensureVPC
    (h : ∀ leg ∈ s.vpc.legs, leg.addedBy = .other → leg.name ∉ applied.attachments) :
    otherLegs (ensureVPC settings s nextHop applied).legs = otherLegs s.vpc.legs := by
  obtain ⟨new, hnew, -⟩ := exists_mergeStrings s.vpc.legs (attachments s.externalPlane)
  rw [legs_ensureVPC, hnew, withdraw, otherLegs, filter_filter, filter_append]
  have hours (p : Leg → Bool) : (new.map fun name => (⟨name, .reconciler⟩ : Leg)).filter
      (fun leg => leg.addedBy = .other && p leg) = [] := by
    simp [filter_eq_nil_iff]
  rw [hours, append_nil, otherLegs]
  refine filter_congr fun leg hleg => ?_
  by_cases hother : leg.addedBy = .other
  · simp [hother, h leg hleg hother]
  · simp [hother]

theorem mem_mergeRoutes : route ∈ (mergeRoutes live desired).1 ↔ route ∈ live ∨
      ∃ want ∈ desired, live.any (·.is want) = false ∧
        ⟨want.cidr, want.nextHopIP, want.policy, .reconciler⟩ = route := by
  rw [mergeRoutes, mem_append, mem_map]
  simp only [mem_filter, and_assoc, Bool.not_eq_true']

/-- A route that was there stays unless it is a default route through the hop that was applied,
and there is none to go through now. -/
theorem mem_routes_ensureVPC : route ∈ (ensureVPC settings s nextHop applied).routes ↔
      (route ∈ s.vpc.routes ∨ ∃ want ∈ desiredRoutes settings.staticRoutes nextHop,
        s.vpc.routes.any (·.is want) = false ∧
          ⟨want.cidr, want.nextHopIP, want.policy, .reconciler⟩ = route) ∧
        (nextHop = "" → applied.defaultRouteVia ≠ "" → route.cidr = defaultCIDR →
          route.nextHopIP ≠ applied.defaultRouteVia) := by
  rw [routes_ensureVPC, ← mem_mergeRoutes]
  by_cases hhop : nextHop = ""
  · rw [if_pos hhop, withdrawRoute]
    by_cases hvia : applied.defaultRouteVia = ""
    · simp [hvia]
    · simp [hhop, hvia, imp_iff_not_or]
  · simp [hhop]

theorem otherRoutes_ensureVPC
    (h : applied.defaultRouteVia ≠ "" → ∀ route ∈ s.vpc.routes, route.addedBy = .other →
      route.cidr = defaultCIDR → route.nextHopIP ≠ applied.defaultRouteVia) :
    otherRoutes (ensureVPC settings s nextHop applied).routes = otherRoutes s.vpc.routes := by
  have hmerge (desired : List Route) :
      otherRoutes (mergeRoutes s.vpc.routes desired).1 = otherRoutes s.vpc.routes := by
    rw [mergeRoutes, otherRoutes, filter_append, otherRoutes]
    refine (congrArg _ ?_).trans (append_nil _)
    rw [filter_map, map_eq_nil_iff, filter_eq_nil_iff]
    intro want _ hother
    contradiction
  rw [routes_ensureVPC, ← hmerge (desiredRoutes settings.staticRoutes nextHop)]
  by_cases hhop : nextHop = ""
  · rw [if_pos hhop, withdrawRoute]
    split
    · rfl
    · next hvia =>
      rw [otherRoutes, filter_filter, otherRoutes]
      refine filter_congr fun route hroute => ?_
      by_cases hother : route.addedBy = .other
      · have hlive : route ∈ s.vpc.routes := by
          have hmem : route ∈ otherRoutes (mergeRoutes s.vpc.routes
              (desiredRoutes settings.staticRoutes nextHop)).1 :=
            mem_filter.mpr ⟨hroute, by simpa using hother⟩
          rw [hmerge] at hmem
          exact mem_of_mem_filter hmem
        have hstays := h hvia route hlive hother
        by_cases hcidr : route.cidr = defaultCIDR
        · simp [hother, hcidr, hstays hcidr]
        · simp [hother, hcidr]
      · simp [hother]
  · rw [if_neg hhop]

end Write

section Default

variable {staticRoutes : List Route} {want want' : Route}

theorem mem_desiredRoutes : want ∈ desiredRoutes staticRoutes nextHop ↔
    want ∈ desiredRoutes staticRoutes "" ∨
      (nextHop ≠ "" ∧ staticRoutes.any (·.cidr = defaultCIDR) = false ∧
        want = ⟨defaultCIDR, nextHop, "policyDst"⟩) := by
  have hempty : desiredRoutes staticRoutes "" = staticRoutes.map fun route =>
      { route with policy := if route.policy = "" then "policyDst" else route.policy } := rfl
  rw [hempty, desiredRoutes]
  split
  · next h => simp [h]
  · next h =>
    refine ⟨.inl, fun hmem => hmem.resolve_right fun hnew => h ⟨hnew.1, hnew.2.1⟩⟩

/-- A route that is desired says its policy, so that it is found again once it is there. -/
theorem is_of_mem_desiredRoutes (h : want ∈ desiredRoutes staticRoutes nextHop) :
    (⟨want.cidr, want.nextHopIP, want.policy, .reconciler⟩ : LiveRoute).is want = true := by
  have hpolicy : want.policy ≠ "" := by
    obtain hstatic | ⟨-, -, rfl⟩ := mem_desiredRoutes.mp h
    · obtain ⟨route, -, rfl⟩ := mem_map.mp hstatic
      dsimp only
      split
      · decide
      · assumption
    · exact (by decide : "policyDst" ≠ "")
  simp [LiveRoute.is, hpolicy]

theorem length_desiredDefaults (hone : (staticRoutes.filter (·.cidr = defaultCIDR)).length ≤ 1) :
    ((desiredRoutes staticRoutes nextHop).filter (·.cidr = defaultCIDR)).length ≤ 1 := by
  have hmap : ((staticRoutes.map fun route =>
      { route with policy := if route.policy = "" then "policyDst" else route.policy }).filter
        (·.cidr = defaultCIDR)).length = (staticRoutes.filter (·.cidr = defaultCIDR)).length := by
    rw [filter_map, length_map]
    rfl
  rw [desiredRoutes]
  split
  · next h =>
    have hnone : staticRoutes.filter (·.cidr = defaultCIDR) = [] := by
      simpa [filter_eq_nil_iff] using h.2
    rw [filter_append, length_append, hmap, hnone]
    simp
  · rw [hmap]
    exact hone

theorem eq_of_mem_desiredRoutes (hone : (staticRoutes.filter (·.cidr = defaultCIDR)).length ≤ 1)
    (hwant : want ∈ desiredRoutes staticRoutes nextHop) (hcidr : want.cidr = defaultCIDR)
    (hwant' : want' ∈ desiredRoutes staticRoutes nextHop) (hcidr' : want'.cidr = defaultCIDR) :
    want = want' := by
  have hlength : ((desiredRoutes staticRoutes nextHop).filter
      (·.cidr = defaultCIDR)).length ≤ 1 := length_desiredDefaults hone
  have hfilter {want : Route} (hwant : want ∈ desiredRoutes staticRoutes nextHop)
      (hcidr : want.cidr = defaultCIDR) :
      want ∈ (desiredRoutes staticRoutes nextHop).filter (·.cidr = defaultCIDR) :=
    mem_filter.mpr ⟨hwant, decide_eq_true hcidr⟩
  have hmem := hfilter hwant hcidr
  have hmem' := hfilter hwant' hcidr'
  generalize (desiredRoutes staticRoutes nextHop).filter (·.cidr = defaultCIDR) = defaults at *
  match defaults, hlength with
  | [], _ => contradiction
  | [only], _ => rw [mem_singleton.mp hmem, mem_singleton.mp hmem']

end Default

section Pass

/-- No default route is added next to one of the reconciler's that the desired one is found
for. -/
theorem length_ourDefaults_mergeRoutes
    (hdesired : (desired.filter (·.cidr = defaultCIDR)).length ≤ 1)
    (hlive : (ourDefaults live).length ≤ 1) (hfound : ourDefaults live ≠ [] →
      ∀ want ∈ desired, want.cidr = defaultCIDR → live.any (·.is want) = true) :
    (ourDefaults (mergeRoutes live desired).1).length ≤ 1 := by
  rw [mergeRoutes, ourDefaults, filter_append, ← ourDefaults, length_append,
    filter_map, length_map, filter_filter]
  by_cases hours : ourDefaults live = []
  · rw [hours, length_nil, Nat.zero_add]
    refine (List.Sublist.length_le ?_).trans hdesired
    refine monotone_filter_right desired fun want h => ?_
    simp only [Function.comp_apply, Bool.and_eq_true] at h
    exact h.1.2
  · have hnone : desired.filter (fun want => ((fun route : LiveRoute =>
        decide (route.addedBy = .reconciler) && decide (route.cidr = defaultCIDR)) ∘
          fun want => ⟨want.cidr, want.nextHopIP, want.policy, .reconciler⟩) want &&
            !live.any (·.is want)) = [] := by
      rw [filter_eq_nil_iff]
      intro want hwant h
      simp only [Function.comp_apply, Bool.and_eq_true, decide_eq_true_eq, Bool.not_eq_true'] at h
      rw [hfound hours want hwant h.1.2] at h
      exact Bool.noConfusion h.2
    rw [hnone, length_nil, Nat.add_zero]
    exact hlive

theorem length_ourDefaults_ensureVPC
    (hone : (settings.staticRoutes.filter (·.cidr = defaultCIDR)).length ≤ 1)
    (hlive : (ourDefaults s.vpc.routes).length ≤ 1)
    (hfound : ∀ route ∈ s.vpc.routes, route.addedBy = .reconciler → route.cidr = defaultCIDR →
      ∀ want ∈ desiredRoutes settings.staticRoutes nextHop, want.cidr = defaultCIDR →
        s.vpc.routes.any (·.is want) = true) :
    (ourDefaults (ensureVPC settings s nextHop applied).routes).length ≤ 1 := by
  have hdesired : ((desiredRoutes settings.staticRoutes nextHop).filter
      (·.cidr = defaultCIDR)).length ≤ 1 := length_desiredDefaults hone
  have hmerged := length_ourDefaults_mergeRoutes hdesired hlive fun hours => by
      obtain ⟨route, hroute⟩ := exists_mem_of_ne_nil _ hours
      simp only [ourDefaults, mem_filter, Bool.and_eq_true, decide_eq_true_eq] at hroute
      exact hfound route hroute.1 hroute.2.1 hroute.2.2
  rw [routes_ensureVPC]
  split
  · rw [withdrawRoute]
    split
    · exact hmerged
    · exact ((filter_sublist.filter _).length_le).trans hmerged
  · exact hmerged

/-- What a clean pass desires as the default route is found, if the reconciler has one. -/
theorem found_of_clean (hone : (settings.staticRoutes.filter (·.cidr = defaultCIDR)).length ≤ 1)
    (hrecorded : Recorded settings s) (hclean : CleanPass settings s outcome)
    (hwritten : outcome.written = true) (hroute : route ∈ s.vpc.routes)
    (hours : route.addedBy = .reconciler) (hcidr : route.cidr = defaultCIDR) {want : Route}
    (hwant : want ∈ desiredRoutes settings.staticRoutes (egressNextHop s))
    (hdefault : want.cidr = defaultCIDR) : s.vpc.routes.any (·.is want) = true := by
  obtain ⟨kept, hkept, his⟩ := hrecorded.route route hroute hours hcidr
  have hkeptCIDR : kept.cidr = defaultCIDR := (LiveRoute.cidr_of_is his).trans hcidr
  have hsame : kept = want → s.vpc.routes.any (·.is want) = true := by
    rintro rfl
    exact any_eq_true.mpr ⟨route, hroute, his⟩
  cases hsaved : outcome.saved with
  | true =>
    obtain ⟨now, hnow, hisNow⟩ | ⟨-, hnone⟩ := hclean.route hsaved route hroute hours hcidr
    · have hnowCIDR : now.cidr = defaultCIDR := (LiveRoute.cidr_of_is hisNow).trans hcidr
      obtain rfl := eq_of_mem_desiredRoutes hone hnow hnowCIDR hwant hdefault
      exact any_eq_true.mpr ⟨route, hroute, hisNow⟩
    · rw [hnone] at hwant
      refine hsame (eq_of_mem_desiredRoutes hone hkept hkeptCIDR ?_ hdefault)
      exact mem_desiredRoutes.mpr (.inl hwant)
  | false =>
    obtain ⟨live, hlive, hisLive⟩ | hvia := hclean.newRoute hwritten hsaved want hwant hdefault
    · exact any_eq_true.mpr ⟨live, hlive, hisLive⟩
    · exact hsame (eq_of_mem_desiredRoutes hone hkept hkeptCIDR hvia hdefault)

/-- A leg of the reconciler's after a clean pass whose status is saved is declared. -/
theorem mem_attachments_of_clean (hrecorded : Recorded settings s)
    (hclean : CleanPass settings s outcome) (hsaved : outcome.saved = true)
    (hleg : leg ∈ (reconcile settings s outcome).vpc.legs) (hours : leg.addedBy = .reconciler) :
    leg.name ∈ attachments s.externalPlane := by
  rw [reconcile] at hleg
  dsimp only at hleg
  split at hleg
  · obtain ⟨hlive, hstays⟩ | ⟨-, hwanted, -⟩ := mem_legs_ensureVPC.mp hleg
    · obtain hwanted | hheld := hstays (hrecorded.legs leg hlive hours)
      · exact hwanted
      · exact (hclean.legs hsaved leg hlive hours).resolve_right fun h => h.2 hheld
    · exact hwanted
  · next hwritten =>
    exact (hclean.legs hsaved leg hleg hours).resolve_right fun h => hwritten h.1

theorem exists_desired_of_clean (hrecorded : Recorded settings s)
    (hclean : CleanPass settings s outcome) (hsaved : outcome.saved = true)
    (hroute : route ∈ (reconcile settings s outcome).vpc.routes)
    (hours : route.addedBy = .reconciler) (hcidr : route.cidr = defaultCIDR) :
    ∃ want ∈ desiredRoutes settings.staticRoutes (egressNextHop s), route.is want := by
  rw [reconcile] at hroute
  dsimp only at hroute
  split at hroute
  · obtain ⟨hlive | ⟨want, hwant, -, rfl⟩, hstays⟩ := mem_routes_ensureVPC.mp hroute
    · obtain hwant | ⟨-, hnone⟩ := hclean.route hsaved route hlive hours hcidr
      · exact hwant
      · obtain ⟨kept, hkept, his⟩ := hrecorded.route route hlive hours hcidr
        obtain hdeclared | ⟨hvia, -, rfl⟩ := mem_desiredRoutes.mp hkept
        · exact ⟨kept, mem_desiredRoutes.mpr (.inl hdeclared), his⟩
        · exact absurd (LiveRoute.nextHopIP_of_is his) (hstays hnone hvia hcidr)
    · exact ⟨want, hwant, is_of_mem_desiredRoutes hwant⟩
  · next hwritten =>
    exact (hclean.route hsaved route hroute hours hcidr).resolve_right fun h => hwritten h.1

theorem mem_of_mem_reconcile (h : leg ∈ (reconcile settings s outcome).vpc.legs)
    (hother : leg.addedBy = .other) : leg ∈ s.vpc.legs := by
  rw [reconcile] at h
  dsimp only at h
  split at h
  · obtain ⟨hlive, -⟩ | ⟨hours, -⟩ := mem_legs_ensureVPC.mp h
    · exact hlive
    · rw [hours] at hother
      contradiction
  · exact h

theorem mem_routes_of_mem_reconcile (h : route ∈ (reconcile settings s outcome).vpc.routes)
    (hother : route.addedBy = .other) : route ∈ s.vpc.routes := by
  rw [reconcile] at h
  dsimp only at h
  split at h
  · obtain ⟨hlive | ⟨want, -, -, rfl⟩, -⟩ := mem_routes_ensureVPC.mp h
    · exact hlive
    · contradiction
  · exact h

theorem Recorded.reconcile (hone : (settings.staticRoutes.filter (·.cidr = defaultCIDR)).length ≤ 1)
    (hrecorded : Recorded settings s) (hclean : CleanPass settings s outcome) :
    Recorded settings (reconcile settings s outcome) := by
  have hdefaults : (ourDefaults (Network.reconcile settings s outcome).vpc.routes).length ≤ 1 := by
    rw [Network.reconcile]
    dsimp only
    split
    · next hwritten =>
      exact length_ourDefaults_ensureVPC hone hrecorded.oneDefault
        fun route hroute hours hcidr want hwant hdefault =>
          found_of_clean hone hrecorded hclean hwritten hroute hours hcidr hwant hdefault
    · exact hrecorded.oneDefault
  cases hsaved : outcome.saved with
  | true =>
    have hstatus : (Network.reconcile settings s outcome).status =
        ⟨attachments s.externalPlane, egressNextHop s⟩ := if_pos hsaved
    refine ⟨fun leg hleg hours => ?_, fun leg hleg hother => ?_, fun route hroute hours hcidr => ?_,
      fun hvia route hroute hother hcidr => ?_, hdefaults⟩
    · rw [hstatus]
      exact mem_attachments_of_clean hrecorded hclean hsaved hleg hours
    · rw [hstatus]
      exact hclean.otherLegs hsaved leg (mem_of_mem_reconcile hleg hother) hother
    · rw [hstatus]
      exact exists_desired_of_clean hrecorded hclean hsaved hroute hours hcidr
    · rw [hstatus] at hvia ⊢
      exact hclean.otherRoutes hsaved hvia route (mem_routes_of_mem_reconcile hroute hother) hother
        hcidr
  | false =>
    have hstatus : (Network.reconcile settings s outcome).status = s.status :=
      if_neg (by rw [hsaved]; decide)
    refine ⟨fun leg hleg hours => ?_, fun leg hleg hother => ?_, fun route hroute hours hcidr => ?_,
      fun hvia route hroute hother hcidr => ?_, hdefaults⟩
    · rw [hstatus]
      rw [Network.reconcile] at hleg
      dsimp only at hleg
      split at hleg
      · next hwritten =>
        obtain ⟨hlive, -⟩ | ⟨-, hwanted, hnot⟩ := mem_legs_ensureVPC.mp hleg
        · exact hrecorded.legs leg hlive hours
        · exact (hclean.newLegs hwritten hsaved leg.name hwanted).resolve_left hnot
      · exact hrecorded.legs leg hleg hours
    · rw [hstatus]
      exact hrecorded.otherLegs leg (mem_of_mem_reconcile hleg hother) hother
    · rw [hstatus]
      rw [Network.reconcile] at hroute
      dsimp only at hroute
      split at hroute
      · next hwritten =>
        obtain ⟨hlive | ⟨want, hwant, hnot, rfl⟩, -⟩ := mem_routes_ensureVPC.mp hroute
        · exact hrecorded.route route hlive hours hcidr
        · obtain ⟨live, hlive, his⟩ | hvia := hclean.newRoute hwritten hsaved want hwant hcidr
          · exact absurd his (any_eq_false.mp hnot live hlive)
          · exact ⟨want, hvia, is_of_mem_desiredRoutes hwant⟩
      · exact hrecorded.route route hroute hours hcidr
    · rw [hstatus] at hvia ⊢
      exact hrecorded.otherRoutes hvia route (mem_routes_of_mem_reconcile hroute hother) hother
        hcidr

end Pass

theorem Fresh.recorded (h : Fresh s) : Recorded settings s := by
  have hours {route : LiveRoute} (hroute : route ∈ s.vpc.routes)
      (hours : route.addedBy = .reconciler) :
      False := by
    rw [h.routes route hroute] at hours
    contradiction
  refine ⟨fun leg hleg hleg' => ?_, fun leg _ _ => ?_,
    fun route hroute h _ => (hours hroute h).elim,
    fun hvia => ?_, ?_⟩
  · rw [h.legs leg hleg] at hleg'
    contradiction
  · rw [h.status]
    exact not_mem_nil
  · rw [h.status] at hvia
    exact absurd rfl hvia
  · have hnone : ourDefaults s.vpc.routes = [] := by
      rw [ourDefaults, filter_eq_nil_iff]
      intro route hroute hmem
      simp only [Bool.and_eq_true, decide_eq_true_eq] at hmem
      exact hours hroute hmem.1
    rw [hnone]
    exact Nat.zero_le 1

section

variable {event : Event} (hone : (settings.staticRoutes.filter (·.cidr = defaultCIDR)).length ≤ 1)
  (hrecorded : Recorded settings s) (hclean : Clean settings s event)

include hone hrecorded hclean

theorem Recorded.step : Recorded settings (step settings s event) := by
  cases event with
  | declare plane => exact ⟨hrecorded.1, hrecorded.2, hrecorded.3, hrecorded.4, hrecorded.5⟩
  | gateway subnet gateway =>
    exact ⟨hrecorded.1, hrecorded.2, hrecorded.3, hrecorded.4, hrecorded.5⟩
  | tenants declared => exact ⟨hrecorded.1, hrecorded.2, hrecorded.3, hrecorded.4, hrecorded.5⟩
  | appendLeg name =>
    refine ⟨fun leg hleg hours => ?_, fun leg hleg hother => ?_, hrecorded.route,
      hrecorded.otherRoutes, hrecorded.oneDefault⟩
    · obtain hlive | hnew := mem_append.mp hleg
      · exact hrecorded.legs leg hlive hours
      · rw [mem_singleton.mp hnew] at hours
        contradiction
    · obtain hlive | hnew := mem_append.mp hleg
      · exact hrecorded.otherLegs leg hlive hother
      · rw [mem_singleton.mp hnew]
        exact hclean
  | appendRoute cidr nextHopIP policy =>
    refine ⟨hrecorded.legs, hrecorded.otherLegs, fun route hroute hours hcidr => ?_,
      fun hvia route hroute hother hcidr => ?_, ?_⟩
    · obtain hlive | hnew := mem_append.mp hroute
      · exact hrecorded.route route hlive hours hcidr
      · rw [mem_singleton.mp hnew] at hours
        contradiction
    · obtain hlive | hnew := mem_append.mp hroute
      · exact hrecorded.otherRoutes hvia route hlive hother hcidr
      · rw [mem_singleton.mp hnew] at hcidr ⊢
        exact hclean hcidr hvia
    · have hsame : ourDefaults (s.vpc.routes ++ [⟨cidr, nextHopIP, policy, .other⟩]) =
          ourDefaults s.vpc.routes := by
        simp [ourDefaults]
      exact hsame ▸ hrecorded.oneDefault
  | pass outcome => exact hrecorded.reconcile hone hclean

theorem Recorded.correct : Correct settings s event (Network.step settings s event) := by
  have hafter := hrecorded.step hone hclean
  have hdone : event = .pass .done → TakenBack settings (Network.step settings s event) := by
    rintro rfl
    exact ⟨fun leg hleg hours => .inl (hafter.legs leg hleg hours), hafter.route⟩
  have hdefault : event = .pass .done →
      (ourDefaults (Network.step settings s event).vpc.routes).length ≤ 1 := fun _ =>
    hafter.oneDefault
  refine ⟨?_, ?_, hdone, hdefault⟩
  · cases event with
    | declare | gateway | tenants | appendRoute => exact prefix_refl _
    | appendLeg name =>
      rw [Network.step, Network.otherLegs, Network.otherLegs, filter_append]
      exact prefix_append _ _
    | pass outcome =>
      rw [Network.step, Network.reconcile]
      dsimp only
      split
      · rw [otherLegs_ensureVPC hrecorded.otherLegs]
      · exact prefix_refl _
  · cases event with
    | declare | gateway | tenants | appendLeg => exact prefix_refl _
    | appendRoute cidr nextHopIP policy =>
      rw [Network.step, Network.otherRoutes, Network.otherRoutes, filter_append]
      exact prefix_append _ _
    | pass outcome =>
      rw [Network.step, Network.reconcile]
      dsimp only
      split
      · rw [otherRoutes_ensureVPC hrecorded.otherRoutes]
      · exact prefix_refl _

end

/-- In every run whose steps are clean, every step is correct. -/
theorem run_correct (hone : (settings.staticRoutes.filter (·.cidr = defaultCIDR)).length ≤ 1)
    (hfresh : Fresh s)
    (hrun : Machine.Run (fun s event => some (step settings s event)) (Clean settings) s t)
    {event : Event} (hclean : Clean settings t event) :
    Correct settings t event (step settings t event) := by
  have hrecorded : Recorded settings t := by
    refine hrun.invariant hfresh.recorded fun ht hcond hnext => ?_
    obtain rfl := Option.some.inj hnext
    exact ht.step hone hcond
  exact hrecorded.correct hone hclean

/-- A network that leaves through one subnet. -/
def leaving (outcomes : List Outcome) : State :=
  let events : List Event := [.declare (some ⟨["external"], "external"⟩),
    .gateway "external" "10.199.4.254", .pass .done, .declare none]
  (events ++ outcomes.map Event.pass).foldl (step ⟨[], ""⟩) ⟨none, ∅, false, {}, ⟨[], []⟩⟩

theorem run_correct_leaving :
    Correct ⟨[], ""⟩ (leaving []) (.pass .done) (step ⟨[], ""⟩ (leaving []) (.pass .done)) := by
  have hfresh : Fresh ⟨none, ∅, false, {}, ⟨[], []⟩⟩ := ⟨rfl, by simp, by simp⟩
  have hbuilt : CleanPass ⟨[], ""⟩ ⟨some ⟨["external"], "external"⟩,
      AList.insert "external" "10.199.4.254" ∅, false, {}, ⟨[], []⟩⟩ .done := by
    constructor <;> decide
  have hleft : CleanPass ⟨[], ""⟩ (leaving []) .done := by
    constructor <;> decide +kernel
  have hrun : Machine.Run (fun s event => some (step ⟨[], ""⟩ s event)) (Clean ⟨[], ""⟩)
      ⟨none, ∅, false, {}, ⟨[], []⟩⟩ (leaving []) :=
    .step (i := .declare none) (.step (i := .pass .done)
      (.step (i := .gateway "external" "10.199.4.254")
        (.step (i := .declare (some ⟨["external"], "external"⟩)) .refl trivial rfl) trivial rfl)
      hbuilt rfl) trivial rfl
  exact run_correct (by decide) hfresh hrun hleft

/-- A write fails, its record is saved, and what was to be taken back stays. -/
theorem not_run_correct : ¬∀ (settings : Settings) (s t : State) (event : Event),
      (settings.staticRoutes.filter (·.cidr = defaultCIDR)).length ≤ 1 → Fresh s →
      Machine.Run (fun s event => some (step settings s event)) (fun _ _ => True) s t →
        Correct settings t event (step settings t event) := by
  intro hall
  have hfresh : Fresh ⟨none, ∅, false, {}, ⟨[], []⟩⟩ := ⟨rfl, by simp, by simp⟩
  have hrun : Machine.Run (fun s event => some (step ⟨[], ""⟩ s event)) (fun _ _ => True)
      ⟨none, ∅, false, {}, ⟨[], []⟩⟩ (leaving [.writeFailed true]) :=
    .step (i := .pass (.writeFailed true)) (.step (i := .declare none) (.step (i := .pass .done)
      (.step (i := .gateway "external" "10.199.4.254")
        (.step (i := .declare (some ⟨["external"], "external"⟩)) .refl trivial rfl) trivial rfl)
      trivial rfl) trivial rfl) trivial rfl
  have hcorrect := hall ⟨[], ""⟩ _ _ (.pass .done) (by decide) hfresh hrun
  have htaken := (hcorrect.takenBack rfl).1 ⟨"external", .reconciler⟩ (by decide +kernel) rfl
  revert htaken
  decide +kernel

end Network
