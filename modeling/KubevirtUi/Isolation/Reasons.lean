import KubevirtUi.Isolation.History

/-!
# No allow outlives its reason

Once nothing else happens, a second pass changes nothing. What a network was given as shared
outside the supernet keeps passing, and inside the supernet an allow is there because of a
peering: the first pass after the peering has gone takes it away.
-/

namespace Isolation

open Acl Go.Netip Machine

section Reasons

variable (parse6 : String → Option (Block 128)) (supernet : String) (mgmt : List String)

/-- Some peering of the subnet's VPC is a reason to allow the prefix. -/
def Justified (st : State) (s : Subnet) (cidr : String) : Prop :=
  ∃ v ∈ st.vpcs, v.name = s.vpc ∧
    ∃ t ∈ st.subnets, t.isTenant = true ∧ t.vpc ∈ v.remotes ∧ t.cidrBlock = cidr

/-- Nothing more changes, the prefixes that were given as shared pass if they last, and those that
need a reason are allowed only while there is one. -/
structure Settles (lasts needsReason : String → Prop) (st : State) : Prop where
  fixpoint : (st.afterPass parse6 supernet mgmt).afterPass parse6 supernet mgmt =
    st.afterPass parse6 supernet mgmt
  shared : ∀ s ∈ st.subnets, ∀ c ∈ st.given s.name, lasts c →
    ∀ (x : BitVec 32) (d : String), d = "from-lport" ∨ d = "to-lport" →
      inCIDR (.v4 x) c = true → ¬ (d = "to-lport" ∧ mgmt.any (inCIDR (.v4 x)) = true) →
        evaluate s.acls (.v4 x) d = .allowed
  reasons : ∀ s ∈ (st.afterPass parse6 supernet mgmt).subnets, s.Maintained →
    ∀ c, needsReason c → c ≠ s.cidrBlock → ¬ Justified st s c →
      ∀ rule ∈ s.acls, rule.action ≠ "drop" → ¬ Compares rule c

end Reasons

section Lasting

variable {parse6 : String → Option (Block 128)} {supernet : String} {mgmt : List String}
  {st : State} {s : Subnet}

theorem sound_of_run (hsupernet : supernet = "" ∨ IsIPv4 supernet) (hmgmt : ∀ c ∈ mgmt, IsIPv4 c)
    (hrun : Run (step parse6 supernet mgmt) (Admissible parse6 supernet mgmt) .empty st) :
    Sound supernet mgmt st :=
  hrun.invariant (sound_empty hsupernet hmgmt) fun hsound hadm hstep => hsound.step hadm hstep

namespace Sound

/-- A second pass goes by the same census and finds every subnet settled. -/
theorem afterPass_afterPass (h : Sound supernet mgmt st)
    (hlimit : ∀ s ∈ st.subnets, Limited parse6 (st.reading supernet mgmt) s) :
    (st.afterPass parse6 supernet mgmt).afterPass parse6 supernet mgmt =
      st.afterPass parse6 supernet mgmt := by
  obtain ⟨hmap, hafter⟩ := h.afterPass hlimit
  have hsame : SameCensus (st.reading supernet mgmt)
      ((st.afterPass parse6 supernet mgmt).reading supernet mgmt) := by
    rw [State.reading, State.reading, hmap]
    exact sameCensus_map (exists_settle parse6 _)
  have hsettled : ∀ t ∈ (st.afterPass parse6 supernet mgmt).subnets,
      settle parse6 ((st.afterPass parse6 supernet mgmt).reading supernet mgmt) t = t := by
    intro t ht
    rw [hmap] at ht
    obtain ⟨s, hs, rfl⟩ := List.mem_map.mp ht
    rw [hsame.settle_eq]
    exact h.wellFormed.settle_settle hs (h.written s hs) (hlimit s hs)
  have hsubnets := afterPass_eq_self hsettled
  conv_lhs => rw [State.afterPass, hsubnets]

/-- What was given as shared passes where it stands, and everywhere on an open subnet. -/
theorem evaluate_shared (h : Sound supernet mgmt st) (hs : s ∈ st.subnets) {c : String}
    (hc : c ∈ st.given s.name) (hout : ¬ Inside c supernet) {x : BitVec 32} {d : String}
    (hd : d = "from-lport" ∨ d = "to-lport") (hx : inCIDR (.v4 x) c = true)
    (hno : ¬ (d = "to-lport" ∧ mgmt.any (inCIDR (.v4 x)) = true)) :
    evaluate s.acls (.v4 x) d = .allowed := by
  cases hopted : isolationOptedOut s with
  | false =>
    exact (h.stands s hs hopted c hc hout).evaluate (h.given s hs c hc) h.wellFormed.mgmt
      (h.written s hs) hd hx hno
  | true =>
    refine evaluate_eq_allowed_of_forall_not fun q hq => ?_
    obtain ⟨rule, hrule, hvote⟩ := hq
    have hdeny := (hasVote_buildMgmtDenyAcls h.wellFormed.mgmt).mp
      ⟨rule, h.opened s hs hopted rule hrule, hvote⟩
    exact hno ⟨hdeny.1, hdeny.2.1⟩

theorem not_compares_of_not_justified (h : Sound supernet mgmt st)
    (hlimit : ∀ s ∈ st.subnets, Limited parse6 (st.reading supernet mgmt) s)
    (hs : s ∈ (st.afterPass parse6 supernet mgmt).subnets) (hmaintained : s.Maintained) {c : String}
    (hinside : Inside c supernet) (hself : c ≠ s.cidrBlock) (hno : ¬ Justified st s c) {rule : Rule}
    (hrule : rule ∈ s.acls) (hallow : rule.action ≠ "drop") : ¬ Compares rule c := by
  intro hcompares
  obtain ⟨hmap, -⟩ := h.afterPass hlimit
  rw [hmap] at hs
  obtain ⟨before, hbefore, rfl⟩ := List.mem_map.mp hs
  obtain ⟨acls, hacls⟩ := exists_settle parse6 (st.reading supernet mgmt) before
  rw [hacls] at hmaintained hself hno
  have hkeeps : before.Maintained := ⟨hmaintained.1, hmaintained.2, hmaintained.3, hmaintained.4⟩
  obtain ⟨shared, hshared, hread⟩ := h.wellFormed.exists_shared parse6 (h.written before hbefore)
  have hlegible : Legible (st.reading supernet mgmt) before shared :=
    h.wellFormed.legible_of_written hbefore hkeeps.tenant (h.written before hbefore) hread
  have hsome : ¬ (before.cidrBlock = "" ∨ (st.reading supernet mgmt).targets before = []) :=
    not_or.mpr ⟨hlegible.own.trimmed.2, targets_ne_nil (ne_empty_of_inside hcompares.1 hinside)⟩
  rw [hkeeps.settle_rules hshared hsome (hlimit before hbefore hkeeps shared hshared)] at hrule
  obtain ⟨hown, -⟩ | hexception := hlegible.of_compares hrule hallow hcompares
  · exact hself hown
  · obtain hmem | hpeered := List.mem_append.mp (mem_sortedSet.mp hexception)
    · exact ((hread c).mp hmem).2 hinside
    · obtain ⟨v, hv, hname, remote, hremote, hcidr⟩ := (mem_peered h.wellFormed.vpcNames).mp hpeered
      obtain ⟨t, ht, rfl, -, rfl⟩ := mem_cidrsOf.mp hcidr
      obtain ⟨ht, htenant⟩ := List.mem_filter.mp ht
      exact hno ⟨v, hv, hname, t, ht, htenant, hremote, rfl⟩

end Sound

/-- In every run, as long as the exceptions stay few. -/
theorem settles (hsupernet : supernet = "" ∨ IsIPv4 supernet) (hmgmt : ∀ c ∈ mgmt, IsIPv4 c)
    (hrun : Run (step parse6 supernet mgmt) (Admissible parse6 supernet mgmt) .empty st)
    (hlimit : ∀ s ∈ st.subnets, Limited parse6 (st.reading supernet mgmt) s) :
    Settles parse6 supernet mgmt (¬ Inside · supernet) (Inside · supernet) st := by
  have hsound := sound_of_run hsupernet hmgmt hrun
  exact {
    fixpoint := hsound.afterPass_afterPass hlimit
    shared := fun s hs c hc hout x d hd hx hno => hsound.evaluate_shared hs hc hout hd hx hno
    reasons := fun s hs hmaintained c hinside hself hno rule hrule hallow =>
      hsound.not_compares_of_not_justified hlimit hs hmaintained hinside hself hno hrule hallow }

end Lasting

/-- Two tenants, one of which has a shared network; a peering of theirs comes and goes. -/
def townEvents : List Event :=
  [.create ⟨"db", "10.16.2.0/24", "", true, []⟩,
    .create ⟨"web", "10.16.1.0/24", "", true, ["10.200.0.0/24"]⟩, .pass,
    .link "web" "db", .link "db" "web", .pass, .unlink "web" "db", .unlink "db" "web"]

theorem settles_town : ∃ t, Run (step (fun _ => none) "10.16.0.0/12" ["192.168.196.0/24"])
    (Admissible (fun _ => none) "10.16.0.0/12" ["192.168.196.0/24"]) .empty t ∧
      Settles (fun _ => none) "10.16.0.0/12" ["192.168.196.0/24"]
        (¬ Inside · "10.16.0.0/12") (Inside · "10.16.0.0/12") t := by
  have hplay : (play (step (fun _ => none) "10.16.0.0/12" ["192.168.196.0/24"])
      (Admissible (fun _ => none) "10.16.0.0/12" ["192.168.196.0/24"]) .empty townEvents).any
      (fun t => decide (∀ s ∈ t.subnets, Limited (fun _ => none)
        (t.reading "10.16.0.0/12" ["192.168.196.0/24"]) s)) = true := by decide +kernel
  obtain ⟨t, hrun, hlimit⟩ := exists_run_of_play _ hplay
  exact ⟨t, hrun, settles (.inr (by decide)) (by decide) hrun (of_decide_eq_true hlimit)⟩

/-- A network is given another tenant's prefix as shared, and so is peered with it; the peering is
removed. -/
def borrowedEvents : List Event :=
  [.create ⟨"db", "10.16.2.0/24", "", true, []⟩,
    .create ⟨"web", "10.16.1.0/24", "", true, ["10.16.2.0/24"]⟩, .pass, .unlink "web" "db",
    .unlink "db" "web", .pass]

/-- Inside the supernet a shared prefix lasts no longer than the peering. -/
theorem not_settles_borrowed : ∃ t, Run (step (fun _ => none) "10.16.0.0/12" [])
      (Admissible (fun _ => none) "10.16.0.0/12" []) .empty t ∧
    ¬ Settles (fun _ => none) "10.16.0.0/12" [] (fun _ => True) (fun _ => True) t := by
  have hplay : (play (step (fun _ => none) "10.16.0.0/12" [])
      (Admissible (fun _ => none) "10.16.0.0/12" []) .empty borrowedEvents).any
      (fun t => t.subnets.any fun s => (t.given s.name).contains "10.16.2.0/24" &&
        decide (evaluate s.acls (.v4 0x0A100205) "from-lport" = .dropped)) = true := by
    decide +kernel
  obtain ⟨t, hrun, hdropped⟩ := exists_run_of_play _ hplay
  refine ⟨t, hrun, fun h => ?_⟩
  obtain ⟨s, hs, hboth⟩ := List.any_eq_true.mp hdropped
  obtain ⟨hgiven, hverdict⟩ := Bool.and_eq_true_iff.mp hboth
  have hallowed := h.shared s hs _ (List.contains_iff_mem.mp hgiven) trivial 0x0A100205
    "from-lport" (.inl rfl) (by decide) (by decide)
  rw [of_decide_eq_true hverdict] at hallowed
  cases hallowed

end Isolation
