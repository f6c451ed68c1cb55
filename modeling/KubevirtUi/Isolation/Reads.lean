import KubevirtUi.Isolation.Settle

/-!
# A pass that cannot read everything

The pass lists the nodes, the Subnets and the Vpcs. Without the Subnets it writes nothing. Where the
nodes or the Vpcs are missing it goes on as if there were none of them, and the rules that it writes
are those of a cluster without a management plane, or without peerings.
-/

namespace Isolation

open Acl List

/-- A node, and its addresses with their types. -/
structure Node where
  addresses : List (String × String)

/-- What the pass takes from its environment. -/
structure Settings where
  supernet : String
  b3Enabled : Bool
  mgmtCIDR : String

/-- What the pass reads. -/
structure Cluster where
  subnets : List Subnet
  vpcs : List Vpc
  nodes : List Node

/-- Which of the lists cannot be read. -/
structure Failed where
  subnets : Bool
  vpcs : Bool
  nodes : Bool

def Failed.none : Failed := ⟨false, false, false⟩

def unlessFailed {α : Type} (failed : Bool) (a : α) : Option α := if failed then .none else some a

/-- The prefixes that are configured, between commas. -/
def explicitSources (mgmtCIDR : String) : List String :=
  (((mgmtCIDR.toList.splitOn ',').map Python.strip).filter (· ≠ [])).map String.ofList

/-- What is configured, or else the address of each node. -/
def mgmtDenySources (mgmtCIDR : String) (nodes : Option (List Node)) : List String :=
  let explicit := explicitSources mgmtCIDR
  if explicit ≠ [] then explicit
  else match nodes with
  | none => []
  | some nodes =>
    let addresses := nodes.flatMap fun node =>
      (node.addresses.filter fun (kind, address) => kind = "InternalIP" && address ≠ "").map (·.2)
    (sortedSet addresses).map (· ++ "/32")

/-- What the pass goes by, with what it could read. -/
def readSome (cfg : Settings) (subnets : List Subnet) (vpcs : Option (List Vpc))
    (nodes : Option (List Node)) : Reading :=
  let tenants := subnets.filter (·.isTenant)
  { supernet := cfg.supernet
    mgmt := if cfg.b3Enabled then mgmtDenySources cfg.mgmtCIDR nodes else []
    tenants := tenants
    peered := match vpcs with
      | some vpcs => peered vpcs tenants
      -- the failure is logged, and nobody is peered with anybody
      | none => fun _ => [] }

def Cluster.reading (cfg : Settings) (c : Cluster) (f : Failed) : Reading :=
  readSome cfg c.subnets (unlessFailed f.vpcs c.vpcs) (unlessFailed f.nodes c.nodes)

/-- The subnets after a pass. -/
def reconcileIsolationAcls (parse6 : String → Option (Block 128)) (cfg : Settings) (c : Cluster)
    (f : Failed) : List Subnet :=
  match unlessFailed f.subnets c.subnets with
  | none => c.subnets
  | some subnets => afterPass parse6 (c.reading cfg f) subnets

/-- The second reading is the first one, perhaps without the management prefixes and perhaps
without the peerings. -/
structure Lacks (r r' : Reading) : Prop where
  supernet : r'.supernet = r.supernet
  tenants : r'.tenants = r.tenants
  mgmt : r'.mgmt = r.mgmt ∨ r'.mgmt = []
  peered : r'.peered = r.peered ∨ ∀ vpc, r'.peered vpc = []

/-- What is lacking makes no difference to the subnet. Where it has somebody to be isolated from,
no prefix of a peer and no management prefix is lost, unless the list that stands there already is
without them; elsewhere there is no drop to be taken away, or each management prefix has a rule of
its own that is none. -/
def Harmless (parse6 : String → Option (Block 128)) (r r' : Reading) (s : Subnet) : Prop :=
  s.Maintained → ∀ shared, sharedFrom parse6 r.supernet s.acls = some shared →
    if s.cidrBlock = "" ∨ r.targets s = [] then
      (∀ m ∈ r.mgmt, m ∈ r'.mgmt) ∨ (∀ rule ∈ s.acls, rule.action ≠ "drop") ∨
        ∀ deny ∈ buildMgmtDenyAcls r.mgmt,
          (∃ rule ∈ s.acls, rule.action ≠ "drop" ∧ aboutSame rule deny = true) ∧
            ∀ rule ∈ s.acls, aboutSame rule deny = true → rule.action ≠ "drop"
    else
      ((∀ c ∈ r.peered s.vpc, c ∈ shared ∨ c ∈ r'.peered s.vpc) ∧ ∀ m ∈ r.mgmt, m ∈ r'.mgmt) ∨
        s.acls = rulePair "allow-related" s.cidrBlock isolationPriorityOwn ++
          sharedAcls (sortedSet (shared ++ r'.peered s.vpc)) ++ dropAcls (r.targets s) ++
            buildMgmtDenyAcls r'.mgmt

/-- The pass gets by the subnet: the prefixes that its list allows can be compared with the
supernet, and there are numbers for all of its exceptions. -/
def Feasible (parse6 : String → Option (Block 128)) (r : Reading) (s : Subnet) : Prop :=
  s.Maintained → ∃ shared, sharedFrom parse6 r.supernet s.acls = some shared ∧
    (s.cidrBlock = "" ∨ r.targets s = [] ∨ r.fits s shared = true)

/-- The list that stands there is the one that the reading asks for. -/
def Standing (parse6 : String → Option (Block 128)) (r : Reading) (s : Subnet) : Prop :=
  s.isTenant = true → s.aclOwner ≠ aclOwnerOperator →
    if (vpcRole s).isSome then
      ∀ rule ∈ s.acls, rule.priority ∉ [isolationPriorityDrop, mgmtDenyPriority]
    else isolationOptedOut s = false →
      ∀ shared, sharedFrom parse6 r.supernet s.acls = some shared →
        if s.cidrBlock = "" ∨ r.targets s = [] then
          (∀ rule ∈ s.acls, rule.action = "drop" →
            (buildMgmtDenyAcls r.mgmt).any (aboutSame rule) = true) ∧
              ∀ deny ∈ buildMgmtDenyAcls r.mgmt, s.acls.any (aboutSame deny) = true
        else s.acls = rulePair "allow-related" s.cidrBlock isolationPriorityOwn ++
          sharedAcls (sortedSet (shared ++ r.peered s.vpc)) ++ dropAcls (r.targets s) ++
            buildMgmtDenyAcls r.mgmt

variable {parse6 : String → Option (Block 128)} {r : Reading} {s : Subnet} {subnets : List Subnet}

section Lacks

variable {r' : Reading} {shared mgmt : List String} {drops : List String} {acls : List Rule}
  {rule : Rule} {c : String}

theorem Lacks.peers (h : Lacks r r') (s : Subnet) : r'.peers s = r.peers s := by
  rw [Reading.peers, Reading.peers, h.tenants]

theorem Lacks.targets (h : Lacks r r') (s : Subnet) : r'.targets s = r.targets s := by
  rw [Reading.targets, Reading.targets, h.supernet, h.peers]

theorem Lacks.mem_exceptions (h : Lacks r r') (hc : c ∈ r'.exceptions s shared) :
    c ∈ r.exceptions s shared := by
  rw [Reading.exceptions, mem_sortedSet, mem_append] at hc ⊢
  refine hc.imp_right fun hpeered => ?_
  obtain hsame | hnone := h.peered
  · rwa [← hsame]
  · rw [hnone] at hpeered
    cases hpeered

/-- What the outgoing allows say. -/
def allowedTo (acls : List Rule) : List String :=
  acls.filterMap fun rule =>
    if rule.action = "allow-related" ∧ rule.direction = "from-lport" then some rule.matchExpr
    else none

theorem allowedTo_rulePair (c : String) (n : Int) :
    allowedTo (rulePair "allow-related" c n) = ["ip4.dst == " ++ c] := by
  simp [allowedTo, rulePair]

theorem allowedTo_sharedAcls (cidrs : List String) :
    allowedTo (sharedAcls cidrs) = (cidrs.filter (· ≠ "")).map ("ip4.dst == " ++ ·) := by
  have hpair : (fun p : String × Nat => (rulePair "allow-related" p.1
      (isolationPriorityShared + p.2)).filterMap fun rule =>
        if rule.action = "allow-related" ∧ rule.direction = "from-lport" then
          some rule.matchExpr else none) = fun p => ["ip4.dst == " ++ p.1] := by
    funext p
    exact allowedTo_rulePair p.1 _
  have htexts : (cidrs.filter (· ≠ "")).zipIdx.map (fun p => "ip4.dst == " ++ p.1) =
      ((cidrs.filter (· ≠ "")).zipIdx.map Prod.fst).map ("ip4.dst == " ++ ·) := by
    rw [map_map]
    rfl
  rw [allowedTo, sharedAcls, filterMap_flatMap, hpair, ← map_eq_flatMap, htexts,
    zipIdx_map_fst]

theorem of_mem_drops (h : rule ∈ dropAcls drops ++ buildMgmtDenyAcls mgmt) :
    rule.action = "drop" := by
  obtain hdrop | hdeny := mem_append.mp h
  · obtain ⟨c, -, hpair⟩ := mem_flatMap.mp hdrop
    exact (of_mem_rulePair hpair).1
  · obtain ⟨_, _, _, rfl⟩ := mem_buildMgmtDenyAcls.mp hdeny
    rfl

theorem of_mem_allows {own : String} {cidrs : List String}
    (h : rule ∈ rulePair "allow-related" own isolationPriorityOwn ++ sharedAcls cidrs) :
    rule.action = "allow-related" := by
  obtain hown | hshared := mem_append.mp h
  · exact (of_mem_rulePair hown).1
  · obtain ⟨k, c, -, hpair⟩ := mem_sharedAcls.mp hshared
    exact (of_mem_rulePair hpair).1

theorem allowedTo_rules : allowedTo (r.rules s shared) = ("ip4.dst == " ++ s.cidrBlock) ::
    ((r.exceptions s shared).filter (· ≠ "")).map ("ip4.dst == " ++ ·) := by
  have hdrops : allowedTo (dropAcls (r.targets s) ++ buildMgmtDenyAcls r.mgmt) = [] := by
    refine filterMap_eq_nil_iff.mpr fun rule hrule => if_neg fun hallow => ?_
    rw [of_mem_drops hrule] at hallow
    exact absurd hallow.1 (by decide)
  calc allowedTo (r.rules s shared)
      = allowedTo (rulePair "allow-related" s.cidrBlock isolationPriorityOwn) ++
          allowedTo (sharedAcls (r.exceptions s shared)) ++
          allowedTo (dropAcls (r.targets s) ++ buildMgmtDenyAcls r.mgmt) := by
        simp only [allowedTo, Reading.rules, filterMap_append, append_assoc]
    _ = _ := by
        rw [hdrops, allowedTo_rulePair, allowedTo_sharedAcls, append_nil, singleton_append]

theorem drops_rules : (r.rules s shared).filter (·.action = "drop") =
    dropAcls (r.targets s) ++ buildMgmtDenyAcls r.mgmt := by
  have hallows : (rulePair "allow-related" s.cidrBlock isolationPriorityOwn ++
      sharedAcls (r.exceptions s shared)).filter (·.action = "drop") = [] := by
    refine filter_eq_nil_iff.mpr fun rule hrule hdrop => ?_
    rw [of_mem_allows hrule] at hdrop
    exact absurd hdrop (by decide)
  have hdrops : (dropAcls (r.targets s) ++ buildMgmtDenyAcls r.mgmt).filter
      (·.action = "drop") = dropAcls (r.targets s) ++ buildMgmtDenyAcls r.mgmt :=
    filter_eq_self.mpr fun rule hrule => decide_eq_true (of_mem_drops hrule)
  rw [Reading.rules, append_assoc, filter_append, hallows, hdrops, nil_append]

/-- The two lists are the same if no exception and no management prefix is lost. -/
theorem Lacks.rules_eq_iff (h : Lacks r r') (hpeered : ∀ c ∈ r.peered s.vpc, c ≠ "")
    (hmgmt : ∀ m ∈ r.mgmt, m ≠ "") : r'.rules s shared = r.rules s shared ↔
      (∀ c ∈ r.peered s.vpc, c ∈ shared ∨ c ∈ r'.peered s.vpc) ∧ ∀ m ∈ r.mgmt, m ∈ r'.mgmt := by
  constructor
  · intro heq
    constructor
    · intro c hc
      have htexts := congrArg allowedTo heq
      rw [allowedTo_rules, allowedTo_rules, List.cons.injEq] at htexts
      have hmem : "ip4.dst == " ++ c ∈
          ((r'.exceptions s shared).filter (· ≠ "")).map ("ip4.dst == " ++ ·) := by
        rw [htexts.2]
        refine mem_map_of_mem (mem_filter.mpr ⟨?_, decide_eq_true (hpeered c hc)⟩)
        exact mem_sortedSet.mpr (mem_append_right _ hc)
      obtain ⟨c', hc', htext⟩ := mem_map.mp hmem
      obtain rfl := (String.append_right_inj _).mp htext
      exact mem_append.mp (mem_sortedSet.mp (mem_of_mem_filter hc'))
    · intro m hm
      have hdrops := congrArg (List.filter (·.action = "drop")) heq
      rw [drops_rules, drops_rules, h.targets, append_cancel_left_eq] at hdrops
      have hdeny := mem_buildMgmtDenyAcls.mpr ⟨m, hm, hmgmt m hm, rfl⟩
      rw [← hdrops] at hdeny
      obtain ⟨m', hm', -, htext⟩ := mem_buildMgmtDenyAcls.mp hdeny
      obtain rfl := (String.append_right_inj _).mp (congrArg (·.matchExpr) htext)
      exact hm'
  · rintro ⟨hkept, hdeny⟩
    have hexceptions : r'.exceptions s shared = r.exceptions s shared := by
      refine sortedSet_eq_iff.mpr fun c => ?_
      constructor
      · intro hc
        have hmem := h.mem_exceptions (mem_sortedSet.mpr hc)
        exact mem_sortedSet.mp hmem
      · intro hc
        obtain hshared | hpeer := mem_append.mp hc
        · exact mem_append_left _ hshared
        · exact mem_append.mpr (hkept c hpeer)
    have hsame : r'.mgmt = r.mgmt := by
      obtain hsame | hnone := h.mgmt
      · exact hsame
      · rw [hnone] at hdeny ⊢
        exact (eq_nil_iff_forall_not_mem.mpr fun m hm =>
          not_mem_nil (hdeny m hm)).symm
    rw [Reading.rules, Reading.rules, hexceptions, hsame, h.targets]

theorem retire_nil : retire [] acls = acls.filter (·.action ≠ "drop") := by
  simp [retire, buildMgmtDenyAcls]

/-- The drops that went would have been the management deny, and there were none of it. -/
theorem retire_nil_eq_iff : retire [] acls = retire mgmt acls ↔ ∀ deny ∈ buildMgmtDenyAcls mgmt,
      (∃ rule ∈ acls, rule.action ≠ "drop" ∧ aboutSame rule deny = true) ∧
        ∀ rule ∈ acls, aboutSame rule deny = true → rule.action ≠ "drop" := by
  rw [retire_nil]
  constructor
  · intro heq deny hdeny
    obtain ⟨rule, hrule, -, hsame⟩ := exists_mem_retire acls hdeny
    rw [← heq, mem_filter, decide_eq_true_eq] at hrule
    refine ⟨⟨rule, hrule.1, hrule.2, hsame⟩, fun other hother hsame' hdrop => ?_⟩
    have hkept : other ∈ retire mgmt acls := by
      simp only [retire, mem_append, mem_filter]
      exact .inl ⟨hother, by simpa using .inr ⟨deny, hdeny, hsame'⟩⟩
    rw [← heq, mem_filter, decide_eq_true_eq] at hkept
    exact hkept.2 hdrop
  · intro h
    have hkept : (acls.filter fun a => a.action ≠ "drop" ||
        (buildMgmtDenyAcls mgmt).any (aboutSame a)) = acls.filter (·.action ≠ "drop") := by
      refine filter_congr fun rule hrule => ?_
      by_cases hdrop : rule.action = "drop"
      · have hnone : (buildMgmtDenyAcls mgmt).any (aboutSame rule) = false := by
          rw [any_eq_false]
          exact fun deny hdeny hsame => (h deny hdeny).2 rule hrule hsame hdrop
        simp [hdrop, hnone]
      · simp [hdrop]
    have hnone : ((buildMgmtDenyAcls mgmt).filter fun b =>
        !(acls.filter (·.action ≠ "drop")).any (aboutSame b)) = [] := by
      refine filter_eq_nil_iff.mpr fun deny hdeny hmissing => ?_
      obtain ⟨rule, hrule, hallow, hsame⟩ := (h deny hdeny).1
      rw [Bool.not_eq_true', any_eq_false] at hmissing
      exact hmissing rule (mem_filter.mpr ⟨hrule, decide_eq_true hallow⟩)
        (aboutSame_comm deny rule ▸ hsame)
    simp only [retire]
    rw [hkept, hnone, append_nil]

theorem nodup_sortedSet (xs : List String) : (sortedSet xs).Nodup :=
  (perm_insertionSort _ _).nodup_iff.mpr (nodup_dedup xs)

theorem Lacks.fits (h : Lacks r r') (hfits : r.fits s shared = true) : r'.fits s shared = true := by
  rw [fits_iff] at hfits ⊢
  have hnodup := (nodup_sortedSet (shared ++ r'.peered s.vpc)).filter (· ≠ "")
  have hsub : ((r'.exceptions s shared).filter (· ≠ "")) ⊆
      (r.exceptions s shared).filter (· ≠ "") := by
    intro c hc
    obtain ⟨hmem, hne⟩ := mem_filter.mp hc
    exact mem_filter.mpr ⟨h.mem_exceptions hmem, hne⟩
  exact (subperm_of_subset hnodup hsub).length_le.trans hfits

theorem rewrite_ne_raised_iff (htenant : s.isTenant = true) :
    rewrite parse6 r s ≠ .raised ↔ Feasible parse6 r s := by
  by_cases hmaintained : s.Maintained
  · cases hshared : sharedFrom parse6 r.supernet s.acls with
    | none =>
      have hopen : ¬ (s.aclOwner = aclOwnerOperator ∨ isolationOptedOut s = true) := by
        simp [hmaintained.owner, hmaintained.closed]
      refine iff_of_false (not_not_intro ?_) fun hfeasible => ?_
      · rw [rewrite_eq hmaintained.role, if_neg hopen, hshared]
      · obtain ⟨shared, hsome, -⟩ := hfeasible hmaintained
        rw [hshared] at hsome
        cases hsome
    | some shared =>
      have hfeasible : Feasible parse6 r s ↔
          s.cidrBlock = "" ∨ r.targets s = [] ∨ r.fits s shared = true := by
        constructor
        · intro h
          obtain ⟨shared', hsome, hfits⟩ := h hmaintained
          obtain rfl := Option.mem_unique hshared hsome
          exact hfits
        · exact fun hfits _ => ⟨shared, hshared, hfits⟩
      rw [hfeasible, hmaintained.rewrite_eq hshared, ← or_assoc]
      split
      · next hnone =>
        refine iff_of_true ?_ (.inl hnone)
        rw [patchUnlessSame]
        split <;> simp
      · next hsome =>
        rw [or_iff_right hsome]
        split
        · next hfits => exact iff_of_true (by simp) hfits
        · next hlong => exact iff_of_false (by simp) hlong
  · refine iff_of_true ?_ fun hyes => absurd hyes hmaintained
    obtain howner | ⟨howner, hrole⟩ | ⟨hrole, hopted⟩ | hyes := s.cases_of_tenant htenant
    · simp [rewrite, howner]
    · rw [rewrite, if_neg howner, if_pos hrole, patchUnlessSame]
      split <;> simp
    · simp [rewrite_eq hrole, hopted]
    · exact absurd hyes hmaintained

/-- Where a pass that reads everything gets by, so does one that lacks something. -/
theorem Lacks.feasible (h : Lacks r r') (hfeasible : Feasible parse6 r s) :
    Feasible parse6 r' s := by
  intro hmaintained
  obtain ⟨shared, hshared, hfits⟩ := hfeasible hmaintained
  refine ⟨shared, h.supernet ▸ hshared, hfits.imp_right fun hrest => ?_⟩
  rw [h.targets]
  exact hrest.imp_right h.fits

theorem retire_eq_self_iff : retire mgmt acls = acls ↔
    (∀ rule ∈ acls, rule.action = "drop" → (buildMgmtDenyAcls mgmt).any (aboutSame rule) = true) ∧
      ∀ deny ∈ buildMgmtDenyAcls mgmt, acls.any (aboutSame deny) = true := by
  constructor
  · intro heq
    constructor
    · intro rule hrule hdrop
      rw [← heq] at hrule
      simp only [retire, mem_append, mem_filter] at hrule
      obtain ⟨-, hkept⟩ | ⟨hdeny, -⟩ := hrule
      · simpa [hdrop] using hkept
      · exact any_eq_true.mpr ⟨rule, hdeny, by simp [aboutSame]⟩
    · intro deny hdeny
      obtain ⟨rule, hrule, -, hsame⟩ := exists_mem_retire acls hdeny
      rw [heq] at hrule
      exact any_eq_true.mpr ⟨rule, hrule, aboutSame_comm deny rule ▸ hsame⟩
  · rintro ⟨hdrops, hdenies⟩
    have hkept : (acls.filter fun a => a.action ≠ "drop" ||
        (buildMgmtDenyAcls mgmt).any (aboutSame a)) = acls := by
      refine filter_eq_self.mpr fun rule hrule => ?_
      by_cases hdrop : rule.action = "drop"
      · simp only [hdrops rule hrule hdrop, Bool.or_true]
      · simp [hdrop]
    have hnone : ((buildMgmtDenyAcls mgmt).filter fun b => !acls.any (aboutSame b)) = [] := by
      refine filter_eq_nil_iff.mpr fun deny hdeny hmissing => ?_
      simp [hdenies deny hdeny] at hmissing
    simp only [retire]
    rw [hkept, hnone, append_nil]

theorem afterPass_cons_of_feasible (h : s.isTenant = true → Feasible parse6 r s) :
    afterPass parse6 r (s :: subnets) = settle parse6 r s :: afterPass parse6 r subnets := by
  rw [afterPass, afterPass, outcomes, settle]
  split
  · next htenant =>
    have hdone := (rewrite_ne_raised_iff htenant).mpr (h htenant)
    cases houtcome : rewrite parse6 r s with
    | raised => exact absurd houtcome hdone
    | kept => rfl
    | patched acls => rfl
  · rfl

theorem afterPass_cons_of_not_feasible (h : ¬ (s.isTenant = true → Feasible parse6 r s)) :
    afterPass parse6 r (s :: subnets) = s :: subnets := by
  obtain ⟨htenant, hnot⟩ := Classical.not_imp.mp h
  have hraised : rewrite parse6 r s = .raised := by
    by_contra hdone
    exact hnot ((rewrite_ne_raised_iff htenant).mp hdone)
  rw [afterPass, outcomes, if_pos htenant, hraised]
  simp only [map_cons, map_map]
  exact congrArg (s :: ·) (map_id subnets)

/-- A pass leaves a list alone if and only if it is what the pass would write. -/
theorem settle_acls_eq_iff (hfeasible : s.isTenant = true → Feasible parse6 r s) :
    (settle parse6 r s).acls = s.acls ↔ Standing parse6 r s := by
  by_cases htenant : s.isTenant = true
  · obtain howner | ⟨howner, hrole⟩ | ⟨hrole, hopted⟩ | hmaintained := s.cases_of_tenant htenant
    · rw [settle_of_owner howner]
      exact iff_of_true rfl fun _ hother => absurd howner hother
    · have hall : Standing parse6 r s ↔
          ∀ rule ∈ s.acls, rule.priority ∉ [isolationPriorityDrop, mgmtDenyPriority] := by
        simp only [Standing, if_pos hrole]
        exact ⟨fun h => h htenant howner, fun h _ _ => h⟩
      rw [settle_of_role htenant howner hrole, hall]
      exact filter_eq_self.trans (forall₂_congr fun _ _ => decide_eq_true_iff)
    · rw [settle_of_optedOut hrole hopted]
      refine iff_of_true rfl fun _ _ => ?_
      rw [hrole]
      intro hclosed
      rw [hopted] at hclosed
      cases hclosed
    · obtain ⟨shared, hshared, hfits⟩ := hfeasible htenant hmaintained
      have hserves : ¬ (vpcRole s).isSome = true := by simp [hmaintained.role]
      have hall : Standing parse6 r s ↔ _ :=
        ⟨fun h => (if_neg hserves).mp (h htenant hmaintained.owner) hmaintained.closed shared
        hshared,
          fun h _ _ => (if_neg hserves).mpr fun _ shared' hshared' => by
            obtain rfl := Option.mem_unique hshared hshared'
            exact h⟩
      rw [hall]
      by_cases hnone : s.cidrBlock = "" ∨ r.targets s = []
      · rw [if_pos hnone, hmaintained.settle_retire hshared hnone]
        exact retire_eq_self_iff
      · have hsome : r.fits s shared = true := by
          obtain hempty | hempty | hyes := hfits
          · exact absurd (.inl hempty) hnone
          · exact absurd (.inr hempty) hnone
          · exact hyes
        have hsettle : settle parse6 r s = { s with acls := r.rules s shared } := by
          refine settle_of_patched htenant ?_
          rw [hmaintained.rewrite_eq hshared, if_neg hnone, if_pos hsome]
        rw [if_neg hnone, hsettle, eq_comm]
        rfl
  · rw [settle, if_neg htenant]
    exact iff_of_true rfl fun hyes => absurd hyes htenant

/-- What the pass writes to a subnet is what it would have written with everything read, or what
stands there already, if and only if what it lacks makes no difference. -/
theorem Lacks.harmless_iff (h : Lacks r r') (hpeered : ∀ c ∈ r.peered s.vpc, c ≠ "")
    (hmgmt : ∀ m ∈ r.mgmt, m ≠ "") (hfeasible : s.isTenant = true → Feasible parse6 r s) :
    (settle parse6 r' s).acls = s.acls ∨
        (settle parse6 r' s).acls = (settle parse6 r s).acls ↔ Harmless parse6 r r' s := by
  have hdone (htenant : s.isTenant = true) : rewrite parse6 r s ≠ .raised :=
    (rewrite_ne_raised_iff htenant).mpr (hfeasible htenant)
  by_cases hmaintained : s.Maintained
  · cases hshared : sharedFrom parse6 r.supernet s.acls with
    | none =>
      obtain ⟨shared, hsome, -⟩ := hfeasible hmaintained.tenant hmaintained
      rw [hshared] at hsome
      cases hsome
    | some shared =>
      have hshared' : sharedFrom parse6 r'.supernet s.acls = some shared := by
        rw [h.supernet, hshared]
      have hall : Harmless parse6 r r' s ↔ _ :=
        ⟨fun hharmless => hharmless hmaintained shared hshared,
        fun hharmless _ shared' hshared' => by
          obtain rfl := Option.mem_unique hshared hshared'
          exact hharmless⟩
      rw [hall]
      by_cases hnone : s.cidrBlock = "" ∨ r.targets s = []
      · have hnone' : s.cidrBlock = "" ∨ r'.targets s = [] := by rwa [h.targets]
        rw [if_pos hnone, hmaintained.settle_retire hshared' hnone',
          hmaintained.settle_retire hshared hnone]
        obtain hsame | hlost := h.mgmt
        · rw [hsame]
          exact iff_of_true (.inr rfl) (.inl fun m hm => hm)
        · rw [hlost, retire_nil_eq_iff, retire_nil, filter_eq_self]
          simp only [decide_eq_true_eq, not_mem_nil]
          constructor
          · exact .inr
          · rintro (hempty | hharmless)
            · refine .inr fun deny hdeny => ?_
              obtain ⟨m, hm, -⟩ := mem_buildMgmtDenyAcls.mp hdeny
              exact (hempty m hm).elim
            · exact hharmless
      · have hnone' : ¬ (s.cidrBlock = "" ∨ r'.targets s = []) := by rwa [h.targets]
        have hfits : r.fits s shared = true := by
          by_contra hlong
          have hraised := hmaintained.rewrite_eq hshared
          rw [if_neg hnone, if_neg hlong] at hraised
          exact hdone hmaintained.tenant hraised
        have hsettle : settle parse6 r s = { s with acls := r.rules s shared } := by
          refine settle_of_patched hmaintained.tenant ?_
          rw [hmaintained.rewrite_eq hshared, if_neg hnone, if_pos hfits]
        have hsettle' : settle parse6 r' s = { s with acls := r'.rules s shared } := by
          refine settle_of_patched hmaintained.tenant ?_
          rw [hmaintained.rewrite_eq hshared', if_neg hnone', if_pos (h.fits hfits)]
        rw [if_neg hnone, hsettle, hsettle', h.rules_eq_iff hpeered hmgmt, or_comm]
        refine or_congr_right ?_
        rw [eq_comm, Reading.rules, h.targets]
        rfl
  · have hkept : settle parse6 r' s = settle parse6 r s := by
      by_cases htenant : s.isTenant = true
      · obtain howner | ⟨howner, hrole⟩ | ⟨hrole, hopted⟩ | hyes := s.cases_of_tenant htenant
        · rw [settle_of_owner howner, settle_of_owner howner]
        · rw [settle_of_role htenant howner hrole, settle_of_role htenant howner hrole]
        · rw [settle_of_optedOut hrole hopted, settle_of_optedOut hrole hopted]
        · exact absurd hyes hmaintained
      · rw [settle, settle, if_neg htenant, if_neg htenant]
    exact iff_of_true (.inr (by rw [hkept])) fun hyes => absurd hyes hmaintained

end Lacks

variable {nodes : Option (List Node)} {m : String} {vpcs : Option (List Vpc)} {rest : List Subnet}
  {k : Nat}

section Cluster

variable {cfg : Settings} {c : Cluster} {f : Failed}

/-- Every Subnet keeps its list, or gets the one that it would have got with everything read. -/
def Unharmed (parse6 : String → Option (Block 128)) (cfg : Settings) (c : Cluster) (f : Failed) :
    Prop :=
  ∀ (k : Nat) (s t u : Subnet), c.subnets[k]? = some s →
    (reconcileIsolationAcls parse6 cfg c f)[k]? = some t →
      (reconcileIsolationAcls parse6 cfg c .none)[k]? = some u → t.acls = s.acls ∨ t.acls = u.acls

theorem ne_empty_of_mem_mgmtDenySources {env : String} (hm : m ∈ mgmtDenySources env nodes) :
    m ≠ "" := by
  simp only [mgmtDenySources] at hm
  split at hm
  · obtain ⟨chars, hchars, rfl⟩ := mem_map.mp hm
    have hne : chars ≠ [] := by simpa using (mem_filter.mp hchars).2
    simpa using hne
  · split at hm
    · cases hm
    · obtain ⟨address, -, rfl⟩ := mem_map.mp hm
      intro hempty
      have hlist := congrArg String.toList hempty
      simp [String.toList_append] at hlist

theorem ne_empty_of_mem_mgmt (hm : m ∈ (readSome cfg c.subnets vpcs nodes).mgmt) : m ≠ "" := by
  simp only [readSome] at hm
  split at hm
  · exact ne_empty_of_mem_mgmtDenySources hm
  · cases hm

theorem ne_empty_of_mem_peered {vpc cidr : String}
    (hc : cidr ∈ (readSome cfg c.subnets vpcs nodes).peered vpc) : cidr ≠ "" := by
  simp only [readSome] at hc
  split at hc
  · rw [peered] at hc
    split at hc
    · obtain ⟨remote, -, hcidr⟩ := mem_flatMap.mp hc
      obtain ⟨t, -, -, hne, rfl⟩ := mem_cidrsOf.mp hcidr
      exact hne
    · cases hc
  · cases hc

theorem lacks_reading (cfg : Settings) (c : Cluster) (f : Failed) :
    Lacks (c.reading cfg .none) (c.reading cfg f) where
  supernet := rfl
  tenants := rfl
  mgmt := by
    cases hnodes : f.nodes with
    | false => exact .inl (by simp only [Cluster.reading, readSome, hnodes]; rfl)
    | true =>
      by_cases hb3 : cfg.b3Enabled = true
      · by_cases hexplicit : explicitSources cfg.mgmtCIDR ≠ []
        · refine .inl ?_
          simp [Cluster.reading, readSome, hb3, mgmtDenySources, hexplicit]
        · refine .inr ?_
          simp [Cluster.reading, readSome, hnodes, hb3, mgmtDenySources, hexplicit, unlessFailed]
      · refine .inl ?_
        simp [Cluster.reading, readSome, hb3]
  peered := by
    cases hvpcs : f.vpcs with
    | false => exact .inl (by simp only [Cluster.reading, readSome, hvpcs]; rfl)
    | true => exact .inr fun vpc => by simp [Cluster.reading, readSome, hvpcs, unlessFailed]

/-- The pass gets as far as past the subnet with this number. -/
def Reached (parse6 : String → Option (Block 128)) (r : Reading) (subnets : List Subnet) (k : Nat) :
    Prop :=
  ∀ s ∈ subnets.take (k + 1), s.isTenant = true → Feasible parse6 r s

theorem reached_cons_zero :
    Reached parse6 r (s :: rest) 0 ↔ (s.isTenant = true → Feasible parse6 r s) := by
  simp [Reached]

theorem reached_cons_succ : Reached parse6 r (s :: rest) (k + 1) ↔
      (s.isTenant = true → Feasible parse6 r s) ∧ Reached parse6 r rest k := by
  simp [Reached]

theorem getElem?_afterPass_of_reached (hs : subnets[k]? = some s) (h : Reached parse6 r subnets k) :
    (afterPass parse6 r subnets)[k]? = some (settle parse6 r s) := by
  induction subnets generalizing k with
  | nil => cases hs
  | cons x rest ih =>
    cases k with
    | zero =>
      obtain rfl := Option.some.inj hs
      rw [afterPass_cons_of_feasible (reached_cons_zero.mp h)]
      rfl
    | succ k =>
      obtain ⟨hfeasible, hrest⟩ := reached_cons_succ.mp h
      rw [afterPass_cons_of_feasible hfeasible]
      exact ih hs hrest

theorem getElem?_afterPass_of_not_reached (hs : subnets[k]? = some s)
    (h : ¬ Reached parse6 r subnets k) : (afterPass parse6 r subnets)[k]? = some s := by
  induction subnets generalizing k with
  | nil => cases hs
  | cons x rest ih =>
    by_cases hfeasible : x.isTenant = true → Feasible parse6 r x
    · cases k with
      | zero => exact absurd (reached_cons_zero.mpr hfeasible) h
      | succ k =>
        rw [afterPass_cons_of_feasible hfeasible]
        exact ih hs fun hrest => h (reached_cons_succ.mpr ⟨hfeasible, hrest⟩)
    · rw [afterPass_cons_of_not_feasible hfeasible]
      exact hs

/-- What fails to be read harms nobody if and only if it makes no difference to any subnet that the
pass gets to: none to what it would have written there with everything read, or, where it would have
ended before it got there, none to what stands there. -/
theorem unharmed_iff : Unharmed parse6 cfg c f ↔ f.subnets = true ∨
    ∀ (k : Nat) (s : Subnet), c.subnets[k]? = some s →
      Reached parse6 (c.reading cfg f) c.subnets k →
        (Reached parse6 (c.reading cfg .none) c.subnets k ∧
          Harmless parse6 (c.reading cfg .none) (c.reading cfg f) s) ∨
        (¬ Reached parse6 (c.reading cfg .none) c.subnets k ∧
          Standing parse6 (c.reading cfg f) s) := by
  have hlacks := lacks_reading cfg c f
  cases hsubnets : f.subnets with
  | true =>
    refine iff_of_true (fun k s t u hs ht _ => .inl ?_) (.inl rfl)
    have hkept : reconcileIsolationAcls parse6 cfg c f = c.subnets := by
      simp [reconcileIsolationAcls, hsubnets, unlessFailed]
    rw [hkept, hs] at ht
    rw [Option.some.inj ht]
  | false =>
    have hsome : reconcileIsolationAcls parse6 cfg c f =
        afterPass parse6 (c.reading cfg f) c.subnets := by
      rw [reconcileIsolationAcls, hsubnets]
      rfl
    have hfull : reconcileIsolationAcls parse6 cfg c .none =
        afterPass parse6 (c.reading cfg .none) c.subnets := rfl
    rw [or_iff_right (by simp)]
    have hreached {k : Nat} (h : Reached parse6 (c.reading cfg .none) c.subnets k) :
        Reached parse6 (c.reading cfg f) c.subnets k :=
      fun s hs htenant => hlacks.feasible (h s hs htenant)
    have hself {r : Reading} {k : Nat} {s : Subnet} (hs : c.subnets[k]? = some s)
        (h : Reached parse6 r c.subnets k) : s.isTenant = true → Feasible parse6 r s :=
      h s (mem_of_getElem? (List.getElem?_take_of_lt (Nat.lt_succ_self k) ▸ hs))
    have hiff (k : Nat) (s : Subnet) (hs : c.subnets[k]? = some s) :
        (∀ t u, (reconcileIsolationAcls parse6 cfg c f)[k]? = some t →
          (reconcileIsolationAcls parse6 cfg c .none)[k]? = some u →
            t.acls = s.acls ∨ t.acls = u.acls) ↔
        (Reached parse6 (c.reading cfg f) c.subnets k →
          (Reached parse6 (c.reading cfg .none) c.subnets k ∧
            Harmless parse6 (c.reading cfg .none) (c.reading cfg f) s) ∨
          (¬ Reached parse6 (c.reading cfg .none) c.subnets k ∧
            Standing parse6 (c.reading cfg f) s)) := by
      rw [hsome, hfull]
      by_cases hlack : Reached parse6 (c.reading cfg f) c.subnets k
      · simp only [getElem?_afterPass_of_reached hs hlack, hlack, true_imp_iff, Option.some.injEq]
        by_cases hall : Reached parse6 (c.reading cfg .none) c.subnets k
        · simp only [getElem?_afterPass_of_reached hs hall, hall, true_and, not_true, false_and,
            or_false, Option.some.injEq]
          rw [← hlacks.harmless_iff (fun _ hc => ne_empty_of_mem_peered hc)
            (fun _ hm => ne_empty_of_mem_mgmt hm) (hself hs hall)]
          simp
        · simp only [getElem?_afterPass_of_not_reached hs hall, hall, false_and, not_false_iff,
            true_and, false_or, Option.some.injEq]
          rw [← settle_acls_eq_iff (hself hs hlack)]
          simp
      · have hnone : ¬ Reached parse6 (c.reading cfg .none) c.subnets k := fun h =>
          hlack (hreached h)
        simp [getElem?_afterPass_of_not_reached hs hlack,
          getElem?_afterPass_of_not_reached hs hnone, hlack]
    constructor
    · intro h k s hs
      exact (hiff k s hs).mp fun t u ht hu => h k s t u hs ht hu
    · intro h k s t u hs ht hu
      exact (hiff k s hs).mpr (h k s hs) t u ht hu

end Cluster

end Isolation
