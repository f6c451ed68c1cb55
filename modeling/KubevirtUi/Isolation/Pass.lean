import KubevirtUi.Acl.Composed
import KubevirtUi.Go.Strconv
import KubevirtUi.Python.Subtraction
import Mathlib.Data.List.Dedup

/-!
# The pass that keeps tenants apart

The backend writes the rules of every tenant subnet anew: an allow for the subnet itself, an allow
for each prefix that it may reach, a drop for each other tenant, and the management deny. What it
may reach is read from the peerings and, outside the range that tenants are carved from, from the
allows that stand on the subnet.

A failure that is not caught ends the pass where it happens: two address families are compared, or
a number runs past the largest one a rule can have.
-/

namespace Isolation

open Acl Python Python.Ipaddress List

def isolationPriorityOwn : Int := 3200
def isolationPriorityShared : Int := 3100
def isolationPriorityDrop : Int := 3000
def mgmtDenyPriority : Int := 3300

/-- The largest number that `SubnetAcl` accepts. -/
def maxPriority : Int := 32767

def systemVPCName : String := "ovn-cluster"
def aclOwnerOperator : String := "operator"
def isolationOptOutValue : String := "disabled"

/-- A Subnet as it is listed; what is absent is empty. -/
structure Subnet where
  name : String
  vpc : String
  vlan : String
  cidrBlock : String
  deleting : Bool
  role : String
  egressGateway : String
  isolation : String
  aclOwner : String
  acls : List Rule
  deriving DecidableEq

/-- A Vpc and the remote end of each of its peerings. -/
structure Vpc where
  name : String
  remotes : List String
  deriving DecidableEq

def vpcRole (s : Subnet) : Option String :=
  if s.role ≠ "" then some s.role
  else if s.egressGateway ≠ "" then some "egress-gateway"
  else none

def isolationOptedOut (s : Subnet) : Bool := s.isolation = isolationOptOutValue

/-- The subnets that take part in the census. -/
def Subnet.isTenant (s : Subnet) : Bool :=
  s.vpc ≠ "" && s.vpc ≠ systemVPCName && s.vlan = "" && !s.deleting

/-- What the drop is scoped to: the other tenants, or the aggregate where there are none. -/
def dropTargets (subnetCIDR tenantSupernet : String) (peerCIDRs : List String) : List String :=
  let targets := peerCIDRs.filter fun c => c ≠ "" ∧ c ≠ subnetCIDR
  if targets = [] ∧ tenantSupernet ≠ "" then [tenantSupernet] else targets

/-- The allows of the shared prefixes, each with a number of its own. -/
def sharedAcls (sharedCIDRs : List String) : List Rule :=
  (sharedCIDRs.filter (· ≠ "")).zipIdx.flatMap fun (shared, k) =>
    rulePair "allow-related" shared (isolationPriorityShared + k)

def dropAcls (targets : List String) : List Rule :=
  targets.flatMap fun target => rulePair "drop" target isolationPriorityDrop

/-- No rules where there is nothing to scope the drop to. -/
def buildIsolationAcls (subnetCIDR tenantSupernet : String)
    (sharedCIDRs peerCIDRs : List String) : Option (List Rule) :=
  let targets := dropTargets subnetCIDR tenantSupernet peerCIDRs
  if subnetCIDR = "" ∨ targets = [] then some []
  else
    let acls := rulePair "allow-related" subnetCIDR isolationPriorityOwn ++
      sharedAcls sharedCIDRs ++ dropAcls targets
    -- the model of a rule refuses a larger number
    if acls.all (·.priority ≤ maxPriority) then some acls else none

def buildMgmtDenyAcls (mgmtCIDRs : List String) : List Rule :=
  (mgmtCIDRs.filter (· ≠ "")).eraseDups.map fun cidr =>
    ⟨"drop", "to-lport", "ip4.src == " ++ cidr, mgmtDenyPriority⟩

section Family

-- how the texts of IPv6 networks are read
variable (parse6 : String → Option (Block 128))

/-- Whether the prefix is part of the range that tenants are carved from. A text that names no
network is not; two families cannot be compared, and that failure is not caught. -/
def within (cidr supernet : String) : Option Bool :=
  if cidr = "" ∨ supernet = "" then some false
  else match ipNetwork parse6 cidr, ipNetwork parse6 supernet with
  | some p, some q => p.subnetOf q
  | _, _ => some false

/-- What the allows below the subnet's own band name: the text after the last `== `. -/
def allowTexts (existing : List Rule) : List String :=
  existing.filterMap fun a =>
    if a.action = "allow-related" ∧ a.priority < isolationPriorityOwn then
      (Go.afterLast "== ".toList a.matchExpr.toList).map String.ofList
    else none

/-- The allows that are read back: those outside the supernet. -/
def sharedFrom (supernet : String) (existing : List Rule) : Option (List String) :=
  if (allowTexts existing).all fun m => (within parse6 m supernet).isSome then
    some ((allowTexts existing).filter fun m => within parse6 m supernet ≠ some true)
  else none

/-- `sorted` of a set -/
def sortedSet (xs : List String) : List String := xs.dedup.insertionSort (· ≤ ·)

/-- The prefixes of the tenant subnets of a VPC. -/
def cidrsOf (tenants : List Subnet) (vpc : String) : List String :=
  (tenants.filter fun s => s.vpc = vpc && s.cidrBlock ≠ "").map (·.cidrBlock)

/-- The prefixes that a VPC is peered with; among Vpcs of one name the last one counts. -/
def peered (vpcs : List Vpc) (tenants : List Subnet) (vpc : String) : List String :=
  match vpcs.reverse.find? (·.name = vpc) with
  | some v => v.remotes.flatMap (cidrsOf tenants)
  | none => []

/-- What one pass goes by. -/
structure Reading where
  supernet : String
  mgmt : List String
  tenants : List Subnet
  peered : String → List String

namespace Reading

/-- The prefixes of the other tenants; a subnet with a role is not one of them. -/
def peers (r : Reading) (s : Subnet) : List String :=
  ((r.tenants.filter fun t => t.name ≠ s.name && (vpcRole t).isNone).map (·.cidrBlock)).filter
    (· ≠ "")

def targets (r : Reading) (s : Subnet) : List String :=
  dropTargets s.cidrBlock r.supernet (r.peers s)

/-- The prefixes that the subnet may reach. -/
def exceptions (r : Reading) (s : Subnet) (shared : List String) : List String :=
  sortedSet (shared ++ r.peered s.vpc)

end Reading

/-- The two rules are about the same packets, as far as their texts say. -/
def aboutSame (a b : Rule) : Bool := a.direction = b.direction && a.matchExpr = b.matchExpr

/-- Nothing is left to be isolated from: the drops go, but for the management deny, which is added
where it is missing. -/
def retire (mgmtCIDRs : List String) (existing : List Rule) : List Rule :=
  let baseline := buildMgmtDenyAcls mgmtCIDRs
  let body := existing.filter fun a => a.action ≠ "drop" || baseline.any (aboutSame a)
  body ++ baseline.filter fun b => !body.any (aboutSame b)

/-- The blocking rules are taken back off a subnet that serves the others. -/
def withoutBlocking (existing : List Rule) : List Rule :=
  existing.filter fun a => a.priority ∉ [isolationPriorityDrop, mgmtDenyPriority]

/-- What the pass does with a subnet. -/
inductive Outcome where
  | raised
  | kept
  | patched (acls : List Rule)
  deriving DecidableEq

/-- The list is written where it is not what stands there. -/
def patchUnlessSame (existing body : List Rule) : Outcome :=
  if body = existing then .kept else .patched body

def rewrite (r : Reading) (s : Subnet) : Outcome :=
  if s.aclOwner = aclOwnerOperator then .kept
  else if (vpcRole s).isSome then patchUnlessSame s.acls (withoutBlocking s.acls)
  else if isolationOptedOut s then .kept
  else match sharedFrom parse6 r.supernet s.acls with
  | none => .raised
  | some shared =>
    match buildIsolationAcls s.cidrBlock r.supernet (r.exceptions s shared) (r.peers s) with
    | none => .raised
    | some [] => patchUnlessSame s.acls (retire r.mgmt s.acls)
    | some acls => .patched (acls ++ buildMgmtDenyAcls r.mgmt)

/-- Each subnet with what is written to it. -/
def outcomes (r : Reading) : List Subnet → List (Subnet × Option (List Rule))
  | [] => []
  | s :: rest =>
    if s.isTenant then
      match rewrite parse6 r s with
      | .raised => (s, none) :: rest.map (·, none)
      | .kept => (s, none) :: outcomes r rest
      | .patched acls => (s, some acls) :: outcomes r rest
    else (s, none) :: outcomes r rest

/-- What a pass goes by when nothing it reads fails. -/
def readAll (supernet : String) (mgmt : List String) (subnets : List Subnet) (vpcs : List Vpc) :
    Reading :=
  let tenants := subnets.filter (·.isTenant)
  ⟨supernet, mgmt, tenants, peered vpcs tenants⟩

def applyOutcome : Subnet × Option (List Rule) → Subnet
  | (s, some acls) => { s with acls := acls }
  | (s, none) => s

/-- The subnets after the pass. -/
def afterPass (r : Reading) (subnets : List Subnet) : List Subnet :=
  (outcomes parse6 r subnets).map applyOutcome

end Family

section Texts

variable {xs ys : List String} {c : String}

@[simp] theorem mem_sortedSet : c ∈ sortedSet xs ↔ c ∈ xs := by
  rw [sortedSet, mem_insertionSort, mem_dedup]

theorem sortedSet_eq_iff : sortedSet xs = sortedSet ys ↔ ∀ c, c ∈ xs ↔ c ∈ ys := by
  constructor
  · intro h c
    rw [← mem_sortedSet, h, mem_sortedSet]
  · intro h
    have hdedup : xs.dedup.Perm ys.dedup :=
      (perm_ext_iff_of_nodup (nodup_dedup xs) (nodup_dedup ys)).mpr fun c => by
        rw [mem_dedup, mem_dedup, h c]
    have hsorted : (sortedSet xs).Perm (sortedSet ys) :=
      ((perm_insertionSort _ _).trans hdedup).trans (perm_insertionSort _ _).symm
    exact hsorted.eq_of_pairwise' (pairwise_insertionSort _ _) (pairwise_insertionSort _ _)

end Texts

section Rewriting

variable {parse6 : String → Option (Block 128)} {r : Reading} {s t : Subnet} {acls : List Rule}
  {subnets : List Subnet} {vpcs : List Vpc} {c : String}

/-- The list of a subnet that has somebody to be isolated from. -/
def Reading.rules (r : Reading) (s : Subnet) (shared : List String) : List Rule :=
  rulePair "allow-related" s.cidrBlock isolationPriorityOwn ++
    sharedAcls (r.exceptions s shared) ++ dropAcls (r.targets s) ++ buildMgmtDenyAcls r.mgmt

theorem mem_peers : c ∈ r.peers s ↔
    c ≠ "" ∧ ∃ t ∈ r.tenants, t.name ≠ s.name ∧ vpcRole t = none ∧ t.cidrBlock = c := by
  simp only [Reading.peers, mem_filter, mem_map, Bool.and_eq_true, decide_eq_true_eq,
    Option.isNone_iff_eq_none, and_assoc]
  exact And.comm

theorem mem_targets_of_mem_peers (hpeer : c ∈ r.peers s) (hself : c ≠ s.cidrBlock) :
    c ∈ r.targets s := by
  have hfilter : c ∈ (r.peers s).filter fun c => c ≠ "" ∧ c ≠ s.cidrBlock :=
    mem_filter.mpr ⟨hpeer, decide_eq_true ⟨(mem_peers.mp hpeer).1, hself⟩⟩
  rw [Reading.targets, dropTargets, if_neg fun hnone => ne_nil_of_mem hfilter hnone.1]
  exact hfilter

theorem of_mem_dropTargets {own supernet : String} {peers : List String}
    (h : c ∈ dropTargets own supernet peers) : c ∈ peers ∨ c = supernet ∧ c ≠ "" := by
  rw [dropTargets] at h
  split at h
  · next hnone =>
    obtain rfl := mem_singleton.mp h
    exact .inr ⟨rfl, hnone.2⟩
  · exact .inl (mem_of_mem_filter h)

theorem of_buildIsolationAcls {own supernet : String} {shared peers : List String}
    (h : buildIsolationAcls own supernet shared peers = some acls) :
    (own = "" ∨ dropTargets own supernet peers = []) ∧ acls = [] ∨
      acls = rulePair "allow-related" own isolationPriorityOwn ++ sharedAcls shared ++
        dropAcls (dropTargets own supernet peers) := by
  rw [buildIsolationAcls] at h
  split at h
  · next hnone => exact .inl ⟨hnone, (Option.some.inj h).symm⟩
  · dsimp only at h
    split at h
    · exact .inr (Option.some.inj h).symm
    · cases h

theorem targets_ne_nil (h : r.supernet ≠ "") : r.targets s ≠ [] := by
  rw [Reading.targets, dropTargets]
  split
  · exact cons_ne_nil _ _
  · next hsome =>
    exact fun hnil => hsome ⟨hnil, h⟩

/-- Whether a rule can have the numbers that the list asks for. -/
def Reading.fits (r : Reading) (s : Subnet) (shared : List String) : Bool :=
  (rulePair "allow-related" s.cidrBlock isolationPriorityOwn ++
    sharedAcls (r.exceptions s shared) ++ dropAcls (r.targets s)).all (·.priority ≤ maxPriority)

/-- What a pass does with a subnet that serves no others: it takes the old drops away where there
is nothing to be isolated from, and writes the whole list anew elsewhere. -/
theorem rewrite_eq (hrole : vpcRole s = none) : rewrite parse6 r s =
    if s.aclOwner = aclOwnerOperator ∨ isolationOptedOut s = true then .kept
    else match sharedFrom parse6 r.supernet s.acls with
    | none => .raised
    | some shared =>
      if s.cidrBlock = "" ∨ r.targets s = [] then patchUnlessSame s.acls (retire r.mgmt s.acls)
      else if r.fits s shared then .patched (r.rules s shared) else .raised := by
  rw [rewrite, hrole]
  simp only [Option.isSome_none, Bool.false_eq_true, if_false]
  by_cases howner : s.aclOwner = aclOwnerOperator
  · rw [if_pos howner, if_pos (.inl howner)]
  · by_cases hopted : isolationOptedOut s = true
    · rw [if_neg howner, if_pos hopted, if_pos (.inr hopted)]
    · rw [if_neg howner, if_neg hopted, if_neg (not_or.mpr ⟨howner, hopted⟩)]
      cases sharedFrom parse6 r.supernet s.acls with
      | none => rfl
      | some shared =>
        by_cases hnone : s.cidrBlock = "" ∨ r.targets s = []
        · have hbuilt : buildIsolationAcls s.cidrBlock r.supernet (r.exceptions s shared)
              (r.peers s) = some [] := if_pos hnone
          simp only [hbuilt, if_pos hnone]
        · by_cases hfits : r.fits s shared = true
          · have hbuilt : buildIsolationAcls s.cidrBlock r.supernet (r.exceptions s shared)
                (r.peers s) = some (rulePair "allow-related" s.cidrBlock isolationPriorityOwn ++
                  sharedAcls (r.exceptions s shared) ++ dropAcls (r.targets s)) :=
              (if_neg hnone).trans (if_pos hfits)
            simp only [hbuilt, if_neg hnone, if_pos hfits]
            rfl
          · have hbuilt : buildIsolationAcls s.cidrBlock r.supernet (r.exceptions s shared)
                (r.peers s) = none := (if_neg hnone).trans (if_neg hfits)
            simp only [hbuilt, if_neg hnone, if_neg hfits]

theorem of_patchUnlessSame {existing body : List Rule}
    (h : patchUnlessSame existing body = .patched acls) : acls = body := by
  rw [patchUnlessSame] at h
  split at h
  · cases h
  · exact (Outcome.patched.inj h).symm

theorem of_rewrite_eq_patched (h : rewrite parse6 r s = .patched acls) (hrole : vpcRole s = none) :
    ∃ shared, sharedFrom parse6 r.supernet s.acls = some shared ∧
      ((s.cidrBlock = "" ∨ r.targets s = []) ∧ acls = retire r.mgmt s.acls ∨
        ¬ (s.cidrBlock = "" ∨ r.targets s = []) ∧ acls = r.rules s shared) := by
  rw [rewrite_eq hrole] at h
  split at h
  · cases h
  · split at h
    · cases h
    · next shared hshared =>
      refine ⟨shared, hshared, ?_⟩
      split at h
      · next hnone => exact .inl ⟨hnone, of_patchUnlessSame h⟩
      · next hsome =>
        split at h
        · exact .inr ⟨hsome, (Outcome.patched.inj h).symm⟩
        · cases h

theorem of_mem_outcomes (h : (s, some acls) ∈ outcomes parse6 r subnets) :
    s ∈ subnets ∧ s.isTenant = true ∧ rewrite parse6 r s = .patched acls := by
  induction subnets with
  | nil => cases h
  | cons t rest ih =>
    have hlater (hmem : (s, some acls) ∈ outcomes parse6 r rest) :
        s ∈ t :: rest ∧ s.isTenant = true ∧ rewrite parse6 r s = .patched acls := by
      obtain ⟨hrest, hpatched⟩ := ih hmem
      exact ⟨mem_cons_of_mem t hrest, hpatched⟩
    rw [outcomes] at h
    split at h
    · next htenant =>
      split at h
      · simp at h
      · exact hlater (by simpa using h)
      · next hpatched =>
        obtain heq | hmem := mem_cons.mp h
        · obtain ⟨rfl, hacls⟩ := Prod.mk.inj heq
          obtain rfl := Option.some.inj hacls
          exact ⟨mem_cons_self, htenant, hpatched⟩
        · exact hlater hmem
    · exact hlater (by simpa using h)

end Rewriting

end Isolation
