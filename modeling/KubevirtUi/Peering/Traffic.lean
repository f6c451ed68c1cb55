import KubevirtUi.Acl.Evaluate
import Mathlib.Data.List.Sort
import Mathlib.Data.String.Basic

/-!
# Whether a packet would get through

Before the routes go in, and again after, the reconciler evaluates the rules of
each side at one address of each prefix of the other side. The rules are those of
all subnets of the network, one list after the other; the address is the one after
the network address; the direction is the one towards the local ports.

The functions read the subnets through an argument, which is told the network asked
about, once for every question, so that the same text serves one reading of a fixed state
and a pass in which other writers come in between.
-/

namespace Peering

open Go Go.Netip Acl

/-- One rule of `Subnet.spec.acls`. -/
structure AclEntry where
  action : Option String := none
  direction : Option String := none
  matchExpr : Option String := none
  priority : Option Int := none
  deriving DecidableEq

/-- What the reconciler reads of a subnet. -/
structure Subnet where
  vpc : Option String := none
  cidrBlock : Option String := none
  deleting : Bool := false
  /-- The annotation that names the owner of the rule list. -/
  aclOwner : Option String := none
  acls : List AclEntry := []
  deriving DecidableEq

/-- The network a subnet belongs to; an absent text reads as an empty one. -/
def Subnet.owner (subnet : Subnet) : String := subnet.vpc.getD ""

/-- `readACLs`: absent fields read as empty texts and zero. -/
def readACLs (subnet : Subnet) : List Rule :=
  subnet.acls.map fun entry =>
    ⟨entry.action.getD "", entry.direction.getD "", entry.matchExpr.getD "",
      entry.priority.getD 0⟩

/-- `subnetCIDRs`: the prefixes of the subnets that are there to stay, in order. -/
def subnetCIDRs (subnets : List Subnet) (vpc : String) : List String :=
  (((subnets.filter fun s => s.owner = vpc ∧ s.deleting = false).map
    (·.cidrBlock.getD "")).filter (· ≠ "")).insertionSort (· ≤ ·)

/-- `aclsOf`: the rule lists of every subnet of a network, joined. -/
def aclsOf (subnets : List Subnet) (vpc : String) : List Rule :=
  (subnets.filter (·.owner = vpc)).flatMap readACLs

/-- `aclsAreComposed`: the network has a subnet, and all its lists are the
operator's. -/
def aclsAreComposed (subnets : List Subnet) (vpc : String) : Bool :=
  let own := subnets.filter (·.owner = vpc)
  own ≠ [] ∧ own.all (·.aclOwner = some "operator")

/-- `firstAddressOf`: the address after the network address. -/
def firstAddressOf (cidr : String) : Option Addr :=
  (parsePrefix cidr).map fun p => p.masked.addr.next

/-- The text of a verdict. -/
def verdictText : Verdict → String
  | .allowed => "allow"
  | .dropped => "drop"
  | .conflicted => "conflict"

/-- Some prefix is not let in at its first address. -/
def isBlocked (rules : List Rule) (cidrs : List String) : Bool :=
  cidrs.any fun cidr => (firstAddressOf cidr).any fun source =>
    evaluate rules source "to-lport" ≠ .allowed

/-- One side of `isolationWillNotLift`: the rules let the other side in, or are
the composer's, or are somebody else's. -/
inductive SideRules where
  | open
  | waiting
  | stuck
  deriving DecidableEq

section Reads

variable {m : Type → Type} [Monad m] (list : String → m (Except String (List Subnet)))

/-- The body of the loop of `isolationWillNotLift`. -/
def judgeSide (loc : String) (remoteCIDRs : List String) : m (Except String SideRules) := do
  match ← list loc with
  | .error err => pure (.error err)
  | .ok subnets =>
    if !isBlocked (aclsOf subnets loc) remoteCIDRs then pure (.ok .open)
    else match ← list loc with
    | .error err => pure (.error err)
    | .ok subnets => pure (.ok (if aclsAreComposed subnets loc then .waiting else .stuck))

/-- The reason and the detail of the two sides together. -/
def isolationReason (sides : List (String × SideRules)) : String × String :=
  let waiting := (sides.filter (·.2 = .waiting)).map (·.1)
  let stuck := (sides.filter (·.2 = .stuck)).map (·.1)
  if waiting ≠ [] ∧ stuck = [] then
    ("WaitingForIsolation", "the rules on " ++ String.intercalate " and " waiting ++
      " do not let the other side in yet. They are the composer's and it has the " ++
      "declaration, so the allow is coming; nothing is routed until it does")
  else if stuck = [] then ("", "")
  else
    ("IsolationNotOurs", "the rules on " ++ String.intercalate " and " stuck ++
      " drop the other side and that list is not the composer's, so the allow is never " ++
      "coming. Nothing was written: routing into a drop is worse than not peering — the " ++
      "traffic would go to the link and die where it used to take the default route. " ++
      "Describe " ++ String.intercalate " and " stuck ++ " as a ManagedNetwork so its " ++
      "rules are composed, or open the prefix by hand")

/-- `isolationWillNotLift`: the reason not to route yet, or an empty one. -/
def isolationWillNotLift (a b : String) (cidrs : String → List String) :
    m (String × String) := do
  match ← judgeSide list a (cidrs b) with
  | .error err => pure ("Unreadable", err)
  | .ok sideA =>
    match ← judgeSide list b (cidrs a) with
    | .error err => pure ("Unreadable", err)
    | .ok sideB => pure (isolationReason [(a, sideA), (b, sideB)])

/-- What is asked of each side: every prefix of the other. -/
def questions (a b : String) (cidrs : String → List String) : List (String × String) :=
  (cidrs b).map (a, ·) ++ (cidrs a).map (b, ·)

/-- The loop of `judgeTraffic`: the questions left, and what was found blocked. -/
def judgeFrom : List (String × String) → List String → m (Except String (List String))
  | [], blocked => pure (.ok blocked)
  | (loc, cidr) :: rest, blocked =>
    match firstAddressOf cidr with
    | none => judgeFrom rest blocked
    | some source => do
      match ← list loc with
      | .error err => pure (.error err)
      | .ok subnets =>
        let verdict := evaluate (aclsOf subnets loc) source "to-lport"
        judgeFrom rest (if verdict ≠ .allowed then
          blocked ++ [loc ++ " from " ++ cidr ++ " (" ++ verdictText verdict ++ ")"] else blocked)

/-- A condition as it is set: its status, reason and message. -/
structure Condition where
  status : Bool
  reason : String
  message : String
  deriving DecidableEq

/-- `judgeTraffic`: the condition `TrafficAllowed`. -/
def judgeTraffic (a b : String) (cidrs : String → List String) : m Condition := do
  match ← judgeFrom list (questions a b cidrs) [] with
  | .error err => pure ⟨false, "Unreadable", err⟩
  | .ok blocked =>
    if blocked ≠ [] then
      pure ⟨false, "IsolationDrops", "the link and the routes are in place and the isolation " ++
        "rules still drop the traffic: " ++ String.intercalate "; " blocked ++
        ". Whatever owns those rule lists has not seen this peering — a ManagedNetwork's " ++
        "composer picks it up on its own; a list written elsewhere does not"⟩
    else pure ⟨true, "Allowed", "both sides let the other's prefixes in"⟩

end Reads

/-- The joined rules of a network let in the first address of every prefix. -/
def LetsIn (subnets : List Subnet) (loc : String) (remoteCIDRs : List String) : Prop :=
  ∀ cidr ∈ remoteCIDRs, ∀ source, firstAddressOf cidr = some source →
    evaluate (aclsOf subnets loc) source "to-lport" = .allowed

variable {remoteCIDRs blocked : List String} {questions : List (String × String)}

section Fixed

variable {subnets : List Subnet} {a b loc : String} {cidrs : String → List String}

theorem isBlocked_eq_false_iff :
    isBlocked (aclsOf subnets loc) remoteCIDRs = false ↔ LetsIn subnets loc remoteCIDRs := by
  simp [isBlocked, LetsIn, Option.any_eq_false]

/-- On a fixed state the loop finds nothing blocked exactly when every question
is answered by an allow. -/
theorem judgeFrom_eq_nil_iff :
    Id.run (judgeFrom (fun _ => pure (.ok subnets)) questions blocked) = .ok [] ↔
      blocked = [] ∧ ∀ question ∈ questions, ∀ source,
        firstAddressOf question.2 = some source →
        evaluate (aclsOf subnets question.1) source "to-lport" = .allowed := by
  induction questions generalizing blocked with
  | nil => simp [judgeFrom]
  | cons question questions ih =>
    obtain ⟨loc, cidr⟩ := question
    rw [judgeFrom, List.forall_mem_cons]
    cases firstAddressOf cidr with
    | none => simp [ih]
    | some source =>
      by_cases hallow : evaluate (aclsOf subnets loc) source "to-lport" = .allowed
      · simp [ih, hallow]
      · simp [ih, hallow]

theorem judgeFrom_isOk :
    ∃ found, Id.run (judgeFrom (fun _ => pure (.ok subnets)) questions blocked) = .ok found := by
  induction questions generalizing blocked with
  | nil => exact ⟨blocked, rfl⟩
  | cons question questions ih =>
    obtain ⟨loc, cidr⟩ := question
    rw [judgeFrom]
    cases firstAddressOf cidr with
    | none => exact ih
    | some source => exact ih

/-- The traffic is reported allowed exactly when both sides let the other in. -/
theorem judgeTraffic_status_iff :
    (Id.run (judgeTraffic (fun _ => pure (.ok subnets)) a b cidrs)).status = true ↔
      LetsIn subnets a (cidrs b) ∧ LetsIn subnets b (cidrs a) := by
  have hquestions : (∀ question ∈ questions a b cidrs, ∀ source,
      firstAddressOf question.2 = some source →
      evaluate (aclsOf subnets question.1) source "to-lport" = .allowed) ↔
      LetsIn subnets a (cidrs b) ∧ LetsIn subnets b (cidrs a) := by
    simp only [questions, List.forall_mem_append, List.forall_mem_map, LetsIn]
  have hnil :
      Id.run (judgeFrom (fun _ => pure (.ok subnets)) (questions a b cidrs) []) = .ok [] ↔ _ :=
    judgeFrom_eq_nil_iff
  obtain ⟨found, hfound⟩ : ∃ found,
      Id.run (judgeFrom (fun _ => pure (.ok subnets)) (questions a b cidrs) []) = .ok found :=
    judgeFrom_isOk
  rw [← hquestions]
  simp only [hfound, true_and, Except.ok.injEq] at hnil
  rw [← hnil, judgeTraffic, Id.run_bind, hfound]
  by_cases hempty : found = [] <;> simp [hempty]

theorem judgeSide_eq : Id.run (judgeSide (fun _ => pure (.ok subnets)) loc remoteCIDRs) =
      .ok (if isBlocked (aclsOf subnets loc) remoteCIDRs = false then .open
        else if aclsAreComposed subnets loc = true then .waiting else .stuck) := by
  rw [judgeSide]
  by_cases hblocked : isBlocked (aclsOf subnets loc) remoteCIDRs = false <;> simp [hblocked]

/-- There is no reason to hold back exactly when both sides let the other in. -/
theorem isolationWillNotLift_eq_empty_iff :
    (Id.run (isolationWillNotLift (fun _ => pure (.ok subnets)) a b cidrs)).1 = "" ↔
      LetsIn subnets a (cidrs b) ∧ LetsIn subnets b (cidrs a) := by
  rw [isolationWillNotLift, Id.run_bind, judgeSide_eq]
  simp only
  rw [Id.run_bind, judgeSide_eq, ← isBlocked_eq_false_iff, ← isBlocked_eq_false_iff]
  by_cases hA : isBlocked (aclsOf subnets a) (cidrs b) = false <;>
  by_cases hB : isBlocked (aclsOf subnets b) (cidrs a) = false <;>
  by_cases hA' : aclsAreComposed subnets a = true <;>
  by_cases hB' : aclsAreComposed subnets b = true <;>
  simp [hA, hB, hA', hB', isolationReason]

end Fixed

/-- When the traffic is reported allowed, or nothing speaks against routing, the
joined rules of either side let in every address that they do not tell apart from
the first one of its prefix; and so does the list of one subnet where none of the
other rules applies. -/
theorem traffic_sound {subnets : List Subnet} {a b : String} {cidrs : String → List String}
    (h : (Id.run (judgeTraffic (fun _ => pure (.ok subnets)) a b cidrs)).status = true ∨
      (Id.run (isolationWillNotLift (fun _ => pure (.ok subnets)) a b cidrs)).1 = "")
    {loc remote : String} (hside : loc = a ∧ remote = b ∨ loc = b ∧ remote = a)
    {cidr : String} (hcidr : cidr ∈ cidrs remote) {first : Addr}
    (hfirst : firstAddressOf cidr = some first) {x : Addr} (hx : ∀ rule ∈ aclsOf subnets loc,
      rule.applies x "to-lport" = rule.applies first "to-lport") :
    evaluate (aclsOf subnets loc) x "to-lport" = .allowed ∧
      ∀ subnet ∈ subnets, subnet.owner = loc →
        (∀ rule ∈ aclsOf subnets loc, rule.applies x "to-lport" = true →
          rule ∈ readACLs subnet) →
        evaluate (readACLs subnet) x "to-lport" = .allowed := by
  rw [judgeTraffic_status_iff, isolationWillNotLift_eq_empty_iff, or_self] at h
  have hlets : LetsIn subnets loc (cidrs remote) := by
    obtain ⟨rfl, rfl⟩ | ⟨rfl, rfl⟩ := hside
    · exact h.1
    · exact h.2
  have hjoined : evaluate (aclsOf subnets loc) x "to-lport" = .allowed := by
    rw [evaluate_congr_of_applies hx]
    exact hlets cidr hcidr first hfirst
  refine ⟨hjoined, fun subnet hsubnet howner hown => ?_⟩
  rw [evaluate_of_subset_applies ?_ hown, hjoined]
  intro rule hrule
  exact List.mem_flatMap.mpr ⟨subnet, by simp [hsubnet, howner], hrule⟩

/-- Two networks with a subnet each; `left` drops half of what `right` holds. -/
def halfOpen : List Subnet :=
  [{ vpc := some "left", cidrBlock := some "10.1.0.0/24",
     acls := [{ action := some "drop", direction := some "to-lport",
                matchExpr := some "ip4.src == 10.2.0.128/25", priority := some 3000 }] },
   { vpc := some "right", cidrBlock := some "10.2.0.0/24" }]

/-- The lower half of the prefix is let in. -/
theorem traffic_sound_halfOpen :
    evaluate (aclsOf halfOpen "left") (.v4 0x0A02007F) "to-lport" = .allowed := by
  have hreported : (Id.run (judgeTraffic (fun _ => pure (.ok halfOpen)) "left" "right"
      (subnetCIDRs halfOpen))).status = true := by decide
  have hcidr : "10.2.0.0/24" ∈ subnetCIDRs halfOpen "right" := by decide
  have hfirst : firstAddressOf "10.2.0.0/24" = some (.v4 0x0A020001) := by decide
  have hx : ∀ rule ∈ aclsOf halfOpen "left", rule.applies (.v4 0x0A02007F) "to-lport" =
      rule.applies (.v4 0x0A020001) "to-lport" := by decide
  exact (traffic_sound (.inl hreported) (.inl ⟨rfl, rfl⟩) hcidr hfirst hx).1

/-- The upper half is reported allowed and dropped. -/
theorem halfOpen_dropped : (Id.run (judgeTraffic (fun _ => pure (.ok halfOpen)) "left" "right"
      (subnetCIDRs halfOpen))).status = true ∧ inCIDR (.v4 0x0A0200C8) "10.2.0.0/24" = true ∧
    ∃ subnet ∈ halfOpen, subnet.owner = "left" ∧
      evaluate (readACLs subnet) (.v4 0x0A0200C8) "to-lport" = .dropped := by
  refine ⟨by decide, by decide, _, List.mem_cons_self, by decide, by decide⟩

end Peering
