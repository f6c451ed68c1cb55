import KubevirtUi.Isolation.Reads
import KubevirtUi.Library.Machine
import KubevirtUi.Library.Store

/-!
# What a pass may overwrite

A request adds a rule to the list of a Subnet or deletes one from it, and writes the list under the
version that it has read. A pass reads all lists at once and later replaces one after the other,
whatever they have become by then.

A request that is refused reads again, and no two requests can lose each other's rules. A pass can:
it replaces the list by one computed from what it read, which has the rules that it comes up with
and no others. Nothing is lost as long as no request comes between its reading and its writing, and
the rules that requests have put there are of the kinds that it keeps.
-/

namespace SubnetAcls

open Isolation Acl Machine List
open Option hiding filter_filter

/-- What is to be done to the list of a Subnet. -/
inductive Edit where
  | add (name : String) (rule : Rule)
  | remove (name : String) (rule : Rule)
  deriving DecidableEq

namespace Edit

def name : Edit → String
  | .add name _ => name
  | .remove name _ => name

/-- The list to be written, or nothing where there is nothing to do. A rule is told by what it
says, not by its place. -/
def mutate : Edit → List Rule → Option (List Rule)
  | .add _ rule, acls => some (acls ++ [rule])
  | .remove _ rule, acls => if rule ∈ acls then some (acls.erase rule) else none

end Edit

/-- What is asked for. A pass is given here with what it will read of the Vpcs and the nodes. -/
inductive Request where
  | addSubnetAcl (name : String) (rule : Rule)
  | deleteSubnetAcl (name : String) (index : Int)
  | reconcileIsolationAcls (vpcs : Option (List Vpc)) (nodes : Option (List Node))

/-- How far a request has got. -/
inductive Phase where
  | asked (request : Request)
  /-- about to read the list, with so many attempts left -/
  | trying (edit : Edit) (left : Nat)
  /-- about to write this list, computed from what was read -/
  | writing (edit : Edit) (left : Nat) (item : Versioned Subnet) (acls : List Rule)
  /-- about to read the list that is returned -/
  | confirming (name : String) (rule : Rule)
  /-- a pass that has these subnets ahead of it, as it has read them when so much had been done;
  no code reads that number -/
  | passing (r : Reading) (items : List (String × Subnet)) (since : Nat)
  | added (name : String) (rule : Rule)
  | deleted (name : String) (rule : Rule)
  | refused
  | passed

/-- What has been done to the lists, and which rules a pass has come up with; no request sees
this. -/
inductive Logged where
  | added (name : String) (rule : Rule)
  | removed (name : String) (rule : Rule)
  /-- a rule to be deleted was not on the list -/
  | missed (name : String) (rule : Rule)
  | derived (name : String) (rule : Rule)
  deriving DecidableEq

structure State (ι : Type) where
  clock : Nat
  subnets : Store Subnet
  phase : ι → Phase
  log : List Logged

/-- One call of a request, which may fail, or a change by others to anything but the list. -/
inductive Input (ι : Type) where
  | call (i : ι) (failed : Bool)
  | change (name : String) (s : Subnet)

def defaultRetries : Nat := 5

/-- What follows when the helper has returned, be it that it has written or not. -/
def Edit.finish : Edit → Phase
  | .add name rule => .confirming name rule
  | .remove name rule => .deleted name rule

def Edit.logged : Edit → Logged
  | .add name rule => .added name rule
  | .remove name rule => .removed name rule

/-- What is noted where a request finds nothing to do. -/
def Edit.idle : Edit → List Logged
  | .add .. => []
  | .remove name rule => [.missed name rule]

/-- The Subnets in the order of their names. -/
def listed (subnets : Store Subnet) : List (String × Subnet) :=
  (subnets.entries.map fun e => (e.1, e.2.value)).insertionSort fun a b => a.1 ≤ b.1

section Writes

variable (parse6 : String → Option (Block 128))

/-- The rules that the census and the settings ask for. -/
def owed (r : Reading) (s : Subnet) (shared : List String) : List Rule :=
  if s.cidrBlock = "" ∨ r.targets s = [] then buildMgmtDenyAcls r.mgmt
  else rulePair "allow-related" s.cidrBlock isolationPriorityOwn ++
    (((r.exceptions s shared).filter (· ≠ "")).zipIdx.filter fun (c, _) =>
      c ∈ r.peered s.vpc).flatMap (fun (c, k) =>
        rulePair "allow-related" c (isolationPriorityShared + k)) ++
    dropAcls (r.targets s) ++ buildMgmtDenyAcls r.mgmt

/-- The list that the pass writes, if it writes one. -/
def writes (r : Reading) (s : Subnet) : List Rule :=
  if (vpcRole s).isSome then withoutBlocking s.acls
  else match sharedFrom parse6 r.supernet s.acls with
  | none => []
  | some shared =>
    if s.cidrBlock = "" ∨ r.targets s = [] then retire r.mgmt s.acls else r.rules s shared

/-- The rules on that list that the pass has come up with itself, and not read on the old one. -/
def derived (r : Reading) (s : Subnet) : List Rule :=
  (writes parse6 r s).filter fun rule => rule ∉ s.acls ∨
    ((vpcRole s).isNone ∧ (sharedFrom parse6 r.supernet s.acls).any fun shared =>
      rule ∈ owed r s shared)

end Writes

variable {ι : Type} {parse6 : String → Option (Block 128)} {s : Subnet} {log : List Logged}

section Steps

variable [DecidableEq ι]

def State.go (st : State ι) (i : ι) (phase : Phase) : State ι :=
  { st with phase := Function.update st.phase i phase }

def State.write (st : State ι) (name : String) (s : Subnet) (log : List Logged) : State ι :=
  { st with
    clock := st.clock + 1
    subnets := st.subnets.insert name ⟨st.clock + 1, s⟩
    log := st.log ++ log }

/-- The next call of a request, that has got as far as its phase says. -/
def call (parse6 : String → Option (Block 128)) (cfg : Settings) (st : State ι) (i : ι)
    (failed : Bool) : Phase → Option (State ι)
  | .asked (.addSubnetAcl name rule) =>
    if failed ∨ st.subnets.lookup name = none then st.go i .refused
    else st.go i (.trying (.add name rule) defaultRetries)
  | .asked (.deleteSubnetAcl name index) =>
    if failed then st.go i .refused
    else match st.subnets.lookup name with
    | none => st.go i .refused
    | some item =>
      if index < 0 ∨ index ≥ item.value.acls.length then st.go i .refused
      else match item.value.acls[index.toNat]? with
      | none => st.go i .refused
      | some removed => st.go i (.trying (.remove name removed) defaultRetries)
  | .asked (.reconcileIsolationAcls vpcs nodes) =>
    if failed then st.go i .passed
    else
      let r := readSome cfg ((listed st.subnets).map (·.2)) vpcs nodes
      st.go i (.passing r ((listed st.subnets).filter (·.2.isTenant)) st.log.length)
  | .trying edit 0 => st.go i edit.finish
  | .trying edit (left + 1) =>
    if failed then st.go i .refused
    else match st.subnets.lookup edit.name with
    | none => st.go i edit.finish
    | some item =>
      match edit.mutate item.value.acls with
      | none => { st with log := st.log ++ edit.idle }.go i edit.finish
      | some acls => st.go i (.writing edit left item acls)
  | .writing edit left item acls =>
    if failed then st.go i .refused
    else match st.subnets.lookup edit.name with
    | none => st.go i .refused
    | some current =>
      if current.version = item.version then
        (st.write edit.name { current.value with acls := acls } [edit.logged]).go i edit.finish
      else if 0 < left then st.go i (.trying edit left)
      else st.go i .refused
  | .confirming name rule =>
    if failed ∨ st.subnets.lookup name = none then st.go i .refused
    else st.go i (.added name rule)
  | .passing _ [] _ => st.go i .passed
  | .passing r ((name, s) :: rest) since =>
    match rewrite parse6 r s with
    | .raised => st.go i .passed
    | .kept => st.go i (.passing r rest since)
    | .patched acls =>
      -- the patch carries no version
      if failed then st.go i .passed
      else match st.subnets.lookup name with
      | none => st.go i .passed
      | some current =>
        (st.write name { current.value with acls := acls }
          ((derived parse6 r s).map (.derived name))).go i
          (.passing r rest since)
  | .added .. | .deleted .. | .refused | .passed => none

def next (parse6 : String → Option (Block 128)) (cfg : Settings) (st : State ι) :
    Input ι → Option (State ι)
  | .call i failed => call parse6 cfg st i failed (st.phase i)
  | .change name s =>
    (st.subnets.lookup name).map fun current =>
      st.write name { s with acls := current.value.acls } []

end Steps

/-- The Subnet that it is about. -/
def Logged.name : Logged → String
  | .added name _ | .removed name _ | .missed name _ | .derived name _ => name

/-- How often the rule is on the list of the Subnet. -/
def copies (subnets : Store Subnet) (name : String) (rule : Rule) : Nat :=
  ((subnets.lookup name).map fun item => item.value.acls.count rule).getD 0

/-- How many of them are left by what has been done: one more with each that is added, one less with
each that is deleted, and none where there was none to delete. -/
def remaining (name : String) (rule : Rule) (n : Nat) (log : List Logged) : Nat :=
  log.foldl (fun n e =>
    if e = .added name rule then n + 1
    else if e = .removed name rule then n - 1
    else if e = .missed name rule then 0
    else n) n

section Condition

/-- What a request has done to the list of the Subnet, or would have if there had been a rule. -/
def Logged.requested (name : String) : Logged → Prop
  | .added other _ | .removed other _ | .missed other _ => other = name
  | .derived .. => False

instance (name : String) : DecidablePred (Logged.requested name) := fun e => by
  unfold Logged.requested
  split <;> infer_instance

/-- How many of the prefixes come before this one. -/
def place (cidrs : List String) (c : String) : Nat :=
  (cidrs.dedup.filter fun d => d ≠ "" ∧ d < c).length

/-- The kinds of rule that a pass leaves on the list. On a Subnet that serves the others these are
all but the blocking ones, and where there is nothing to be isolated from all but the drops.
Anywhere else they are its own rules, and the allows of the prefixes that are peered or read back,
if each has the number that its place gives it. -/
def Keeps (parse6 : String → Option (Block 128)) (r : Reading) (s : Subnet) (rule : Rule) : Prop :=
  if (vpcRole s).isSome then rule.priority ∉ [isolationPriorityDrop, mgmtDenyPriority]
  else if s.cidrBlock = "" ∨ r.targets s = [] then
    rule.action ≠ "drop" ∨ (buildMgmtDenyAcls r.mgmt).any (aboutSame rule) = true
  else rule ∈ rulePair "allow-related" s.cidrBlock isolationPriorityOwn ∨
    rule ∈ dropAcls (r.targets s) ∨ rule ∈ buildMgmtDenyAcls r.mgmt ∨
    ∃ shared ∈ sharedFrom parse6 r.supernet s.acls, ∃ c ∈ shared ++ r.peered s.vpc, c ≠ "" ∧
      rule ∈ rulePair "allow-related" c
        (isolationPriorityShared + place (shared ++ r.peered s.vpc) c)

instance (parse6 : String → Option (Block 128)) (r : Reading) (s : Subnet) :
    DecidablePred (Keeps parse6 r s) := fun rule => by
  unfold Keeps
  infer_instance

/-- A pass is about to replace the list of a Subnet: no request has come to that since the pass has
read it, and those of the rules on it that requests have put there are of the kinds it keeps. -/
structure Spared (parse6 : String → Option (Block 128)) (st : State ι) (name : String) (r : Reading)
    (s : Subnet) (since : Nat) : Prop where
  apart : ∀ e ∈ st.log.drop since, ¬ e.requested name
  kept : ∀ rule ∈ s.acls, .added name rule ∈ st.log → .removed name rule ∉ st.log →
    Keeps parse6 r s rule

instance (parse6 : String → Option (Block 128)) (st : State ι) (name : String) (r : Reading)
    (s : Subnet) (since : Nat) : Decidable (Spared parse6 st name r s since) :=
  decidable_of_iff ((∀ e ∈ st.log.drop since, ¬ e.requested name) ∧
    ∀ rule ∈ s.acls, .added name rule ∈ st.log → .removed name rule ∉ st.log →
      Keeps parse6 r s rule) ⟨fun h => ⟨h.1, h.2⟩, fun h => ⟨h.apart, h.kept⟩⟩

/-- The list that a pass is about to replace, with what the pass has read, and when. -/
def replacing (parse6 : String → Option (Block 128)) (st : State ι) :
    Input ι → Option (String × Reading × Subnet × Nat)
  | .call i false =>
    match st.phase i with
    | .passing r ((name, s) :: _) since =>
      match rewrite parse6 r s with
      | .patched _ => some (name, r, s, since)
      | _ => none
    | _ => none
  | _ => none

/-- Where a pass replaces a list, it comes between no request, and what requests have put there is
of the kinds that it keeps. -/
def Sparing (parse6 : String → Option (Block 128)) (st : State ι) (input : Input ι) : Prop :=
  ∀ w ∈ replacing parse6 st input, Spared parse6 st w.1 w.2.1 w.2.2.1 w.2.2.2

instance (parse6 : String → Option (Block 128)) (st : State ι) (input : Input ι) :
    Decidable (Sparing parse6 st input) :=
  inferInstanceAs (Decidable (∀ w ∈ replacing parse6 st input,
    Spared parse6 st w.1 w.2.1 w.2.2.1 w.2.2.2))

/-- A rule whose addition was acknowledged is on the list unless a request has deleted it; a
deletion that was acknowledged took effect; and a rule that no pass has come up with is not on the
list more often than additions and deletions have left it there. -/
structure NothingLost (init : Store Subnet) (st : State ι) : Prop where
  added : ∀ i name rule, st.phase i = .added name rule → .removed name rule ∉ st.log →
    ∃ item, st.subnets.lookup name = some item ∧ rule ∈ item.value.acls
  deleted : ∀ i name rule, st.phase i = .deleted name rule →
    .removed name rule ∈ st.log ∨ .missed name rule ∈ st.log
  left : ∀ name rule, .derived name rule ∉ st.log →
    copies st.subnets name rule ≤ remaining name rule (copies init name rule) st.log

end Condition

section Steps

variable {r : Reading} {acls : List Rule} {name other : String} {rule : Rule} {n : Nat}
  {more : List Logged} {subnets : Store Subnet} {v : Nat}

theorem remaining_append : remaining name rule n (log ++ more) =
    remaining name rule (remaining name rule n log) more := by
  rw [remaining, remaining, remaining, foldl_append]

theorem remaining_added (new : Rule) : remaining name rule n (log ++ [.added name new]) =
    remaining name rule n log + if new = rule then 1 else 0 := by
  rw [remaining_append]
  by_cases h : new = rule <;> simp [remaining, h]

theorem remaining_removed (gone : Rule) : remaining name rule n (log ++ [.removed name gone]) =
    remaining name rule n log - if gone = rule then 1 else 0 := by
  rw [remaining_append]
  by_cases h : gone = rule <;> simp [remaining, h]

theorem remaining_missed (gone : Rule) : remaining name rule n (log ++ [.missed name gone]) =
    if gone = rule then 0 else remaining name rule n log := by
  rw [remaining_append]
  by_cases h : gone = rule <;> simp [remaining, h]

theorem remaining_derived (rules : List Rule) :
    remaining name rule n (rules.map (.derived other)) = n := by
  induction rules with
  | nil => rfl
  | cons first rest ih => exact ih

theorem remaining_of_other (h : ∀ e ∈ log, e.name ≠ name) : remaining name rule n log = n := by
  induction log generalizing n with
  | nil => rfl
  | cons e rest ih =>
    have hname := h e mem_cons_self
    have hskip : remaining name rule n (e :: rest) = remaining name rule n rest := by
      cases e with
      | derived other rule' => rfl
      | added other rule' | removed other rule' | missed other rule' =>
        have hother : ¬ other = name := hname
        simp [remaining, hother]
    rw [hskip, ih fun e' he' => h e' (mem_cons_of_mem e he')]

theorem copies_insert (s : Subnet) : copies (subnets.insert other ⟨v, s⟩) name rule =
    if name = other then s.acls.count rule else copies subnets name rule := by
  by_cases h : name = other
  · subst h
    simp [copies]
  · simp [copies, h]

theorem writes_of_patched (h : rewrite parse6 r s = .patched acls) : acls = writes parse6 r s := by
  cases hrole : vpcRole s with
  | some role =>
    rw [rewrite] at h
    split at h
    · cases h
    · simp only [hrole, isSome_some, if_true] at h
      rw [of_patchUnlessSame h, writes, hrole]
      rfl
  | none =>
    rw [rewrite_eq hrole] at h
    rw [writes, hrole]
    simp only [isSome_none, Bool.false_eq_true, if_false]
    split at h
    · cases h
    · cases hshared : sharedFrom parse6 r.supernet s.acls with
      | none =>
        rw [hshared] at h
        cases h
      | some shared =>
        simp only [hshared] at h ⊢
        split at h
        · next hnone =>
          rw [if_pos hnone]
          exact of_patchUnlessSame h
        · next hsome =>
          rw [if_neg hsome]
          split at h
          · exact (Outcome.patched.inj h).symm
          · cases h

theorem remaining_of_unrequested (h : ∀ e ∈ more, ¬ e.requested name) :
    remaining name rule n (log ++ more) = remaining name rule n log := by
  rw [remaining_append]
  induction more with
  | nil => rfl
  | cons e rest ih =>
    have hskip : remaining name rule (remaining name rule n log) (e :: rest) =
        remaining name rule (remaining name rule n log) rest := by
      have hnot := h e mem_cons_self
      cases e with
      | derived other rule' => rfl
      | added other rule' | removed other rule' | missed other rule' =>
        have hother : ¬ other = name := hnot
        simp [remaining, hother]
    rw [hskip, ih fun e' he' => h e' (mem_cons_of_mem e he')]

/-- In a list that increases strictly, each has as many before it as are smaller. -/
theorem mem_zipIdx_of_sorted {l : List String} (h : l.Pairwise (· < ·)) {c : String} (hc : c ∈ l)
    (k : Nat) : (c, k + (l.filter (· < c)).length) ∈ l.zipIdx k := by
  induction l generalizing k with
  | nil => cases hc
  | cons a rest ih =>
    obtain ⟨hfirst, hrest⟩ := pairwise_cons.mp h
    rw [zipIdx_cons]
    obtain rfl | hmem := mem_cons.mp hc
    · have hnone : (c :: rest).filter (· < c) = [] := by
        refine filter_eq_nil_iff.mpr fun d hd hlt => ?_
        obtain rfl | hd := mem_cons.mp hd
        · exact lt_irrefl _ (of_decide_eq_true hlt)
        · exact lt_asymm (hfirst d hd) (of_decide_eq_true hlt)
      rw [hnone]
      exact mem_cons_self
    · have hlength : ((a :: rest).filter (· < c)).length = 1 + (rest.filter (· < c)).length := by
        rw [filter_cons, if_pos (decide_eq_true (hfirst c hmem)), length_cons, Nat.add_comm]
      rw [hlength, ← Nat.add_assoc]
      exact mem_cons_of_mem _ (ih hrest hmem (k + 1))

theorem mem_sharedAcls_of_place {cidrs : List String} {c : String} (hc : c ∈ cidrs) (hne : c ≠ "")
    (h : rule ∈ rulePair "allow-related" c (isolationPriorityShared + place cidrs c)) :
    rule ∈ sharedAcls (sortedSet cidrs) := by
  have hperm : ((sortedSet cidrs).filter (· ≠ "")).Perm (cidrs.dedup.filter (· ≠ "")) :=
    (perm_insertionSort _ _).filter _
  have hsorted : ((sortedSet cidrs).filter (· ≠ "")).Pairwise (· < ·) := by
    have hle := (pairwise_insertionSort (· ≤ ·) cidrs.dedup).filter (· ≠ "")
    have hne := hperm.nodup_iff.mpr ((nodup_dedup cidrs).filter _)
    exact (hle.and hne).imp fun hab => lt_of_le_of_ne hab.1 hab.2
  have hmem : c ∈ (sortedSet cidrs).filter (· ≠ "") :=
    mem_filter.mpr ⟨mem_sortedSet.mpr hc, decide_eq_true hne⟩
  have hplace : place cidrs c = (((sortedSet cidrs).filter (· ≠ "")).filter (· < c)).length := by
    rw [(hperm.filter _).length_eq, filter_filter, place]
    refine congrArg List.length (filter_congr fun d _ => ?_)
    rw [Bool.decide_and, Bool.and_comm]
  have hindex := mem_zipIdx_of_sorted hsorted hmem 0
  rw [Nat.zero_add, ← hplace] at hindex
  exact mem_flatMap.mpr ⟨_, hindex, h⟩

theorem mem_writes_of_keeps {parse6 : String → Option (Block 128)}
    (hpatched : rewrite parse6 r s = .patched acls) (hrule : rule ∈ s.acls)
    (h : Keeps parse6 r s rule) : rule ∈ writes parse6 r s := by
  unfold Keeps at h
  unfold writes
  split at h
  · next hrole =>
    rw [if_pos hrole]
    exact mem_filter.mpr ⟨hrule, decide_eq_true h⟩
  next hrole =>
  obtain ⟨shared, hshared, -⟩ :=
    of_rewrite_eq_patched hpatched (not_isSome_iff_eq_none.mp hrole)
  simp only [if_neg hrole, hshared]
  split at h
  · next hnone =>
    rw [if_pos hnone, retire]
    refine mem_append_left _ (mem_filter.mpr ⟨hrule, ?_⟩)
    simpa using h
  · next hsome =>
    rw [if_neg hsome]
    simp only [Reading.rules, mem_append]
    obtain hown | hdrop | hmgmt | ⟨shared', hread, c, hc, hne, hpair⟩ := h
    · exact .inl (.inl (.inl hown))
    · exact .inl (.inr hdrop)
    · exact .inr hmgmt
    · obtain rfl := mem_unique hshared hread
      exact .inl (.inl (.inr (mem_sharedAcls_of_place hc hne hpair)))

theorem nodup_sharedAcls (cidrs : List String) : (sharedAcls cidrs).Nodup := by
  refine nodup_flatMap.mpr ⟨fun p _ => by simp [rulePair], ?_⟩
  have hindices : ((cidrs.filter (· ≠ "")).zipIdx.map Prod.snd).Pairwise (· < ·) := by
    rw [zipIdx_map_snd]
    exact pairwise_lt_range'
  refine (pairwise_map.mp hindices).imp fun {p q} hlt rule hp hq => ?_
  have hpriority := (of_mem_rulePair hp).2.symm.trans (of_mem_rulePair hq).2
  have hlt : p.2 < q.2 := hlt
  omega

/-- Of a rule that it has read and not come up with, a pass writes no more than it has read. -/
theorem count_writes_le {parse6 : String → Option (Block 128)} (h : rule ∉ derived parse6 r s) :
    (writes parse6 r s).count rule ≤ s.acls.count rule := by
  by_cases hwrites : rule ∈ writes parse6 r s
  · have hnot : ¬ _ := fun hown => h (mem_filter.mpr ⟨hwrites, decide_eq_true hown⟩)
    obtain ⟨hread, howed⟩ := not_or.mp hnot
    have hread : rule ∈ s.acls := not_not.mp hread
    unfold writes at hwrites ⊢
    split
    · exact filter_sublist.count_le rule
    next hrole =>
    rw [if_neg hrole] at hwrites
    cases hshared : sharedFrom parse6 r.supernet s.acls with
    | none => exact Nat.zero_le _
    | some shared =>
      have howed : rule ∉ owed r s shared := by
        intro hown
        exact howed ⟨not_isSome_iff_eq_none.mp hrole ▸ rfl, by
          rw [hshared]; exact decide_eq_true hown⟩
      unfold owed at howed
      dsimp only
      split
      · next hnone =>
        rw [if_pos hnone] at howed
        rw [retire, count_append, count_eq_zero_of_not_mem
          fun hmgmt => howed (mem_of_mem_filter hmgmt)]
        exact filter_sublist.count_le rule
      · next hsome =>
        simp only [if_neg hsome, mem_append, not_or] at howed
        obtain ⟨⟨⟨hown, -⟩, hdrop⟩, hmgmt⟩ := howed
        simp only [Reading.rules, count_append, count_eq_zero_of_not_mem hown,
          count_eq_zero_of_not_mem hdrop, count_eq_zero_of_not_mem hmgmt]
        have hone := nodup_iff_count_le_one.mp (nodup_sharedAcls (r.exceptions s shared)) rule
        have hthere : 0 < s.acls.count rule := count_pos_iff.mpr hread
        omega
  · rw [count_eq_zero_of_not_mem hwrites]
    exact Nat.zero_le _

end Steps

section Runs

variable {cfg : Settings} {st st' : State ι} {input : Input ι} {i : ι} {phase : Phase}
  {failed : Bool} {name : String} {init : Store Subnet}

/-- The list of a Subnet, where so much has been done: the rules are on it that requests have put
there, and others no more often than they are left. -/
structure AsLeft (init : Store Subnet) (log : List Logged) (name : String) (acls : List Rule) :
    Prop where
  added : ∀ rule, .added name rule ∈ log → .removed name rule ∉ log → rule ∈ acls
  left : ∀ rule, .derived name rule ∉ log →
    acls.count rule ≤ remaining name rule (copies init name rule) log

/-- What is known of a request that has got as far as this. -/
def Knows (init : Store Subnet) (st : State ι) : Phase → Prop
  | .trying edit left => 0 < left ∧ ∃ item, st.subnets.lookup edit.name = some item
  | .writing edit _ item acls =>
    (∃ item, st.subnets.lookup edit.name = some item) ∧
      st.subnets.Known st.clock edit.name item ∧ edit.mutate item.value.acls = some acls
  | .confirming name rule | .added name rule => .added name rule ∈ st.log
  | .deleted name rule => .removed name rule ∈ st.log ∨ .missed name rule ∈ st.log
  | .passing _ items since => since ≤ st.log.length ∧
    ∀ item ∈ items, AsLeft init (st.log.take since) item.1 item.2.acls
  | _ => True

/-- No Subnet goes, what was read is told by its version, and what is on record stays there. -/
structure Later (st st' : State ι) : Prop where
  there : ∀ name, (∃ item, st.subnets.lookup name = some item) →
    ∃ item, st'.subnets.lookup name = some item
  known : ∀ name item, st.subnets.Known st.clock name item → st'.subnets.Known st'.clock name item
  log : st.log <+: st'.log

theorem Later.knows (h : Later st st') (hknows : Knows init st phase) : Knows init st' phase := by
  have hlog {e : Logged} (he : e ∈ st.log) : e ∈ st'.log := h.log.subset he
  cases phase with
  | trying edit left => exact ⟨hknows.1, h.there _ hknows.2⟩
  | writing edit left item acls => exact ⟨h.there _ hknows.1, h.known _ _ hknows.2.1, hknows.2.2⟩
  | confirming name rule => exact hlog hknows
  | added name rule => exact hlog hknows
  | deleted name rule => exact hknows.imp hlog hlog
  | passing r items since =>
    obtain ⟨more, hmore⟩ := h.log
    refine ⟨hknows.1.trans h.log.length_le, fun item hitem => ?_⟩
    rw [← hmore, take_append_of_le_length hknows.1]
    exact hknows.2 item hitem
  | asked _ | refused | passed => trivial

theorem later_write (st : State ι) (name : String) (s : Subnet) (log : List Logged) :
    Later st (st.write name s log) where
  there other := by
    rintro ⟨item, hitem⟩
    by_cases hother : other = name
    · subst hother
      exact ⟨_, AList.lookup_insert _⟩
    · exact ⟨item, (AList.lookup_insert_ne hother).trans hitem⟩
  known other item h := h.insert s
  log := prefix_append _ _

theorem mem_listed {subnets : Store Subnet} {item : String × Subnet} (h : item ∈ listed subnets) :
    ∃ found, subnets.lookup item.1 = some found ∧ found.value = item.2 := by
  obtain ⟨e, he, rfl⟩ := mem_map.mp ((mem_insertionSort _).mp h)
  exact ⟨e.2, AList.mem_lookup_iff.mpr he, rfl⟩

/-- A step of a request changes no list, or finds that there is no such rule to delete, or writes a
list computed from the one that it replaces, or is a pass's write. -/
theorem call_cases [DecidableEq ι] (htimely : st.subnets.Timely st.clock)
    (hleft : ∀ name item, st.subnets.lookup name = some item →
      AsLeft init st.log name item.value.acls)
    (hknows : Knows init st phase) (h : call parse6 cfg st i failed phase = some st') :
    (∃ phase', Knows init st phase' ∧ st' = st.go i phase') ∨
    (∃ edit left item, phase = .trying edit (left + 1) ∧
      st.subnets.lookup edit.name = some item ∧ edit.mutate item.value.acls = none ∧
      st' = { st with log := st.log ++ edit.idle }.go i edit.finish) ∨
    (∃ edit left item acls, phase = .writing edit left item acls ∧
      st.subnets.lookup edit.name = some item ∧ edit.mutate item.value.acls = some acls ∧
      st' = (st.write edit.name { item.value with acls := acls } [edit.logged]).go i edit.finish) ∨
    ∃ r name s rest since acls current, phase = .passing r ((name, s) :: rest) since ∧
      failed = false ∧
      rewrite parse6 r s = .patched acls ∧ st.subnets.lookup name = some current ∧
      st' = (st.write name { current.value with acls := acls }
        ((derived parse6 r s).map (.derived name))).go i (.passing r rest since) := by
  have hgo {phase' : Phase} (heq : some (st.go i phase') = some st')
      (hphase : Knows init st phase') : ∃ phase', Knows init st phase' ∧ st' = st.go i phase' :=
    ⟨phase', hphase, (some.inj heq).symm⟩
  cases phase with
  | asked request =>
    cases request with
    | addSubnetAcl name rule =>
      rw [call] at h
      split at h
      · exact .inl (hgo h trivial)
      · next hfound =>
        obtain ⟨-, hfound⟩ := not_or.mp hfound
        exact .inl (hgo h ⟨by decide, ne_none_iff_exists'.mp hfound⟩)
    | deleteSubnetAcl name index =>
      rw [call] at h
      split at h
      · exact .inl (hgo h trivial)
      · split at h
        · exact .inl (hgo h trivial)
        · next item hitem =>
          split at h
          · exact .inl (hgo h trivial)
          · split at h
            · exact .inl (hgo h trivial)
            · exact .inl (hgo h ⟨by decide, item, hitem⟩)
    | reconcileIsolationAcls vpcs nodes =>
      rw [call] at h
      split at h
      · exact .inl (hgo h trivial)
      · refine .inl (hgo h ⟨le_rfl, fun item hitem => ?_⟩)
        obtain ⟨found, hfound, heq⟩ := mem_listed (mem_of_mem_filter hitem)
        rw [take_length, ← heq]
        exact hleft item.1 found hfound
  | trying edit left =>
    cases left with
    | zero => exact absurd hknows.1 (lt_irrefl 0)
    | succ left =>
      rw [call] at h
      split at h
      · exact .inl (hgo h trivial)
      · split at h
        · next hnone =>
          obtain ⟨item, hitem⟩ := hknows.2
          rw [hnone] at hitem
          cases hitem
        · next item hitem =>
          split at h
          · next hidle =>
            exact .inr (.inl ⟨edit, left, item, rfl, hitem, hidle, (some.inj h).symm⟩)
          · next acls hacls =>
            exact .inl (hgo h ⟨⟨item, hitem⟩, htimely.known hitem, hacls⟩)
  | writing edit left item acls =>
    obtain ⟨hthere, hknown, hacls⟩ := hknows
    rw [call] at h
    split at h
    · exact .inl (hgo h trivial)
    · split at h
      · exact .inl (hgo h trivial)
      · next current hcurrent =>
        split at h
        · next hversion =>
          -- the version is that of the read, and so is the list
          obtain rfl := hknown.2 current hcurrent hversion
          exact .inr (.inr (.inl ⟨edit, left, current, acls, rfl, hcurrent, hacls,
            (some.inj h).symm⟩))
        · split at h
          · next hleft => exact .inl (hgo h ⟨hleft, hthere⟩)
          · exact .inl (hgo h trivial)
  | confirming name rule =>
    rw [call] at h
    split at h
    · exact .inl (hgo h trivial)
    · exact .inl (hgo h hknows)
  | passing r items since =>
    cases items with
    | nil => exact .inl (hgo h trivial)
    | cons first rest =>
      obtain ⟨name, s⟩ := first
      rw [call] at h
      split at h
      · exact .inl (hgo h trivial)
      · exact .inl (hgo h ⟨hknows.1, fun item hitem => hknows.2 item (mem_cons_of_mem _ hitem)⟩)
      · next acls hacls =>
        split at h
        · exact .inl (hgo h trivial)
        · next hfailed =>
          split at h
          · exact .inl (hgo h trivial)
          · next current hcurrent =>
            exact .inr (.inr (.inr ⟨r, name, s, rest, since, acls, current, rfl,
              Bool.not_eq_true _ ▸ hfailed, hacls, hcurrent, (some.inj h).symm⟩))
  | added name rule => cases h
  | deleted name rule => cases h
  | refused => cases h
  | passed => cases h

structure Sound (init : Store Subnet) (st : State ι) : Prop where
  timely : st.subnets.Timely st.clock
  knows : ∀ i, Knows init st (st.phase i)
  added : ∀ name rule, .added name rule ∈ st.log → .removed name rule ∉ st.log →
    ∃ item, st.subnets.lookup name = some item ∧ rule ∈ item.value.acls
  left : ∀ name rule, .derived name rule ∉ st.log →
    copies st.subnets name rule ≤ remaining name rule (copies init name rule) st.log

namespace Sound

section

variable (h : Sound init st)

include h

theorem go [DecidableEq ι] (hphase : Knows init st phase) : Sound init (st.go i phase) where
  timely := h.timely
  knows j := by
    by_cases hj : j = i
    · subst hj
      simpa [State.go, Knows] using hphase
    · simpa [State.go, Knows, hj] using h.knows j
  added := h.added
  left := h.left

theorem asLeft {item : Versioned Subnet} (hitem : st.subnets.lookup name = some item) :
    AsLeft init st.log name item.value.acls where
  added rule hadd hkeep := by
    obtain ⟨found, hfound, hrule⟩ := h.added name rule hadd hkeep
    obtain rfl := mem_unique hitem hfound
    exact hrule
  left rule hno := by
    have hle := h.left name rule hno
    rwa [copies, hitem, map_some, getD_some] at hle

theorem write (hlog : ∀ e ∈ log, e.name = name)
    (hadded : ∀ rule, .added name rule ∈ st.log ++ log → .removed name rule ∉ st.log ++ log →
      rule ∈ s.acls) (hleft : ∀ rule, .derived name rule ∉ st.log ++ log →
      s.acls.count rule ≤ remaining name rule (copies init name rule) (st.log ++ log)) :
    Sound init (st.write name s log) where
  timely := h.timely.insert s
  knows j := (later_write st name s log).knows (h.knows j)
  added other rule hadd hkeep := by
    by_cases hother : other = name
    · subst hother
      exact ⟨_, AList.lookup_insert _, hadded rule hadd hkeep⟩
    · have hadd' : .added other rule ∈ st.log := by
        obtain hold | hnew := mem_append.mp hadd
        · exact hold
        · exact absurd (hlog _ hnew) hother
      obtain ⟨item, hitem, hrule⟩ := h.added other rule hadd' fun hremoved =>
        hkeep (mem_append_left _ hremoved)
      exact ⟨item, (AList.lookup_insert_ne hother).trans hitem, hrule⟩
  left other rule hno := by
    simp only [State.write, copies_insert]
    by_cases hother : other = name
    · subst hother
      rw [if_pos rfl]
      exact hleft rule hno
    · rw [if_neg hother, remaining_append, remaining_of_other fun e he hsame => hother
        (hsame.symm.trans (hlog e he))]
      exact h.left other rule fun hold => hno (mem_append_left _ hold)

theorem edit {edit : Edit} {item : Versioned Subnet} {acls : List Rule}
    (hitem : st.subnets.lookup edit.name = some item)
    (hacls : edit.mutate item.value.acls = some acls) :
    Sound init (st.write edit.name { item.value with acls := acls } [edit.logged]) := by
  have hcopies (rule : Rule) : copies st.subnets edit.name rule = item.value.acls.count rule := by
    simp [copies, hitem]
  -- what was on the list before, as far as it is on record
  have hbefore {rule : Rule} (hadd : .added edit.name rule ∈ st.log)
      (hkeep : .removed edit.name rule ∉ st.log) : rule ∈ item.value.acls := by
    obtain ⟨found, hfound, hrule⟩ := h.added edit.name rule hadd hkeep
    obtain rfl := mem_unique hitem hfound
    exact hrule
  cases edit with
  | add name new =>
    change st.subnets.lookup name = some item at hitem
    change ∀ rule, copies st.subnets name rule = _ at hcopies
    obtain rfl := some.inj hacls
    change Sound init (st.write name _ [.added name new])
    refine h.write (fun e he => mem_singleton.mp he ▸ rfl) ?_ ?_
    · intro rule hadd hkeep
      obtain hadd | hadd := mem_append.mp hadd
      · exact mem_append_left _ (hbefore hadd fun hremoved => hkeep (mem_append_left _ hremoved))
      · obtain rfl : rule = new := by simpa using hadd
        exact mem_append_right _ mem_cons_self
    · intro rule hno
      have hle := h.left name rule fun hold => hno (mem_append_left _ hold)
      rw [hcopies] at hle
      rw [remaining_added, count_append, count_singleton]
      simp only [beq_iff_eq]
      exact Nat.add_le_add_right hle _
  | remove name gone =>
    change st.subnets.lookup name = some item at hitem
    change ∀ rule, copies st.subnets name rule = _ at hcopies
    rw [Edit.mutate] at hacls
    split at hacls
    · next hmem =>
      obtain rfl := some.inj hacls
      change Sound init (st.write name _ [.removed name gone])
      refine h.write (fun e he => mem_singleton.mp he ▸ rfl) ?_ ?_
      · intro rule hadd hkeep
        have hadd : .added name rule ∈ st.log := by simpa using hadd
        have hrule : rule ≠ gone := by
          rintro rfl
          exact hkeep (mem_append_right _ mem_cons_self)
        exact (mem_erase_of_ne hrule).mpr
          (hbefore hadd fun hremoved => hkeep (mem_append_left _ hremoved))
      · intro rule hno
        have hle := h.left name rule fun hold => hno (mem_append_left _ hold)
        rw [hcopies] at hle
        rw [remaining_removed, count_erase]
        simp only [beq_iff_eq]
        exact Nat.sub_le_sub_right hle _
    · cases hacls

theorem missed {item : Versioned Subnet} {gone : Rule}
    (hitem : st.subnets.lookup name = some item) (hgone : gone ∉ item.value.acls) :
    Sound init { st with log := st.log ++ [.missed name gone] } where
  timely := h.timely
  knows j := by
    have hlater : Later st { st with log := st.log ++ [.missed name gone] } :=
      ⟨fun _ hthere => hthere, fun _ _ hknown => hknown, prefix_append _ _⟩
    exact hlater.knows (h.knows j)
  added other rule hadd hkeep :=
    h.added other rule (by simpa using hadd) fun hremoved => hkeep (mem_append_left _ hremoved)
  left other rule hno := by
    have hle := h.left other rule fun hold => hno (mem_append_left _ hold)
    by_cases hother : other = name
    · subst hother
      rw [remaining_missed]
      split
      · next hrule =>
        subst hrule
        have hcopies : copies st.subnets other gone = 0 := by
          simp [copies, hitem, count_eq_zero_of_not_mem hgone]
        exact hcopies.le
      · exact hle
    · rw [remaining_append, remaining_of_other]
      · exact hle
      · intro e he hsame
        obtain rfl := mem_singleton.mp he
        exact hother hsame.symm

theorem replace {r : Reading} {items : List (String × Subnet)} {since : Nat} {acls : List Rule}
    {current : Versioned Subnet} (hknows : Knows init st (.passing r ((name, s) :: items) since))
    (hpatched : rewrite parse6 r s = .patched acls) (hspared : Spared parse6 st name r s since) :
    Sound init (st.write name { current.value with acls := writes parse6 r s }
      ((derived parse6 r s).map (.derived name))) := by
  have hread := hknows.2 _ mem_cons_self
  have hlog : st.log.take since ++ st.log.drop since = st.log := take_append_drop since _
  have honly {e : Logged} (he : e ∈ (derived parse6 r s).map (.derived name)) :
      ∃ rule ∈ derived parse6 r s, e = .derived name rule := by
    obtain ⟨rule, hrule, rfl⟩ := mem_map.mp he
    exact ⟨rule, hrule, rfl⟩
  refine h.write (fun e he => ?_) (fun rule hadd hkeep => ?_) fun rule hno => ?_
  · obtain ⟨rule, -, rfl⟩ := honly he
    rfl
  · have hadd : .added name rule ∈ st.log := by
      obtain hold | hnew := mem_append.mp hadd
      · exact hold
      · obtain ⟨_, _, heq⟩ := honly hnew
        cases heq
    have hkeep : .removed name rule ∉ st.log := fun hremoved =>
      hkeep (mem_append_left _ hremoved)
    -- it was added before the pass read the list
    have hbefore : .added name rule ∈ st.log.take since := by
      obtain hold | hnew := mem_append.mp (hlog.symm ▸ hadd)
      · exact hold
      · exact absurd rfl (hspared.apart _ hnew)
    have hrule := hread.added rule hbefore fun hremoved => hkeep (mem_of_mem_take hremoved)
    exact mem_writes_of_keeps hpatched hrule (hspared.kept rule hrule hadd hkeep)
  · have hnot : rule ∉ derived parse6 r s := fun hown =>
      hno (mem_append_right _ (mem_map_of_mem hown))
    have hbefore : .derived name rule ∉ st.log.take since := fun hold =>
      hno (mem_append_left _ (mem_of_mem_take hold))
    rw [remaining_append, remaining_derived, ← hlog, remaining_of_unrequested hspared.apart]
    exact (count_writes_le hnot).trans (hread.left rule hbefore)

theorem next [DecidableEq ι] (hcond : Sparing parse6 st input)
    (hstep : SubnetAcls.next parse6 cfg st input = some st') : Sound init st' := by
  cases input with
  | call i failed =>
    obtain ⟨phase', hphase, rfl⟩ | ⟨edit, left, item, -, hitem, hidle, rfl⟩ |
      ⟨edit, left, item, acls, -, hitem, hacls, rfl⟩ |
      ⟨r, name, s, rest, since, acls, current, hphase, rfl, hrewrite, hcurrent, rfl⟩ :=
      call_cases h.timely (fun _ _ => h.asLeft) (h.knows i) hstep
    · exact h.go hphase
    · cases edit with
      | add name new => cases hidle
      | remove name gone =>
        have hgone : gone ∉ item.value.acls := by
          rw [Edit.mutate] at hidle
          split at hidle
          · cases hidle
          · next hnot => exact hnot
        refine (h.missed hitem hgone).go ?_
        exact .inr (mem_append_right _ mem_cons_self)
    · refine (h.edit hitem hacls).go ?_
      cases edit with
      | add name new => exact mem_append_right _ mem_cons_self
      | remove name gone => exact .inl (mem_append_right _ mem_cons_self)
    · have hreplacing : replacing parse6 st (.call i false) = some (name, r, s, since) := by
        simp only [replacing, hphase, hrewrite]
      have hknows := hphase ▸ h.knows i
      rw [writes_of_patched hrewrite]
      refine (h.replace hknows hrewrite (hcond _ hreplacing)).go ?_
      refine (later_write st name _ _).knows ?_
      exact ⟨hknows.1, fun item hitem => hknows.2 item (mem_cons_of_mem _ hitem)⟩
  | change name s =>
    obtain ⟨current, hcurrent, rfl⟩ := map_eq_some_iff.mp hstep
    have hcopies (rule : Rule) : copies st.subnets name rule = current.value.acls.count rule := by
      simp [copies, hcurrent]
    refine h.write (fun e he => absurd he not_mem_nil) (fun rule hadd hkeep => ?_)
      fun rule hno => ?_
    · rw [append_nil] at hadd hkeep
      obtain ⟨found, hfound, hrule⟩ := h.added name rule hadd hkeep
      obtain rfl := mem_unique hcurrent hfound
      exact hrule
    · rw [append_nil] at hno ⊢
      exact hcopies rule ▸ h.left name rule hno

end

end Sound

/-- Before anything is asked. -/
def State.start (clock : Nat) (subnets : Store Subnet) (requests : ι → Request) : State ι :=
  ⟨clock, subnets, fun i => .asked (requests i), []⟩

theorem sound_start {clock : Nat} (htimely : init.Timely clock) (requests : ι → Request) :
    Sound init (.start clock init requests) where
  timely := htimely
  knows _ := trivial
  added _ _ hadd := absurd hadd not_mem_nil
  left _ _ _ := le_rfl

/-- However the calls of any number of requests and passes are interleaved, and whatever else about
the Subnets others change meanwhile: as long as no request comes to a list between a pass's reading
and its writing, and adds only rules of the kinds that passes keep, no rule is lost. -/
theorem nothing_lost [DecidableEq ι] {clock : Nat} (htimely : init.Timely clock)
    {requests : ι → Request}
    (hrun : Run (next parse6 cfg) (Sparing parse6) (.start clock init requests) st) :
    NothingLost init st := by
  have hsound : Sound init st :=
    hrun.invariant (sound_start htimely requests) fun h hcond hstep => h.next hcond hstep
  exact {
    added := fun i name rule hphase hkeep => by
      have hknows := hsound.knows i
      rw [hphase] at hknows
      exact hsound.added name rule hknows hkeep
    deleted := fun i name rule hphase => by
      have hknows := hsound.knows i
      rw [hphase] at hknows
      exact hknows
    left := hsound.left }

end Runs

/-- Prefixes that the network may reach. -/
def gitAllow : Rule := ⟨"allow-related", "from-lport", "ip4.dst == 10.200.0.0/24", 3100⟩

def denyDns : Rule := ⟨"drop", "from-lport", "udp.dst == 53", 2500⟩

def webOnly : Store Subnet :=
  AList.insert "web-default"
    ⟨1, ⟨"web-default", "web", "", "10.16.1.0/24", false, "", "", "", "", []⟩⟩ ∅

/-- A rule is added, a pass runs, and a rule is deleted. -/
def webRequests (rule : Rule) : Fin 3 → Request
  | 0 => .addSubnetAcl "web-default" rule
  | 1 => .reconcileIsolationAcls (some []) (some [])
  | 2 => .deleteSubnetAcl "web-default" 0

/-- The pass starts when the rule has been added, and the other one is deleted during the pass. -/
def webInOrder : List (Input (Fin 3)) :=
  [.call 0 false, .call 0 false, .call 0 false, .call 0 false, .call 1 false, .call 1 false,
    .call 2 false, .call 2 false, .call 2 false, .call 1 false]

/-- The pass reads the lists, the rule is added, and the pass writes. -/
def webOverlapping : List (Input (Fin 3)) :=
  [.call 1 false, .call 0 false, .call 0 false, .call 0 false, .call 0 false, .call 1 false]

theorem timely_webOnly : webOnly.Timely 1 := Store.timely_empty.insert _

def webSettings : Settings := ⟨"10.16.0.0/12", true, "192.168.196.0/24"⟩

/-- The requests have ended well. -/
def Phase.acknowledged : Phase → Bool
  | .added .. | .deleted .. => true
  | _ => false

theorem nothing_lost_web : ∃ t : State (Fin 3),
    Run (next (fun _ => none) webSettings) (Sparing fun _ => none)
      (.start 1 webOnly (webRequests gitAllow)) t ∧
    ((t.phase 0).acknowledged && (t.phase 2).acknowledged) = true ∧ NothingLost webOnly t := by
  have hplay : (play (next (fun _ => none) webSettings) (Sparing fun _ => none)
      (.start 1 webOnly (webRequests gitAllow)) webInOrder).any
      (fun t => (t.phase 0).acknowledged && (t.phase 2).acknowledged) = true := by decide +kernel
  obtain ⟨t, hrun, hdone⟩ := exists_run_of_play _ hplay
  exact ⟨t, hrun, hdone, nothing_lost timely_webOnly hrun⟩

/-- The first request's addition was acknowledged, nobody deleted the rule, and it is not there. -/
def losesFirst (t : State (Fin 3)) : Bool :=
  match t.phase 0 with
  | .added name rule => t.subnets.lookup name |>.any fun item =>
    decide (.removed name rule ∉ t.log ∧ rule ∉ item.value.acls)
  | _ => false

theorem not_nothingLost_of_losesFirst {t : State (Fin 3)} (h : losesFirst t = true) :
    ¬ NothingLost webOnly t := by
  intro hkept
  rw [losesFirst] at h
  split at h
  · next name rule hphase =>
    obtain ⟨item, hitem, hlost⟩ := (any_eq_true _ _).mp h
    obtain ⟨hkeep, hgone⟩ := of_decide_eq_true hlost
    obtain ⟨found, hfound, hrule⟩ := hkept.added 0 name rule hphase hkeep
    obtain rfl := mem_unique hitem hfound
    exact hgone hrule
  · cases h

/-- A pass that has read the lists before loses the rule, and one that reads them afterwards loses
a rule that it does not know. -/
theorem not_nothing_lost_web :
    (∃ t : State (Fin 3), Run (next (fun _ => none) webSettings) (fun _ _ => True)
      (.start 1 webOnly (webRequests gitAllow)) t ∧ ¬ NothingLost webOnly t) ∧
    ∃ t : State (Fin 3), Run (next (fun _ => none) webSettings) (fun _ _ => True)
      (.start 1 webOnly (webRequests denyDns)) t ∧ ¬ NothingLost webOnly t := by
  have hoverlapping : (play (next (fun _ => none) webSettings) (fun _ _ => True)
      (.start 1 webOnly (webRequests gitAllow)) webOverlapping).any losesFirst = true := by
    decide +kernel
  have hinOrder : (play (next (fun _ => none) webSettings) (fun _ _ => True)
      (.start 1 webOnly (webRequests denyDns)) webInOrder).any losesFirst = true := by
    decide +kernel
  obtain ⟨t, hrun, hlost⟩ := exists_run_of_play _ hoverlapping
  obtain ⟨u, hrun', hlost'⟩ := exists_run_of_play _ hinOrder
  exact ⟨⟨t, hrun, not_nothingLost_of_losesFirst hlost⟩,
    u, hrun', not_nothingLost_of_losesFirst hlost'⟩

end SubnetAcls
