import KubevirtUi.Isolation.Composer
import Mathlib.Data.List.Count
import Mathlib.Data.Rat.Floor

/-!
# Rule lists that are taken over

The entries of a Subnet's list are read back from an untyped object, whose numbers are of two kinds.
A list that the operator has not written is claimed if it is the composed one, in whatever order,
and is left alone otherwise.
-/

namespace Isolation.Adoption

open Acl List

/-- A value of an untyped object. -/
inductive Value where
  | string (s : String)
  | int64 (n : Int)
  | float64 (x : ℚ)
  | other

/-- An entry of `spec.acls`. -/
inductive Item where
  | object (fields : List (String × Value))
  | other

def stringOf : Option Value → String
  | some (.string s) => s
  | _ => ""

/-- A float is cut off towards zero, if it is in range. -/
def intOf : Option Value → Int
  | some (.int64 n) => n
  | some (.float64 x) => if x < 0 then ⌈x⌉ else ⌊x⌋
  | _ => 0

def readACL : Item → Option Rule
  | .object entry => some {
      action := stringOf (entry.lookup "action")
      direction := stringOf (entry.lookup "direction")
      matchExpr := stringOf (entry.lookup "match")
      priority := intOf (entry.lookup "priority") }
  | .other => none

def readACLs (items : List Item) : List Rule := items.filterMap readACL

def writeACLs (rules : List Rule) : List Item :=
  rules.map fun rule => .object [("action", .string rule.action),
    ("direction", .string rule.direction), ("match", .string rule.matchExpr),
    ("priority", .int64 rule.priority)]

structure Subnet where
  aclOwner : String
  acls : List Item

def adoptACLs (live rendered : List Rule) : Composed :=
  if Acl.unaccounted live rendered ≠ [] then .kept
  else if !equal live rendered then .kept
  else .claimed

/-- A pass that has composed a list and read the Subnet. -/
def reconcileACLs (cascadeOnDelete : Bool) (subnet : Subnet) (rendered : List Rule) : Composed :=
  let live := readACLs subnet.acls
  if subnet.aclOwner ≠ aclOwnerOperator ∧ ¬(cascadeOnDelete ∧ live.length = 0) then
    adoptACLs live rendered
  else if equal live rendered then .kept
  else .written rendered

/-- The Subnet that the pass leaves. -/
def applied (subnet : Subnet) : Composed → Subnet
  | .kept => subnet
  | .claimed => { subnet with aclOwner := aclOwnerOperator }
  | .written rules => ⟨aclOwnerOperator, writeACLs rules⟩

/-- The API server admits objects whose fields are strings, and an integer in one of two forms. -/
def Admitted : Item → Prop
  | .object fields =>
    (∀ name ∈ ["action", "direction", "match"], ∀ value, fields.lookup name = some value →
      ∃ s, value = .string s) ∧
    ∀ value, fields.lookup "priority" = some value →
      (∃ n, value = .int64 n) ∨ ∃ n : Int, value = .float64 n
  | .other => False

section Adopt

variable {live rendered a b : List Rule} {items : List Item} {subnet : Subnet}
  {cascadeOnDelete : Bool}

theorem readACLs_writeACLs (rules : List Rule) : readACLs (writeACLs rules) = rules := by
  rw [readACLs, writeACLs, filterMap_map]
  exact filterMap_some

theorem length_readACLs (h : ∀ item ∈ items, Admitted item) :
    (readACLs items).length = items.length := by
  induction items with
  | nil => rfl
  | cons item rest ih =>
    rw [forall_mem_cons] at h
    have hrest := ih h.2
    cases item with
    | other => exact h.1.elim
    | object fields =>
      rw [readACLs, filterMap_cons] at *
      exact congrArg (· + 1) hrest

theorem equal_iff_unaccounted :
    equal a b = true ↔ Acl.unaccounted a b = [] ∧ Acl.unaccounted b a = [] := by
  rw [equal_iff, perm_iff_count, unaccounted_eq_nil_iff, unaccounted_eq_nil_iff]
  constructor
  · intro h
    exact ⟨fun r => (h r).le, fun r => (h r).ge⟩
  · rintro ⟨hle, hge⟩ r
    exact Nat.le_antisymm (hle r) (hge r)

theorem adoptACLs_eq : adoptACLs live rendered =
    if equal live rendered then .claimed else .kept := by
  rw [adoptACLs]
  cases hequal : equal live rendered with
  | false => simp
  | true =>
    obtain ⟨hnone, -⟩ := equal_iff_unaccounted.mp hequal
    simp [hnone]

theorem eq_of_written {rules : List Rule}
    (h : reconcileACLs cascadeOnDelete subnet rendered = .written rules) : rules = rendered := by
  simp only [reconcileACLs, adoptACLs_eq] at h
  split at h
  · split at h <;> cases h
  · split at h
    · cases h
    · exact (Composed.written.inj h).symm

theorem reconcileACLs_of_equal (h : equal (readACLs subnet.acls) rendered = true)
    (howner : subnet.aclOwner = aclOwnerOperator) :
    reconcileACLs cascadeOnDelete subnet rendered = .kept := by
  simp [reconcileACLs, howner, h]

theorem reconcileACLs_again : reconcileACLs cascadeOnDelete
      (applied subnet (reconcileACLs cascadeOnDelete subnet rendered)) rendered = .kept := by
  have hwritten : equal (readACLs (writeACLs rendered)) rendered = true := by
    rw [readACLs_writeACLs]
    exact equal_iff.mpr (List.Perm.refl _)
  cases hpass : reconcileACLs cascadeOnDelete subnet rendered with
  | kept => exact hpass
  | written rules =>
    obtain rfl := eq_of_written hpass
    exact reconcileACLs_of_equal hwritten rfl
  | claimed =>
    refine reconcileACLs_of_equal ?_ rfl
    simp only [reconcileACLs, adoptACLs_eq] at hpass
    split at hpass
    · split at hpass
      · next hequal => exact hequal
      · cases hpass
    · split at hpass <;> cases hpass

/-- The composer's pass, over lists that are read already, is this one. -/
theorem composer_eq {cfg : ComposerConfig} {c : ComposerCluster} {f : ComposerFailed}
    {net : ManagedNetwork} {input : Input} {s : Isolation.Subnet}
    (hopen : ¬(cfg.tenantSupernet = "" ∧ net.isolated ∧ net.role = ""))
    (hinput : aclInput cfg c f net = some input) (hsubnet : (unlessFailed f.subnet c.subnets).bind
      (·.find? (·.name = defaultSubnetName net)) = some s)
    (howner : s.aclOwner = subnet.aclOwner) (hacls : s.acls = readACLs subnet.acls) :
    Isolation.reconcileACLs cfg c f net =
      reconcileACLs net.deletionDelete subnet (render input).1 := by
  have hequal (a b : List Rule) : aclEqual a b = equal a b := by
    rw [Bool.eq_iff_iff, Acl.equal_iff, aclEqual, decide_eq_true_eq, normalise_eq_iff]
  have hadopt (live rendered : List Rule) :
      Isolation.adoptACLs live rendered = adoptACLs live rendered := by
    have hnil : Isolation.unaccounted live rendered = [] ↔ Acl.unaccounted live rendered = [] := by
      have hsorted : (Isolation.unaccounted live rendered).Perm (live.diff rendered) :=
        perm_insertionSort _ _
      have hperm : (Isolation.unaccounted live rendered).Perm (Acl.unaccounted live rendered) := by
        rw [perm_iff_count]
        intro r
        rw [count_unaccounted, hsorted.count_eq, count_diff]
      rw [← length_eq_zero_iff, ← length_eq_zero_iff, hperm.length_eq]
    simp only [Isolation.adoptACLs, adoptACLs, ne_eq, hnil, hequal]
  rw [Isolation.reconcileACLs, if_neg hopen, hinput]
  dsimp only
  rw [hsubnet]
  dsimp only
  rw [howner, hacls, hadopt, hequal, reconcileACLs]
  simp only [cascadeOnDelete, length_eq_zero_iff]
  congr

/-- To take a list over changes no traffic. -/
structure AdoptsOnlyEqual (cascadeOnDelete : Bool) (subnet : Subnet) (rendered : List Rule) :
    Prop where
  /-- The list of another stays as it is. -/
  acls : subnet.aclOwner ≠ aclOwnerOperator → subnet.acls ≠ [] ∨ cascadeOnDelete = false →
    (applied subnet (reconcileACLs cascadeOnDelete subnet rendered)).acls = subnet.acls
  marked : subnet.aclOwner ≠ aclOwnerOperator → subnet.acls ≠ [] ∨ cascadeOnDelete = false →
    ((applied subnet (reconcileACLs cascadeOnDelete subnet rendered)).aclOwner = aclOwnerOperator ↔
      (readACLs subnet.acls).Perm rendered)
  equal_iff : ∀ a b, equal a b = true ↔ Acl.unaccounted a b = [] ∧ Acl.unaccounted b a = []
  readBack : ∀ rules, reconcileACLs cascadeOnDelete subnet rendered = .written rules →
    equal (readACLs (applied subnet (.written rules)).acls) rendered = true
  again : reconcileACLs cascadeOnDelete
    (applied subnet (reconcileACLs cascadeOnDelete subnet rendered)) rendered = .kept

theorem adoptsOnlyEqual (h : ∀ item ∈ subnet.acls, Admitted item) :
    AdoptsOnlyEqual cascadeOnDelete subnet rendered := by
  have hadopts (howner : subnet.aclOwner ≠ aclOwnerOperator)
      (hlist : subnet.acls ≠ [] ∨ cascadeOnDelete = false) :
      reconcileACLs cascadeOnDelete subnet rendered =
        if equal (readACLs subnet.acls) rendered then .claimed else .kept := by
    have hguard : ¬(cascadeOnDelete ∧ (readACLs subnet.acls).length = 0) := by
      rw [length_readACLs h, length_eq_zero_iff]
      rintro ⟨hcascade, hempty⟩
      obtain hne | hopen := hlist
      · exact hne hempty
      · rw [hopen] at hcascade
        cases hcascade
    rw [reconcileACLs, if_pos ⟨howner, hguard⟩, adoptACLs_eq]
  refine ⟨fun howner hlist => ?_, fun howner hlist => ?_, fun a b => equal_iff_unaccounted, ?_,
    reconcileACLs_again⟩
  · rw [hadopts howner hlist]
    split <;> rfl
  · rw [hadopts howner hlist, ← Acl.equal_iff]
    split
    · next hequal => simp [applied, hequal]
    · next hequal => simp [applied, hequal, howner]
  · intro rules hrules
    rw [applied, readACLs_writeACLs, eq_of_written hrules]
    exact Acl.equal_iff.mpr (List.Perm.refl _)

/-- A list that somebody else has written, in another order and with a float among its numbers. -/
def foreign : Subnet where
  aclOwner := ""
  acls := [
    .object [("action", .string "drop"), ("direction", .string "to-lport"),
      ("match", .string "ip4.src == 10.0.0.0/8"), ("priority", .float64 3000)],
    .object [("priority", .int64 3200), ("action", .string "allow-related"),
      ("direction", .string "to-lport"), ("match", .string "ip4.src == 10.1.0.0/24")]]

theorem adoptsOnlyEqual_foreign : AdoptsOnlyEqual true foreign
    [⟨"allow-related", "to-lport", "ip4.src == 10.1.0.0/24", 3200⟩,
      ⟨"drop", "to-lport", "ip4.src == 10.0.0.0/8", 3000⟩] := by
  apply adoptsOnlyEqual
  simp [foreign, Admitted, lookup_cons]
  exact ⟨3000, by norm_num⟩

end Adopt

end Isolation.Adoption
