import KubevirtUi.Acl.Evaluate
import Mathlib.Data.List.Sort
import Mathlib.Data.Prod.Lex
import Mathlib.Data.String.Basic

/-!
# The rule list composed for a tenant subnet

One drop for the whole tenant supernet, exceptions carved above it, and the
management deny meant to stand above everything. `render` also returns the
tenant networks that the supernet does not contain and that therefore had to be
denied one by one.
-/

namespace Acl

open Go Go.Netip List

def priorityMgmtDeny : Int := 3300
def priorityOwn : Int := 3200
def priorityException : Int := 3100
def priorityDrop : Int := 3000

/-- Everything the list is derived from. -/
structure Input where
  subnetCIDR : String
  supernet : String
  tenantCIDRs : List String
  peerCIDRs : List String
  sharedCIDRs : List String
  mgmtCIDRs : List String
  manual : List Rule
  isolated : Bool
  role : String
  deriving DecidableEq

/-- The loop of `dedupe`: trim each text, keep the first of its kind and no
empty one. -/
def dedupeFrom (seen : List String) : List String → List String
  | [] => []
  | v :: rest =>
    let v := trimSpace v
    if v = "" ∨ v ∈ seen then dedupeFrom seen rest
    else v :: dedupeFrom (v :: seen) rest

def dedupe (xs : List String) : List String := dedupeFrom [] xs

def without (xs : List String) (drop : String) : List String := xs.filter (· ≠ drop)

/-- The containment check: tenant networks the aggregate does not cover. -/
def outside (supernet : String) (tenants : List String) (self : String) : List String :=
  if supernet = "" then dedupe (without tenants self)
  else match parsePrefix supernet with
  | none => dedupe (without tenants self)
  | some aggregate =>
    (dedupe (without tenants self)).filter fun cidr =>
      match parsePrefix cidr with
      -- unparseable: name it rather than assume it is covered
      | none => true
      | some p => !aggregate.overlaps p || p.bits < aggregate.bits

/-- The comparison of `normalise`. -/
def Rule.less (a b : Rule) : Bool :=
  if a.priority ≠ b.priority then b.priority < a.priority
  else if a.direction ≠ b.direction then a.direction < b.direction
  else if a.action ≠ b.action then a.action < b.action
  else a.matchExpr < b.matchExpr

/-- A fixed order for a list nothing else orders. -/
def normalise (rules : List Rule) : List Rule :=
  rules.insertionSort fun a b => !b.less a

/-- `Equal`: two lists compared as sets. -/
def equal (a b : List Rule) : Bool :=
  let x := normalise a
  let y := normalise b
  if x.length ≠ y.length then false else (x.zip y).all fun pair => pair.1 = pair.2

/-- `known[r]++` for every rule of the list. -/
def counted (rules : List Rule) : Rule → Nat :=
  rules.foldl (fun known r => Function.update known r (known r + 1)) fun _ => 0

/-- The loop of `Unaccounted`: each known rule is crossed out once. -/
def unknownFrom (known : Rule → Nat) : List Rule → List Rule
  | [] => []
  | r :: rest =>
    if known r > 0 then unknownFrom (Function.update known r (known r - 1)) rest
    else r :: unknownFrom known rest

/-- `Unaccounted`: every live rule that the composer did not produce. -/
def unaccounted (live rendered : List Rule) : List Rule :=
  normalise (unknownFrom (counted rendered) live)

/-- The two rules about one prefix, one for each direction. -/
def rulePair (action cidr : String) (priority : Int) : List Rule :=
  [⟨action, "from-lport", "ip4.dst == " ++ cidr, priority⟩,
    ⟨action, "to-lport", "ip4.src == " ++ cidr, priority⟩]

/-- The management deny, in one direction only. -/
def mgmtRule (cidr : String) : Rule :=
  ⟨"drop", "to-lport", "ip4.src == " ++ cidr, priorityMgmtDeny⟩

/-- The targets of the floor, and the networks named because the supernet does
not contain them. -/
def floors (i : Input) : List String × List String :=
  let outOfRange := outside i.supernet i.tenantCIDRs i.subnetCIDR
  ((if i.supernet ≠ "" then [i.supernet] else []) ++ outOfRange, outOfRange)

/-- The rules of an isolated network, before the manual ones. -/
def isolationRules (i : Input) : List Rule :=
  (if i.subnetCIDR ≠ "" then rulePair "allow-related" i.subnetCIDR priorityOwn else []) ++
  -- each shared prefix takes its own number upward from the exception band
  ((dedupe i.sharedCIDRs).zipIdx.flatMap fun (shared, k) =>
    rulePair "allow-related" shared (priorityException + k)) ++
  (((dedupe i.peerCIDRs).filter (· ≠ i.subnetCIDR)).flatMap fun peer =>
    rulePair "allow-related" peer priorityException) ++
  ((dedupe (floors i).1).flatMap fun target => rulePair "drop" target priorityDrop)

/-- The whole list, and the tenant networks denied individually. -/
def render (i : Input) : List Rule × List String :=
  if i.role ≠ "" then (normalise i.manual, [])
  else
    let mgmt := (dedupe i.mgmtCIDRs).map mgmtRule
    if !i.isolated then (normalise (mgmt ++ i.manual), [])
    else (normalise (mgmt ++ isolationRules i ++ i.manual), (floors i).2)

theorem mem_normalise {rules : List Rule} {rule : Rule} : rule ∈ normalise rules ↔ rule ∈ rules :=
  (perm_insertionSort _ rules).mem_iff

/-- On texts that need no trimming, `dedupe` keeps exactly the texts it is given. -/
theorem mem_dedupeFrom {seen xs : List String} {v : String}
    (h : ∀ x ∈ xs, trimSpace x = x ∧ x ≠ "") : v ∈ dedupeFrom seen xs ↔ v ∈ xs ∧ v ∉ seen := by
  induction xs generalizing seen with
  | nil => simp [dedupeFrom]
  | cons x xs ih =>
    have hx := h x (by simp)
    have hxs : ∀ y ∈ xs, trimSpace y = y ∧ y ≠ "" := fun y hy => h y (by simp [hy])
    simp only [dedupeFrom, hx.1, hx.2, false_or]
    split
    · rename_i hseen
      rw [ih hxs]
      grind
    · rename_i hseen
      rw [mem_cons, ih hxs]
      grind

theorem mem_dedupe {xs : List String} {v : String}
    (h : ∀ x ∈ xs, trimSpace x = x ∧ x ≠ "") : v ∈ dedupe xs ↔ v ∈ xs := by
  simp [dedupe, mem_dedupeFrom h]

theorem dedupeFrom_of_nodup {seen xs : List String} (h : ∀ x ∈ xs, trimSpace x = x ∧ x ≠ "")
    (hnodup : xs.Nodup) (hseen : ∀ x ∈ xs, x ∉ seen) : dedupeFrom seen xs = xs := by
  induction xs generalizing seen with
  | nil => rfl
  | cons x xs ih =>
    have hx := h x (by simp)
    obtain ⟨hnot, hrest⟩ := nodup_cons.mp hnodup
    simp only [dedupeFrom, hx.1, hx.2, false_or, if_neg (hseen x (by simp))]
    rw [ih (fun y hy => h y (by simp [hy])) hrest]
    intro y hy
    have hyx : y ≠ x := by
      rintro rfl
      exact hnot hy
    simp [hyx, hseen y (by simp [hy])]

theorem dedupe_of_nodup {xs : List String} (h : ∀ x ∈ xs, trimSpace x = x ∧ x ≠ "")
    (hnodup : xs.Nodup) : dedupe xs = xs :=
  dedupeFrom_of_nodup h hnodup (by simp)

section Order

variable {a b : Rule} {rules rules' : List Rule} {texts texts' seen : List String} {v : String}

/-- The comparison goes by one key after the other. -/
def Rule.key (rule : Rule) : Lex (Int × Lex (String × Lex (String × String))) :=
  toLex (-rule.priority, toLex (rule.direction, toLex (rule.action, rule.matchExpr)))

theorem less_iff_key : a.less b = true ↔ Rule.key a < Rule.key b := by
  simp only [Rule.less, Rule.key, Prod.Lex.toLex_lt_toLex]
  by_cases hpriority : a.priority = b.priority
  · by_cases hdirection : a.direction = b.direction
    · by_cases haction : a.action = b.action
      · simp [hpriority, hdirection, haction]
      · simp [hpriority, hdirection, haction]
    · simp [hpriority, hdirection]
  · simp [hpriority]

theorem key_injective : Function.Injective Rule.key := by
  intro a b h
  simp only [Rule.key, toLex_inj, Prod.mk.injEq, neg_inj] at h
  obtain ⟨hpriority, hdirection, haction, hmatch⟩ := h
  cases a
  cases b
  simp_all

theorem pairwise_normalise (rules : List Rule) :
    (normalise rules).Pairwise fun a b => Rule.key a ≤ Rule.key b := by
  have hkey (a b : Rule) : (!b.less a) = true ↔ Rule.key a ≤ Rule.key b := by
    rw [Bool.not_eq_true', ← Bool.not_eq_true, less_iff_key, not_lt]
  have hsorted := @List.pairwise_insertionSort _ (fun a b : Rule => (!b.less a) = true) _
    ⟨fun a b => by rw [hkey, hkey]; exact le_total _ _⟩
    ⟨fun a b c => by rw [hkey, hkey, hkey]; exact le_trans⟩ rules
  exact hsorted.imp fun h => (hkey _ _).mp h

theorem normalise_eq_iff : normalise rules = normalise rules' ↔ rules.Perm rules' := by
  constructor
  · intro h
    have hleft : rules.Perm (normalise rules) := (perm_insertionSort _ rules).symm
    have hright : (normalise rules').Perm rules' := perm_insertionSort _ rules'
    exact (h ▸ hleft).trans hright
  · intro h
    have hsorted : (normalise rules).Perm (normalise rules') :=
      ((perm_insertionSort _ rules).trans h).trans (perm_insertionSort _ rules').symm
    refine hsorted.eq_of_pairwise ?_ (pairwise_normalise rules) (pairwise_normalise rules')
    intro a b _ _ hab hba
    exact key_injective (le_antisymm hab hba)

theorem mem_dedupeFrom_iff :
    v ∈ dedupeFrom seen texts ↔ v ≠ "" ∧ v ∉ seen ∧ ∃ x ∈ texts, trimSpace x = v := by
  induction texts generalizing seen with
  | nil => simp [dedupeFrom]
  | cons x rest ih =>
    rw [dedupeFrom]
    split
    · next hskip =>
      rw [ih]
      constructor
      · rintro ⟨hne, hnot, y, hy, rfl⟩
        exact ⟨hne, hnot, y, mem_cons_of_mem x hy, rfl⟩
      · rintro ⟨hne, hnot, y, hy, rfl⟩
        obtain rfl | hy := mem_cons.mp hy
        · exact absurd hskip (by simp [hne, hnot])
        · exact ⟨hne, hnot, y, hy, rfl⟩
    · next hkeep =>
      rw [not_or] at hkeep
      rw [mem_cons, ih]
      constructor
      · rintro (rfl | ⟨hne, hnot, y, hy, rfl⟩)
        · exact ⟨hkeep.1, hkeep.2, x, mem_cons_self, rfl⟩
        · exact ⟨hne, fun hseen => hnot (mem_cons_of_mem _ hseen), y, mem_cons_of_mem x hy, rfl⟩
      · rintro ⟨hne, hnot, y, hy, rfl⟩
        obtain rfl | hy := mem_cons.mp hy
        · exact .inl rfl
        · by_cases hsame : trimSpace y = trimSpace x
          · exact .inl hsame
          · exact .inr ⟨hne, by simp [hsame, hnot], y, hy, rfl⟩

theorem mem_dedupe_iff : v ∈ dedupe texts ↔ v ≠ "" ∧ ∃ x ∈ texts, trimSpace x = v := by
  simp [dedupe, mem_dedupeFrom_iff]

theorem nodup_dedupeFrom (seen texts : List String) : (dedupeFrom seen texts).Nodup := by
  induction texts generalizing seen with
  | nil => exact nodup_nil
  | cons x rest ih =>
    rw [dedupeFrom]
    split
    · exact ih seen
    · refine nodup_cons.mpr ⟨fun hmem => ?_, ih _⟩
      exact (mem_dedupeFrom_iff.mp hmem).2.1 mem_cons_self

theorem equal_iff : equal rules rules' = true ↔ rules.Perm rules' := by
  rw [← normalise_eq_iff, equal]
  split
  · next hlength =>
    simp only [Bool.false_eq_true, false_iff]
    intro hsame
    exact hlength (congrArg List.length hsame)
  · next hlength =>
    rw [not_not] at hlength
    rw [all_eq_true]
    constructor
    · intro hall
      apply ext_getElem hlength
      intro k hk hk'
      have hpair : ((normalise rules)[k], (normalise rules')[k]) ∈
          (normalise rules).zip (normalise rules') := by
        rw [← getElem_zip (h := by simpa using ⟨hk, hk'⟩)]
        exact getElem_mem _
      simpa using hall _ hpair
    · intro hsame pair hpair
      rw [← hsame] at hpair
      obtain ⟨k, hk, rfl⟩ := mem_iff_getElem.mp hpair
      simp

theorem counted_eq_count (rules : List Rule) (r : Rule) : counted rules r = rules.count r := by
  have hfold (known : Rule → Nat) :
      rules.foldl (fun known r => Function.update known r (known r + 1)) known r =
        known r + rules.count r := by
    induction rules generalizing known with
    | nil => rfl
    | cons first rest ih =>
      rw [foldl_cons, ih, count_cons]
      by_cases hfirst : first = r
      · subst hfirst
        rw [Function.update_self, if_pos (beq_self_eq_true _)]
        omega
      · rw [Function.update_of_ne (Ne.symm hfirst), if_neg (by simpa using hfirst)]
        omega
  rw [counted, hfold, Nat.zero_add]

theorem count_unknownFrom (known : Rule → Nat) (r : Rule) :
    (unknownFrom known rules).count r = rules.count r - known r := by
  induction rules generalizing known with
  | nil => simp [unknownFrom]
  | cons first rest ih =>
    rw [unknownFrom, count_cons]
    by_cases hfirst : first = r
    · subst hfirst
      rw [if_pos (beq_self_eq_true _)]
      split
      · rw [ih, Function.update_self]
        omega
      · rw [count_cons_self, ih]
        omega
    · have hother : (first == r) = false := beq_false_of_ne hfirst
      rw [hother, if_neg Bool.false_ne_true]
      split
      · rw [ih, Function.update_of_ne (Ne.symm hfirst)]
        omega
      · rw [count_cons_of_ne hfirst, ih]
        omega

theorem count_unaccounted (live rendered : List Rule) (r : Rule) :
    (unaccounted live rendered).count r = live.count r - rendered.count r := by
  have hperm : (unaccounted live rendered).Perm (unknownFrom (counted rendered) live) :=
    perm_insertionSort _ _
  rw [hperm.count_eq, count_unknownFrom, counted_eq_count]

theorem unaccounted_eq_nil_iff {live rendered : List Rule} :
    unaccounted live rendered = [] ↔ ∀ r, live.count r ≤ rendered.count r := by
  rw [eq_nil_iff_forall_not_mem]
  refine forall_congr' fun r => ?_
  rw [← count_eq_zero, count_unaccounted]
  omega

end Order

end Acl
