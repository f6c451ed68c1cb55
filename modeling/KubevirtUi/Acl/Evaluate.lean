import KubevirtUi.Go.Netip
import KubevirtUi.Library.Ranking
import Mathlib.Algebra.Order.Ring.Int

/-!
# What a rule list does to one packet

`evaluate` reads the list the way the datapath does: among the rules of the
direction whose match is a prefix holding the address, the highest priority
wins, and no match at all lets the packet through. An allow and a drop at the
winning priority are reported as a conflict rather than resolved.

The verdict depends on the rules as a set of votes, which is what the lemmas
below say; nothing later unfolds the loop.
-/

namespace Acl

open Go Go.Netip Ranking

/-- One entry of `Subnet.spec.acls`. -/
structure Rule where
  action : String
  direction : String
  matchExpr : String
  priority : Int
  deriving DecidableEq

/-- What a rule list does to one packet. -/
inductive Verdict where
  | allowed
  | dropped
  | conflicted
  deriving DecidableEq

/-- The one match shape the product writes: `ip4.src == <cidr>` and
`ip4.dst == <cidr>`. Anything else is not guessed at. -/
def matchPrefix (matchExpr : String) : Option Prefix := do
  let (field, cidr) ← splitN2 matchExpr "=="
  let field := trimSpace field
  if field ≠ "ip4.src" ∧ field ≠ "ip4.dst" then none
  else parsePrefix (trimSpace cidr)

/-- The rule speaks about this address in this direction. -/
def Rule.applies (rule : Rule) (source : Addr) (direction : String) : Bool :=
  rule.direction = direction && (matchPrefix rule.matchExpr).any (·.contains source)

/-- A rule as a vote: everything that is not a drop is an allow. -/
def Rule.vote (rule : Rule) : Vote Int := ⟨rule.priority, rule.action = "drop"⟩

/-- Highest priority wins, no match means allowed. -/
def evaluate (rules : List Rule) (source : Addr) (direction : String) : Verdict :=
  let tally := rules.foldl (fun tally rule =>
    if rule.applies source direction then tally.cast rule.vote else tally) (Tally.start (-1))
  if tally.pro && tally.con then .conflicted
  else if tally.con then .dropped
  else .allowed

/-- Some rule that applies has this priority and this side. -/
def HasVote (rules : List Rule) (source : Addr) (direction : String)
    (priority : Int) (drop : Bool) : Prop :=
  ∃ rule ∈ rules, rule.applies source direction = true ∧ rule.vote = ⟨priority, drop⟩

/-- A side has a vote that no rule applying to the packet outranks. -/
def Decides (rules : List Rule) (source : Addr) (direction : String) (drop : Bool) : Prop :=
  ∃ p, -1 ≤ p ∧ HasVote rules source direction p drop ∧
    ∀ q side, HasVote rules source direction q side → q ≤ p

variable {p : Int} {x : Addr}

section Verdict

variable {rules : List Rule} {source : Addr} {direction : String}

private theorem foldl_applies (t : Tally Int) : rules.foldl (fun tally rule =>
      if rule.applies source direction then tally.cast rule.vote else tally) t =
    ((rules.filter (·.applies source direction)).map Rule.vote).foldl Tally.cast t := by
  induction rules generalizing t with
  | nil => rfl
  | cons rule rules ih =>
    by_cases h : rule.applies source direction = true <;> simp [h, ih]

theorem decisive_votes_iff (drop : Bool) :
    Decisive ((rules.filter (·.applies source direction)).map Rule.vote) (-1) drop ↔
      Decides rules source direction drop := by
  simp only [Decisive, Decides, HasVote, List.mem_map, List.mem_filter]
  constructor
  · rintro ⟨_, ⟨rule, ⟨hmem, happ⟩, rfl⟩, hside, hfloor, htop⟩
    refine ⟨rule.vote.rank, hfloor, ⟨rule, hmem, happ, by simp [← hside]⟩, ?_⟩
    rintro q side ⟨other, hother, happ', hvote⟩
    simpa [hvote] using htop other.vote ⟨other, ⟨hother, happ'⟩, rfl⟩
  · rintro ⟨p, hfloor, ⟨rule, hmem, happ, hvote⟩, htop⟩
    refine ⟨rule.vote, ⟨rule, ⟨hmem, happ⟩, rfl⟩, by simp [hvote], by simpa [hvote], ?_⟩
    rintro _ ⟨other, ⟨hother, happ'⟩, rfl⟩
    simpa [hvote] using htop other.vote.rank other.vote.against ⟨other, hother, happ', rfl⟩

theorem exists_decides {drop : Bool} (hp : -1 ≤ p) (h : HasVote rules source direction p drop) :
    ∃ side, Decides rules source direction side := by
  obtain ⟨rule, hmem, happ, hvote⟩ := h
  have hcast : rule.vote ∈ (rules.filter (·.applies source direction)).map Rule.vote :=
    List.mem_map.mpr ⟨rule, List.mem_filter.mpr ⟨hmem, happ⟩, rfl⟩
  have hfloor : -1 ≤ rule.vote.rank := by simpa [hvote]
  obtain ⟨side, hside⟩ := exists_decisive hcast hfloor
  exact ⟨side, decisive_votes_iff side |>.mp hside⟩

theorem evaluate_eq_ite [Decidable (Decides rules source direction true)]
    [Decidable (Decides rules source direction false)] : evaluate rules source direction =
      if Decides rules source direction false ∧ Decides rules source direction true then
        .conflicted
      else if Decides rules source direction true then .dropped else .allowed := by
  have side (drop : Bool) : ((rules.foldl (fun tally rule =>
        if rule.applies source direction then tally.cast rule.vote else tally)
        (Tally.start (-1))).seen drop = true) ↔ Decides rules source direction drop := by
    rw [foldl_applies, seen_foldl_start, decisive_votes_iff]
  have pro := side false
  have con := side true
  simp only [Tally.seen, Bool.false_eq_true, if_false, if_true] at pro con
  simp only [evaluate, Bool.and_eq_true, pro, con]

theorem evaluate_eq_dropped (hp : -1 ≤ p) (h : HasVote rules source direction p true)
    (hallow : ∀ q, HasVote rules source direction q false → q < p) :
    evaluate rules source direction = .dropped := by
  classical
  have hfalse : ¬ Decides rules source direction false := by
    rintro ⟨q, -, hq, htop⟩
    exact absurd (hallow q hq) (not_lt.mpr (htop p true h))
  obtain ⟨side, hside⟩ := exists_decides hp h
  cases side with
  | false => exact absurd hside hfalse
  | true => rw [evaluate_eq_ite, if_neg (fun h => hfalse h.1), if_pos hside]

theorem evaluate_eq_allowed (h : HasVote rules source direction p false)
    (hdrop : ∀ q, HasVote rules source direction q true → q < p) :
    evaluate rules source direction = .allowed := by
  classical
  have htrue : ¬ Decides rules source direction true := by
    rintro ⟨q, -, hq, htop⟩
    exact absurd (hdrop q hq) (not_lt.mpr (htop p false h))
  rw [evaluate_eq_ite, if_neg (fun h => htrue h.2), if_neg htrue]

theorem evaluate_eq_allowed_of_forall_not (h : ∀ q, ¬ HasVote rules source direction q true) :
    evaluate rules source direction = .allowed := by
  classical
  have htrue : ¬ Decides rules source direction true := fun ⟨q, _, hq, _⟩ => h q hq
  rw [evaluate_eq_ite, if_neg (fun h => htrue h.2), if_neg htrue]

/-- An allow that no drop outranks keeps the verdict from being a plain drop. -/
theorem evaluate_ne_dropped (hp : -1 ≤ p) (h : HasVote rules source direction p false)
    (hdrop : ∀ q, HasVote rules source direction q true → q ≤ p) :
    evaluate rules source direction ≠ .dropped := by
  classical
  rw [evaluate_eq_ite]
  split
  · simp
  · rename_i hboth
    split
    · rename_i htrue
      obtain ⟨q, -, hq, htop⟩ := id htrue
      have hall : ∀ r side, HasVote rules source direction r side → r ≤ p :=
        fun r side hr => (htop r side hr).trans (hdrop q hq)
      exact absurd ⟨⟨p, hp, h, hall⟩, htrue⟩ hboth
    · simp

theorem evaluate_eq_conflicted (hp : -1 ≤ p) (hallow : HasVote rules source direction p false)
    (hdrop : HasVote rules source direction p true)
    (htop : ∀ q side, HasVote rules source direction q side → q ≤ p) :
    evaluate rules source direction = .conflicted := by
  classical
  rw [evaluate_eq_ite, if_pos ⟨⟨p, hp, hallow, htop⟩, ⟨p, hp, hdrop, htop⟩⟩]

end Verdict

/-- Only which votes are cast matters: neither their order nor their number. -/
theorem evaluate_congr {rules rules' : List Rule} {source : Addr} {direction : String}
    (h : ∀ p drop, HasVote rules source direction p drop ↔
      HasVote rules' source direction p drop) :
    evaluate rules source direction = evaluate rules' source direction := by
  classical
  have decides (drop : Bool) :
      Decides rules source direction drop ↔ Decides rules' source direction drop := by
    simp only [Decides, h]
  simp only [evaluate_eq_ite, decides]

/-- An address that no rule tells apart from another one has the same verdict. -/
theorem evaluate_congr_of_applies {rules : List Rule} {y : Addr} {direction : String}
    (h : ∀ rule ∈ rules, rule.applies x direction = rule.applies y direction) :
    evaluate rules x direction = evaluate rules y direction := by
  have hfold (t : Tally Int) : rules.foldl (fun tally rule =>
      if rule.applies x direction then tally.cast rule.vote else tally) t =
      rules.foldl (fun tally rule =>
        if rule.applies y direction then tally.cast rule.vote else tally) t :=
    List.foldl_ext _ _ t fun _ rule hrule => by rw [h rule hrule]
  rw [evaluate, evaluate, hfold]

theorem evaluate_of_subset_applies {rules own : List Rule} {direction : String}
    (hsub : own ⊆ rules) (h : ∀ rule ∈ rules, rule.applies x direction = true → rule ∈ own) :
    evaluate own x direction = evaluate rules x direction := by
  refine evaluate_congr fun p drop => ?_
  constructor
  · rintro ⟨rule, hrule, happ, hvote⟩
    exact ⟨rule, hsub hrule, happ, hvote⟩
  · rintro ⟨rule, hrule, happ, hvote⟩
    exact ⟨rule, h rule hrule happ, happ, hvote⟩

end Acl
