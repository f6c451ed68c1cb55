import KubevirtUi.Peering.Link
import Mathlib.Tactic.NormNum.Basic

/-!
# Handing out links

The allocator walks the pool four addresses at a time and takes the first /30 not
in use, for sixty-two of them at most. A text in use is compared as text, after
it has been brought to the spelling of its network: a /30 in use is never handed
out, while a wider or a narrower network in use hides nothing of the pool.
-/

namespace Peering

open Go Go.Netip

/-- The pool. -/
def pool : Prefix := .v4 ⟨0xA9FE6500#32, 24, Block.le_bits_24⟩

/-- The `i`-th /30 of the pool. -/
def poolLink (i : Nat) : Prefix := .v4 ⟨BitVec.ofNat 32 (0xA9FE6500 + 4 * i), 30, Block.le_bits_30⟩

theorem parsePrefix_linkBase : parsePrefix linkBase = some pool := by decide

theorem walk_step : ∀ i ∈ List.range 63, candidateAt (poolLink i).addr = prefixString (poolLink i) ∧
      Addr.next4 (poolLink i).addr = (poolLink (i + 1)).addr ∧
      pool.contains (poolLink (i + 1)).addr = true := by
  have hwalk : ∀ i ∈ List.range 63,
      (prefixFrom (poolLink i).addr 30).map Prefix.masked = some (poolLink i) ∧
        Addr.next4 (poolLink i).addr = (poolLink (i + 1)).addr ∧
        pool.contains (poolLink (i + 1)).addr = true := by decide
  intro i hi
  obtain ⟨hcandidate, hrest⟩ := hwalk i hi
  refine ⟨?_, hrest⟩
  obtain ⟨p, hp, hmasked⟩ := Option.map_eq_some_iff.mp hcandidate
  rw [candidateAt, hp]
  exact congrArg prefixString hmasked

variable {used : List String} {p : Prefix} {i : Nat} {link : Link} {u : String}

theorem mem_takenTexts : prefixString p ∈ takenTexts used ↔
      ∃ u ∈ used, ∃ q, parsePrefix (trimSpace u) = some q ∧ q.masked = p := by
  simp only [takenTexts, List.mem_filterMap, Option.map_eq_some_iff]
  constructor
  · rintro ⟨u, hu, q, hq, htext⟩
    exact ⟨u, hu, q, hq, prefixString_injective htext⟩
  · rintro ⟨u, hu, q, hq, rfl⟩
    exact ⟨u, hu, q, hq, rfl⟩

theorem parse_poolLink (i : Nat) :
    parse (prefixString (poolLink i)) = .ok (Link.ofPrefix (poolLink i)) :=
  parse_eq_ok_iff.mpr ⟨poolLink i, parsePrefix_prefixString _, le_rfl, rfl⟩

/-- The rest of the walk, from the `i`-th /30 on: it stops at the first one not in
use, or all of them are. -/
theorem allocateFrom_poolLink (taken : List String) {n : Nat} (hi : i + n ≤ 63) :
    (∃ j, i ≤ j ∧ j < i + n ∧ prefixString (poolLink j) ∉ taken ∧
      allocateFrom pool taken n (poolLink i).addr = .ok (Link.ofPrefix (poolLink j))) ∨
    ((∀ j, i ≤ j → j < i + n → prefixString (poolLink j) ∈ taken) ∧
      allocateFrom pool taken n (poolLink i).addr = .error .exhausted) := by
  induction n generalizing i with
  | zero => exact .inr ⟨fun j _ _ => by omega, rfl⟩
  | succ n ih =>
    obtain ⟨hcandidate, hnext, hin⟩ := walk_step i (List.mem_range.mpr (by omega))
    rw [allocateFrom, hcandidate, hnext, if_pos hin]
    by_cases hfree : prefixString (poolLink i) ∉ taken
    · rw [if_pos hfree, parse_poolLink]
      exact .inl ⟨i, le_rfl, by omega, hfree, rfl⟩
    · rw [if_neg hfree]
      rw [not_not] at hfree
      obtain ⟨j, hle, hlt, hj, hok⟩ | ⟨hall, herror⟩ := ih (i := i + 1) (by omega)
      · exact .inl ⟨j, by omega, by omega, hj, hok⟩
      · refine .inr ⟨fun j hle hlt => ?_, herror⟩
        obtain rfl | hle' := Nat.eq_or_lt_of_le hle
        · exact hfree
        · exact hall j hle' (by omega)

theorem allocate_eq (used : List String) :
    allocate used = allocateFrom pool (takenTexts used) 62 (poolLink 0).addr := by
  rw [allocate, parsePrefix_linkBase]
  rfl

/-- What is handed out is one of the first sixty-two /30s and not in use. -/
theorem allocate_eq_ok (h : allocate used = .ok link) :
    ∃ i < 62, link = Link.ofPrefix (poolLink i) ∧ prefixString (poolLink i) ∉ takenTexts used := by
  rw [allocate_eq] at h
  rcases allocateFrom_poolLink (takenTexts used) (n := 62) (i := 0) (by omega) with
    ⟨i, -, hi, hfree, hok⟩ | ⟨-, herror⟩
  · exact ⟨i, by omega, (Except.ok.inj (hok.symm.trans h)).symm, hfree⟩
  · rw [herror] at h
    contradiction

theorem allocate_eq_error {e : LinkError} (h : allocate used = .error e) :
    ∀ i < 62, prefixString (poolLink i) ∈ takenTexts used := by
  rw [allocate_eq] at h
  rcases allocateFrom_poolLink (takenTexts used) (n := 62) (i := 0) (by omega) with
    ⟨i, -, -, -, hok⟩ | ⟨hall, -⟩
  · rw [hok] at h
    contradiction
  · exact fun i hi => hall i (Nat.zero_le i) (by omega)

/-- A network in use that the allocator can see: a /30, or away from the pool. -/
def Seen (p : Prefix) : Prop := p.bits = 30 ∨ p.overlaps pool = false

instance (p : Prefix) : Decidable (Seen p) := inferInstanceAs (Decidable (_ ∨ _))

theorem poolLink_masked : ∀ i < 62, (poolLink i).masked = poolLink i := by decide

theorem ofPrefix_poolLink_cidr (hi : i < 62) :
    (Link.ofPrefix (poolLink i)).cidr = prefixString (poolLink i) :=
  congrArg prefixString (poolLink_masked i hi)

theorem overlaps_pool_of_poolLink (hi : i < 62) (h : p.overlaps (poolLink i) = true) :
    p.overlaps pool = true := by
  cases p with
  | v6 p => simp [poolLink, Prefix.overlaps] at h
  | v4 p =>
    have hinside : ∀ i < 62, Block.Agree 24 (BitVec.ofNat 32 (0xA9FE6500 + 4 * i))
        (0xA9FE6500#32) := by decide
    simp only [poolLink, pool, Prefix.overlaps, decide_eq_true_eq] at h ⊢
    obtain hle | hle := Nat.le_total p.bits 24
    · rw [Nat.min_eq_left (by omega)] at h ⊢
      exact h.trans ((hinside i hi).mono hle)
    · rw [Nat.min_eq_right hle]
      exact (h.mono (by omega)).trans (hinside i hi)

theorem masked_eq_of_overlaps {q : Prefix} (hbits : p.bits = q.bits) (h : p.overlaps q = true) :
    p.masked = q.masked := by
  cases p with
  | v4 p =>
    cases q with
    | v4 q =>
      simp only [Prefix.overlaps, decide_eq_true_eq, ← Block.overlaps_iff_agree] at h
      exact congrArg Prefix.v4 ((Block.overlaps_iff_masked_eq hbits).mp h)
    | v6 q => simp [Prefix.overlaps] at h
  | v6 p =>
    cases q with
    | v4 q => simp [Prefix.overlaps] at h
    | v6 q =>
      simp only [Prefix.overlaps, decide_eq_true_eq, ← Block.overlaps_iff_agree] at h
      exact congrArg Prefix.v6 ((Block.overlaps_iff_masked_eq hbits).mp h)

/-- Nothing is trimmed from the text of a network of the pool's family. -/
theorem trimSpace_of_parsePrefix {p : Block 32} (hp : parsePrefix u = some (.v4 p)) :
    trimSpace u = u := by
  rw [trimSpace, trimChars_of_forall (isSpace_of_parsePrefix_v4 hp), String.ofList_toList]

/-- With the first sixty-two /30s in use there is nothing left to hand out. -/
theorem allocate_exhausted (h : ∀ i < 62, prefixString (poolLink i) ∈ used) :
    allocate used = .error .exhausted := by
  rw [allocate_eq]
  rcases allocateFrom_poolLink (takenTexts used) (n := 62) (i := 0) (by omega) with
    ⟨i, -, hi, hfree, -⟩ | ⟨-, herror⟩
  · refine absurd (mem_takenTexts.mpr ⟨_, h i (by omega), poolLink i, ?_, ?_⟩) hfree
    · have hparse : parsePrefix (prefixString (poolLink i)) = some (poolLink i) :=
        parsePrefix_prefixString _
      rw [trimSpace_of_parsePrefix hparse, hparse]
    · exact poolLink_masked i (by omega)
  · exact herror

/-- What is handed out overlaps nothing in use that the allocator can see. -/
theorem not_cidrsOverlap_of_allocate (h : allocate used = .ok link) (hu : u ∈ used)
    (hseen : ∀ p, parsePrefix u = some p → Seen p) : ¬ cidrsOverlap u link.cidr := by
  rintro ⟨p, q, hp, hq, hover⟩
  obtain ⟨i, hi, rfl, hfree⟩ := allocate_eq_ok h
  rw [ofPrefix_poolLink_cidr hi, parsePrefix_prefixString, Option.some.injEq] at hq
  subst hq
  obtain hbits | hoff := hseen p hp
  · cases p with
    | v6 p => simp [poolLink, Prefix.overlaps] at hover
    | v4 p =>
      refine hfree (mem_takenTexts.mpr ⟨u, hu, .v4 p, by rw [trimSpace_of_parsePrefix hp, hp], ?_⟩)
      rw [masked_eq_of_overlaps (q := poolLink i) hbits hover, poolLink_masked i hi]
  · rw [overlaps_pool_of_poolLink hi hover] at hoff
    contradiction

end Peering
