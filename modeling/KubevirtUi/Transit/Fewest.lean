import KubevirtUi.Library.Largest
import KubevirtUi.Library.Loose
import KubevirtUi.Transit.Ranges

/-!
# The fewest prefixes of a range, and what is left of a prefix

Going up, the widest block that starts at an address is the largest one of the range that has the
address in it. Whatever else makes up the range has a block for each of these.

What is left of a prefix is found by halving it. That is exact if no bit of its address is set
between its own length and the length of what is taken out; the callers pass a prefix without host
bits.
-/

namespace Transit

open Go Go.Netip BitVec

variable {low high : BitVec 32} {p b : Block 32} {bs : List (Block 32)}

/-- Aligned prefixes of a range, in ascending order and each address once, and no cover of the
range by prefixes has fewer. -/
structure Fewest (low high : BitVec 32) (bs : List (Block 32)) : Prop where
  aligned : ∀ b ∈ bs, b.masked = b
  ascending : bs.Pairwise fun p q => p.base < q.base
  disjoint : bs.Pairwise fun p q => ¬p.Overlaps q
  union : ∀ x, (∃ b ∈ bs, b.Contains x) ↔ low ≤ x ∧ x ≤ high
  fewest : ∀ cs : List (Block 32),
    (∀ x, (∃ c ∈ cs, c.Contains x) ↔ low ≤ x ∧ x ≤ high) → bs.length ≤ cs.length

/-- The loop ends by itself with these prefixes. The last address of a wider prefix that would
start at one of them is computed without a carry out of the word, and so is the next address,
unless nothing is left. -/
structure Summarised (low high : BitVec 32) (bs : List (Block 32)) : Prop where
  result : summarise (.v4 low) (.v4 high) = some (bs.map Prefix.v4)
  ends : ∀ fuel, high.toNat - low.toNat < fuel → summariseFrom high fuel low = bs.map Prefix.v4
  fewest : Fewest low high bs
  mask : ∀ b ∈ bs, ∀ k ≤ 32, 2 ^ k ∣ b.base.toNat →
    (b.base + (1#32 <<< k - 1#32)).toNat = b.base.toNat + (2 ^ k - 1)
  next : ∀ b ∈ bs, b.base.toNat + b.size ≤ high.toNat →
    (b.base + 1#32 <<< (32 - b.bits)).toNat = b.base.toNat + b.size

/-- Valid prefixes, which are what is left, each address once. -/
def Subtracted (p b : Block 32) : Prop :=
  ∃ ps : List (Block 32), subtract (piece p) (.v4 b) = some (ps.map piece) ∧ Block.Exactly p b ps

theorem fewest_of_covers (h : Block.Covers high low.toNat bs) : Fewest low high bs where
  aligned := h.masked_eq
  ascending := h.ascending.2.imp_of_mem fun {p q} _ _ hpq => by
    have hpos := p.size_pos
    rw [lt_def]
    omega
  disjoint := h.disjoint
  union x := by
    rw [h.exists_mem_contains_iff, le_def, le_def]
  fewest cs hcs := by
    refine Block.length_le_of_largest (S := fun x => low ≤ x ∧ x ≤ high) ?_ h.disjoint hcs
    refine h.largest (Nat.le_refl _) (fun x => ?_) fun c hc x hx hstart => ?_
    · rw [le_def, le_def]
    · exact le_def.mp (hc _ (Block.contains_masked.mp c.masked.contains_base)).1

theorem exists_summarised (h : low ≤ high) : ∃ bs, Summarised low high bs := by
  obtain ⟨bs, -, hcovers⟩ := summariseFrom_covers (Nat.lt_succ_self (high.toNat - low.toNat))
  have hends (fuel : Nat) (hfuel : high.toNat - low.toNat < fuel) :
      summariseFrom high fuel low = bs.map Prefix.v4 := by
    obtain ⟨cs, hresult, hcs⟩ := summariseFrom_covers hfuel
    rw [hresult, hcovers.unique hcs]
  refine ⟨bs, ?_, hends, fewest_of_covers hcovers, fun b hb k hk hdvd => ?_, fun b hb hlt => ?_⟩
  · have hlt := le_def.mp h
    have hsub : (high - low).toNat = high.toNat - low.toNat := toNat_sub_of_le h
    exact congrArg some (hends _ (by rw [hsub]; exact Nat.lt_succ_self _))
  · exact toNat_add_mask hk hdvd
  · exact toNat_next (Nat.lt_of_le_of_lt hlt high.isLt)

theorem subtracted_iff : Subtracted p b ↔
    (p.Overlaps b → p.base.toNat % 2 ^ (32 - max p.bits 1) < b.size) := by
  have hresult : Subtracted p b ↔ Block.Exactly p b (Block.carve b (b.bits - p.bits) p) := by
    have hinj : Function.Injective piece := fun p q h => by
      injection h with h
      exact Prefix.v4.inj h
    simp only [Subtracted, subtract_v4, Option.some.injEq, hinj.list_map.eq_iff]
    exact exists_eq_left'
  rw [hresult]
  by_cases hoverlap : p.Overlaps b
  · simp only [hoverlap, forall_true_left]
    exact Block.exactly_carve_iff rfl hoverlap
  · refine iff_of_true ?_ fun h => absurd h hoverlap
    rw [Block.carve_of_not_overlaps hoverlap]
    refine ⟨List.pairwise_singleton _ _, fun x => ?_⟩
    simp only [List.mem_singleton, exists_eq_left]
    exact ⟨fun hx => ⟨hx, fun hbx => hoverlap ⟨x, hx, hbx⟩⟩, fun hx => hx.1⟩

/-- A range becomes the fewest prefixes, and what is left of a prefix is exact as long as no bit of
its address is set between its own length, or the first bit, and the length of what is taken out. -/
theorem ranges_exact : (∀ low high : BitVec 32, low ≤ high → ∃ bs, Summarised low high bs) ∧
      ∀ p b : Block 32, Subtracted p b ↔
        (p.Overlaps b → p.base.toNat % 2 ^ (32 - max p.bits 1) < b.size) :=
  ⟨fun _ _ h => exists_summarised h, fun _ _ => subtracted_iff⟩

/-- Of 10.0.0.200/24 without 10.0.0.0/25 a part of 10.0.1.0/24 is left. -/
theorem not_subtracted : ¬ ∀ p b : Block 32, Subtracted p b := by
  intro h
  have hhost := subtracted_iff.mp (h ⟨0x0A0000C8, 24, by decide⟩ ⟨0x0A000000, 25, by decide⟩)
    (by decide)
  revert hhost
  decide

end Transit
