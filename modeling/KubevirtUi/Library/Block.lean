import Mathlib.Algebra.Group.Nat.Defs
import Mathlib.Tactic.Basic

/-!
# Address blocks of a fixed word width

A block is an address together with the number of leading bits that matter; the
remaining host bits of the stored address are ignored. Two addresses agree to
`n` bits when nothing above the host part distinguishes them, so membership,
masking and overlap are all statements about one equivalence relation.

The central fact is that blocks are laminar: two blocks that share an address
are nested, the one with more significant bits inside the other.
-/

namespace Block

variable {w : Nat}

/-- Equality of the leading `n` bits of two words. -/
def Agree (n : Nat) (x y : BitVec w) : Prop := x >>> (w - n) = y >>> (w - n)

instance (n : Nat) (x y : BitVec w) : Decidable (Agree n x y) :=
  inferInstanceAs (Decidable (_ = _))

namespace Agree

theorem refl (n : Nat) (x : BitVec w) : Agree n x x := rfl

theorem symm {n : Nat} {x y : BitVec w} (h : Agree n x y) : Agree n y x := Eq.symm h

theorem trans {n : Nat} {x y z : BitVec w} (h : Agree n x y) (h' : Agree n y z) :
    Agree n x z := Eq.trans h h'

theorem mono {m n : Nat} {x y : BitVec w} (h : Agree n x y) (hmn : m ≤ n) : Agree m x y := by
  have split : w - m = (w - n) + ((w - m) - (w - n)) := by omega
  unfold Agree at h ⊢
  rw [split, BitVec.shiftRight_add, BitVec.shiftRight_add, h]

end Agree

end Block

/-- An address and the number of its leading bits that are significant. -/
structure Block (w : Nat) where
  base : BitVec w
  bits : Nat
  bits_le : bits ≤ w
  deriving DecidableEq

namespace Block

theorem le_bits_22 : 22 ≤ 32 := by omega

theorem le_bits_24 : 24 ≤ 32 := by omega

theorem le_bits_30 : 30 ≤ 32 := by omega

theorem le_bits_32 : 32 ≤ 32 := Nat.le_refl 32

variable {w : Nat} {p q : Block w} {x : BitVec w}

/-- The addresses that agree with the stored one on its significant bits. -/
def Contains (p : Block w) (x : BitVec w) : Prop := Agree p.bits x p.base

instance (p : Block w) (x : BitVec w) : Decidable (p.Contains x) :=
  inferInstanceAs (Decidable (Agree _ _ _))

theorem contains_base (p : Block w) : p.Contains p.base := Agree.refl _ _

/-- Two blocks overlap when they share an address. -/
def Overlaps (p q : Block w) : Prop := ∃ x, p.Contains x ∧ q.Contains x

theorem Overlaps.symm (h : p.Overlaps q) : q.Overlaps p := by
  obtain ⟨x, hp, hq⟩ := h
  exact ⟨x, hq, hp⟩

theorem overlaps_self (p : Block w) : p.Overlaps p :=
  ⟨p.base, p.contains_base, p.contains_base⟩

/-- Overlap is decided by the stored addresses alone, at the coarser length. -/
theorem overlaps_iff_agree (p q : Block w) :
    p.Overlaps q ↔ Agree (min p.bits q.bits) p.base q.base := by
  constructor
  · rintro ⟨x, hp, hq⟩
    exact (hp.mono (Nat.min_le_left _ _)).symm.trans (hq.mono (Nat.min_le_right _ _))
  · intro h
    obtain hle | hle := Nat.le_total p.bits q.bits
    · rw [Nat.min_eq_left hle] at h
      exact ⟨q.base, h.symm, q.contains_base⟩
    · rw [Nat.min_eq_right hle] at h
      exact ⟨p.base, p.contains_base, h⟩

instance (p q : Block w) : Decidable (p.Overlaps q) :=
  decidable_of_iff _ (overlaps_iff_agree p q).symm

/-- Blocks are laminar: an overlapping block with at least as many significant
bits lies inside the other. -/
theorem Overlaps.contains (h : p.Overlaps q) (hle : p.bits ≤ q.bits)
    (hx : q.Contains x) : p.Contains x := by
  rw [overlaps_iff_agree, Nat.min_eq_left hle] at h
  exact (hx.mono hle).trans h.symm

/-- Clear the host bits of the stored address. -/
def masked (p : Block w) : Block w where
  base := (p.base >>> (w - p.bits)) <<< (w - p.bits)
  bits := p.bits
  bits_le := p.bits_le

theorem agree_masked_base (p : Block w) : Agree p.bits p.masked.base p.base := by
  apply BitVec.eq_of_getLsbD_eq
  intro i hi
  simp only [masked, BitVec.getLsbD_ushiftRight, BitVec.getLsbD_shiftLeft]
  rw [show w - p.bits + i - (w - p.bits) = i by omega]
  by_cases hw : w - p.bits + i < w
  · simp [hw]
  · simp [hw, BitVec.getLsbD_of_ge p.base _ (Nat.le_of_not_lt hw)]

@[simp] theorem contains_masked : p.masked.Contains x ↔ p.Contains x :=
  ⟨fun h => h.trans p.agree_masked_base, fun h => h.trans p.agree_masked_base.symm⟩

@[simp] theorem masked_overlaps : p.masked.Overlaps q ↔ p.Overlaps q := by
  simp only [Overlaps, contains_masked]

/-- Blocks of one length overlap exactly when they are the same block. -/
theorem overlaps_iff_masked_eq (h : p.bits = q.bits) : p.Overlaps q ↔ p.masked = q.masked := by
  rw [overlaps_iff_agree, ← h, Nat.min_self]
  constructor
  · intro hagree
    have hbase : p.masked.base = q.masked.base := by
      simp only [masked, ← h]
      rw [show p.base >>> (w - p.bits) = q.base >>> (w - p.bits) from hagree]
    cases p
    cases q
    simp_all [masked]
  · intro hmask
    have hq : Agree p.bits q.masked.base q.base := by
      rw [h]
      exact q.agree_masked_base
    rw [← hmask] at hq
    exact p.agree_masked_base.symm.trans hq

/-- The significant part of the stored address, as a multiple of the block size. -/
theorem toNat_masked_base (p : Block w) :
    p.masked.base.toNat = p.base.toNat / 2 ^ (w - p.bits) * 2 ^ (w - p.bits) := by
  have hle := Nat.div_mul_le_self p.base.toNat (2 ^ (w - p.bits))
  have hlt := p.base.isLt
  simp only [masked, BitVec.toNat_shiftLeft, BitVec.toNat_ushiftRight, Nat.shiftRight_eq_div_pow,
    Nat.shiftLeft_eq]
  exact Nat.mod_eq_of_lt (by omega)

@[simp] theorem masked_masked (p : Block w) : p.masked.masked = p.masked :=
  (overlaps_iff_masked_eq (p := p.masked) (q := p) rfl).mp (masked_overlaps.mpr p.overlaps_self)

/-- Counting up from the masked address wraps around nowhere in the block. -/
theorem toNat_masked_base_add (p : Block w) {k : Nat} (hk : k < 2 ^ (w - p.bits)) :
    (p.masked.base + BitVec.ofNat w k).toNat = p.masked.base.toNat + k := by
  have hsize : 2 ^ w = 2 ^ p.bits * 2 ^ (w - p.bits) := by
    rw [← Nat.pow_add, Nat.add_sub_cancel' p.bits_le]
  have hquot : p.base.toNat / 2 ^ (w - p.bits) < 2 ^ p.bits := by
    rw [Nat.div_lt_iff_lt_mul (Nat.two_pow_pos _), ← hsize]
    exact p.base.isLt
  have hbound : p.masked.base.toNat + k < 2 ^ w := by
    rw [toNat_masked_base, hsize]
    calc p.base.toNat / 2 ^ (w - p.bits) * 2 ^ (w - p.bits) + k
        < (p.base.toNat / 2 ^ (w - p.bits) + 1) * 2 ^ (w - p.bits) := by
          rw [Nat.add_mul, Nat.one_mul]
          omega
      _ ≤ 2 ^ p.bits * 2 ^ (w - p.bits) := Nat.mul_le_mul_right _ hquot
  rw [BitVec.toNat_add, BitVec.toNat_ofNat, Nat.mod_eq_of_lt (by omega : k < 2 ^ w),
    Nat.mod_eq_of_lt hbound]

/-- The addresses counted up from the masked one are those of the block. -/
theorem contains_masked_base_add (p : Block w) {k : Nat} (hk : k < 2 ^ (w - p.bits)) :
    p.Contains (p.masked.base + BitVec.ofNat w k) := by
  apply BitVec.eq_of_toNat_eq
  rw [BitVec.toNat_ushiftRight, BitVec.toNat_ushiftRight, toNat_masked_base_add p hk,
    toNat_masked_base, Nat.shiftRight_eq_div_pow, Nat.shiftRight_eq_div_pow, Nat.add_comm,
    Nat.add_mul_div_right _ _ (Nat.two_pow_pos _), Nat.div_eq_of_lt hk, Nat.zero_add]

theorem masked_eq_of_contains (p : Block w) (hx : p.Contains x) :
    (⟨x, p.bits, p.bits_le⟩ : Block w).masked = p.masked :=
  (overlaps_iff_masked_eq (p := ⟨x, p.bits, p.bits_le⟩) (q := p) rfl).mp
    ⟨x, Agree.refl p.bits x, hx⟩

/-- There is a next address before the end of the block. -/
theorem masked_base_add_ne_allOnes (p : Block w) {k : Nat} (hk : k + 1 < 2 ^ (w - p.bits)) :
    p.masked.base + BitVec.ofNat w k ≠ BitVec.allOnes w := by
  intro h
  have hnat := congrArg BitVec.toNat h
  have hnext := toNat_masked_base_add p hk
  have hlt := (p.masked.base + BitVec.ofNat w (k + 1)).isLt
  rw [toNat_masked_base_add p (by omega), BitVec.toNat_allOnes] at hnat
  omega

end Block
