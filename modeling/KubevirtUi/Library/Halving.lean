import KubevirtUi.Library.Block
import Mathlib.Data.List.Perm.Basic

/-!
# Halving blocks, and blocks that make up an interval

A block whose stored address has no host bits is an interval that starts at that address. Its
halves are the two blocks with one more significant bit, and what is left of a block without a
smaller one is found by halving it until the smaller one is reached. There are two ways to do
this, and they come to the same blocks.

Going up from the first address of an interval, each next block is the widest one that starts
where the last one ended and does not leave the interval. However the widest block is found,
the blocks are the same, and together they are the interval.
-/

namespace Block

open List

variable {w : Nat} {p b : Block w} {x : BitVec w}

/-- The number of addresses. -/
def size (p : Block w) : Nat := 2 ^ (w - p.bits)

theorem size_pos (p : Block w) : 0 < p.size := Nat.two_pow_pos _

theorem masked_eq_self_iff : p.masked = p ↔ p.size ∣ p.base.toNat := by
  have hbase := p.toNat_masked_base
  constructor
  · intro h
    rw [h] at hbase
    exact ⟨p.base.toNat / p.size, by rw [Nat.mul_comm]; exact hbase⟩
  · intro h
    have heq : p.masked.base = p.base := by
      apply BitVec.eq_of_toNat_eq
      rw [hbase]
      exact Nat.div_mul_cancel h
    cases p
    simp only [masked] at heq ⊢
    simp only [heq]

theorem contains_iff_div : p.Contains x ↔ x.toNat / p.size = p.base.toNat / p.size := by
  rw [Contains, Agree, ← BitVec.toNat_inj, BitVec.toNat_ushiftRight, BitVec.toNat_ushiftRight,
    Nat.shiftRight_eq_div_pow, Nat.shiftRight_eq_div_pow, ← size]

/-- The addresses of a block without host bits are counted up from the stored one. -/
theorem contains_iff_le_lt (hp : p.masked = p) :
    p.Contains x ↔ p.base.toNat ≤ x.toNat ∧ x.toNat < p.base.toNat + p.size := by
  obtain ⟨m, hm⟩ := masked_eq_self_iff.mp hp
  have hpos := p.size_pos
  have hdiv : p.Contains x ↔ x.toNat / p.size = m := by
    rw [contains_iff_div, hm, Nat.mul_div_cancel_left _ hpos]
  rw [hdiv, Nat.div_eq_iff hpos, hm, Nat.mul_comm p.size m]
  omega

theorem base_add_size_le (hp : p.masked = p) : p.base.toNat + p.size ≤ 2 ^ w := by
  obtain ⟨m, hm⟩ := masked_eq_self_iff.mp hp
  have hw : 2 ^ w = p.size * 2 ^ p.bits := by
    rw [size, ← Nat.pow_add, Nat.sub_add_cancel p.bits_le]
  have hlt := p.base.isLt
  rw [hm, hw] at hlt
  rw [hm, hw, ← Nat.mul_succ]
  exact Nat.mul_le_mul_left _ (Nat.lt_of_mul_lt_mul_left hlt)

section Halves

variable {h : p.bits < w}

def left (p : Block w) (h : p.bits < w) : Block w := ⟨p.base, p.bits + 1, h⟩

def right (p : Block w) (h : p.bits < w) : Block w :=
  ⟨p.base + 1#w <<< (w - (p.bits + 1)), p.bits + 1, h⟩

theorem size_eq_two_mul (h : p.bits < w) : p.size = 2 * (p.left h).size := by
  have hbits : w - p.bits = w - (p.bits + 1) + 1 := by omega
  rw [size, hbits, Nat.pow_succ']
  rfl

theorem size_right : (p.right h).size = (p.left h).size := rfl

theorem toNat_half (h : p.bits < w) : (1#w <<< (w - (p.bits + 1))).toNat = (p.left h).size := by
  have hlt : (p.left h).size < 2 ^ w := Nat.pow_lt_pow_right (by omega) (by simp only [left]; omega)
  have hone : 1 % 2 ^ w = 1 := Nat.mod_eq_of_lt (Nat.one_lt_two_pow (by omega))
  rw [BitVec.toNat_shiftLeft, BitVec.toNat_ofNat, hone, Nat.shiftLeft_eq, Nat.one_mul]
  exact Nat.mod_eq_of_lt hlt

section

variable (hp : p.masked = p)

include hp

theorem toNat_right_base : (p.right h).base.toNat = p.base.toNat + (p.left h).size := by
  have hle := base_add_size_le hp
  have hsize := size_eq_two_mul h
  have hpos := (p.left h).size_pos
  rw [right, BitVec.toNat_add, toNat_half]
  exact Nat.mod_eq_of_lt (by omega)

theorem masked_left : (p.left h).masked = p.left h := by
  have hsize : (p.left h).size ∣ p.size := ⟨2, by rw [size_eq_two_mul h, Nat.mul_comm]⟩
  exact masked_eq_self_iff.mpr (Nat.dvd_trans hsize (masked_eq_self_iff.mp hp))

theorem masked_right : (p.right h).masked = p.right h := by
  refine masked_eq_self_iff.mpr ?_
  rw [size_right, toNat_right_base hp]
  exact Nat.dvd_add (masked_eq_self_iff.mp (masked_left hp)) (Nat.dvd_refl _)

theorem contains_iff_halves : p.Contains x ↔ (p.left h).Contains x ∨ (p.right h).Contains x := by
  rw [contains_iff_le_lt hp, contains_iff_le_lt (masked_left hp),
    contains_iff_le_lt (masked_right hp), toNat_right_base hp, size_right, size_eq_two_mul h]
  have hbase : (p.left h).base = p.base := rfl
  rw [hbase]
  omega

theorem not_contains_halves : ¬((p.left h).Contains x ∧ (p.right h).Contains x) := by
  rw [contains_iff_le_lt (masked_left hp), contains_iff_le_lt (masked_right hp),
    toNat_right_base hp]
  have hbase : (p.left h).base = p.base := rfl
  rw [hbase]
  omega

theorem overlaps_halves (hb : p.bits < b.bits) (hoverlap : p.Overlaps b) :
    ((p.left h).Overlaps b ∧ ¬(p.right h).Overlaps b) ∨
      (¬(p.left h).Overlaps b ∧ (p.right h).Overlaps b) := by
  have honly (hleft : (p.left h).Overlaps b) (hright : (p.right h).Overlaps b) : False := by
    obtain ⟨x, hx, hbx⟩ := hleft
    exact not_contains_halves hp ⟨hx, hright.contains hb hbx⟩
  obtain ⟨x, hx, hbx⟩ := hoverlap
  obtain hleft | hright := (contains_iff_halves (h := h) hp).mp hx
  · exact .inl ⟨⟨x, hleft, hbx⟩, fun hright => honly ⟨x, hleft, hbx⟩ hright⟩
  · exact .inr ⟨fun hleft => honly hleft ⟨x, hright, hbx⟩, ⟨x, hright, hbx⟩⟩

end

end Halves

/-- Halve what overlaps, both halves alike: the number says how often. -/
def carve (b : Block w) : Nat → Block w → List (Block w)
  | 0, p => if p.Overlaps b then [] else [p]
  | n + 1, p =>
    if ¬p.Overlaps b then [p]
    else if h : p.bits < w then carve b n (p.left h) ++ carve b n (p.right h)
    else []

/-- Give out the half that is not affected, and go on with the other. -/
def exclude (b : Block w) : Nat → Block w → List (Block w)
  | 0, _ => []
  | n + 1, p =>
    if h : p.bits < w then
      if (p.left h).Overlaps b then p.right h :: exclude b n (p.left h)
      else p.left h :: exclude b n (p.right h)
    else []

section Without

variable {n : Nat}

theorem carve_of_not_overlaps (h : ¬p.Overlaps b) : carve b n p = [p] := by
  cases n with
  | zero => rw [carve, if_neg h]
  | succ n => rw [carve, if_pos h]

theorem masked_of_mem_carve (hp : p.masked = p) {q : Block w} (hq : q ∈ carve b n p) :
    q.masked = q := by
  induction n generalizing p with
  | zero =>
    rw [carve] at hq
    split at hq
    · contradiction
    · rwa [mem_singleton.mp hq]
  | succ n ih =>
    rw [carve] at hq
    split at hq
    · rwa [mem_singleton.mp hq]
    · split at hq
      · next h =>
        obtain hleft | hright := mem_append.mp hq
        · exact ih (masked_left hp) hleft
        · exact ih (masked_right hp) hright
      · contradiction

/-- What is left is the addresses of the one that are not of the other. -/
theorem exists_mem_carve_iff (hp : p.masked = p) (hn : n = b.bits - p.bits) :
    (∃ q ∈ carve b n p, q.Contains x) ↔ p.Contains x ∧ ¬b.Contains x := by
  by_cases hoverlap : p.Overlaps b
  · induction n generalizing p with
    | zero =>
      rw [carve, if_pos hoverlap]
      refine iff_of_false (by simp) fun hx => hx.2 ?_
      exact hoverlap.symm.contains (by omega) hx.1
    | succ n ih =>
      have hb : p.bits < b.bits := by omega
      have h : p.bits < w := Nat.lt_of_lt_of_le hb b.bits_le
      have hhalf {q : Block w} (hq : q.masked = q) (hbits : q.bits = p.bits + 1) :
          (∃ r ∈ carve b n q, r.Contains x) ↔ q.Contains x ∧ ¬b.Contains x := by
        by_cases hover : q.Overlaps b
        · exact ih hq (by omega) hover
        · rw [carve_of_not_overlaps hover]
          simp only [mem_singleton, exists_eq_left]
          exact ⟨fun hx => ⟨hx, fun hbx => hover ⟨x, hx, hbx⟩⟩, fun hx => hx.1⟩
      rw [carve, if_neg (not_not_intro hoverlap), dif_pos h, contains_iff_halves (h := h) hp]
      simp only [mem_append, or_and_right, exists_or]
      rw [hhalf (masked_left hp) rfl, hhalf (masked_right hp) rfl]
  · rw [carve_of_not_overlaps hoverlap]
    simp only [mem_singleton, exists_eq_left]
    exact ⟨fun hx => ⟨hx, fun hbx => hoverlap ⟨x, hx, hbx⟩⟩, fun hx => hx.1⟩

/-- Both ways come to the same blocks. -/
theorem carve_perm_exclude (hp : p.masked = p) (hn : n = b.bits - p.bits)
    (hoverlap : p.Overlaps b) : (carve b n p).Perm (exclude b n p) := by
  induction n generalizing p with
  | zero =>
    rw [carve, if_pos hoverlap, exclude]
  | succ n ih =>
    have hb : p.bits < b.bits := by omega
    have h : p.bits < w := Nat.lt_of_lt_of_le hb b.bits_le
    rw [carve, if_neg (not_not_intro hoverlap), dif_pos h, exclude, dif_pos h]
    obtain ⟨hleft, hright⟩ | ⟨hleft, hright⟩ := overlaps_halves (h := h) hp hb hoverlap
    · rw [if_pos hleft, carve_of_not_overlaps hright]
      refine perm_append_comm.trans (List.Perm.cons _ ?_)
      exact ih (masked_left hp) (by simp only [left]; omega) hleft
    · rw [if_neg hleft, carve_of_not_overlaps hleft]
      exact List.Perm.cons _ (ih (masked_right hp) (by simp only [right]; omega) hright)

end Without

/-- Take the blocks out, one after the other. -/
def without (ps bs : List (Block w)) : List (Block w) :=
  bs.foldl (fun ps b => ps.flatMap fun p => carve b (b.bits - p.bits) p) ps

section Remaining

variable {ps bs : List (Block w)}

theorem masked_of_mem_without (hps : ∀ p ∈ ps, p.masked = p) :
    ∀ q ∈ without ps bs, q.masked = q := by
  induction bs generalizing ps with
  | nil => exact hps
  | cons b bs ih =>
    apply ih
    intro q hq
    obtain ⟨p, hp, hq⟩ := mem_flatMap.mp hq
    exact masked_of_mem_carve (hps p hp) hq

/-- The addresses that are left are those that none of the blocks has. -/
theorem exists_mem_without_iff (hps : ∀ p ∈ ps, p.masked = p) :
    (∃ q ∈ without ps bs, q.Contains x) ↔
      (∃ p ∈ ps, p.Contains x) ∧ ∀ b ∈ bs, ¬b.Contains x := by
  induction bs generalizing ps with
  | nil => simp [without]
  | cons b bs ih =>
    have hmasked : ∀ q ∈ ps.flatMap fun p => carve b (b.bits - p.bits) p, q.masked = q :=
      @masked_of_mem_without w ps [b] hps
    have hone : (∃ q ∈ ps.flatMap fun p => carve b (b.bits - p.bits) p, q.Contains x) ↔
        (∃ p ∈ ps, p.Contains x) ∧ ¬b.Contains x := by
      constructor
      · rintro ⟨q, hq, hx⟩
        obtain ⟨p, hp, hq⟩ := mem_flatMap.mp hq
        obtain ⟨hpx, hbx⟩ := (exists_mem_carve_iff (hps p hp) rfl).mp ⟨q, hq, hx⟩
        exact ⟨⟨p, hp, hpx⟩, hbx⟩
      · rintro ⟨⟨p, hp, hpx⟩, hbx⟩
        obtain ⟨q, hq, hx⟩ := (exists_mem_carve_iff (hps p hp) rfl).mpr ⟨hpx, hbx⟩
        exact ⟨q, mem_flatMap.mpr ⟨p, hp, hq⟩, hx⟩
    refine (ih hmasked).trans ?_
    rw [hone, forall_mem_cons, and_assoc]

end Remaining

variable {w : Nat} {b c : Block w} {last x : BitVec w} {start : Nat}

/-- No wider block starts at the same address and ends by the last one. -/
structure Widest (last : BitVec w) (b : Block w) : Prop where
  masked_eq : b.masked = b
  within : b.base.toNat + b.size ≤ last.toNat + 1
  maximal : ¬(2 * b.size ∣ b.base.toNat ∧ b.base.toNat + 2 * b.size ≤ last.toNat + 1)

theorem two_mul_size_dvd (h : b.bits < c.bits) : 2 * c.size ∣ b.size := by
  have hc := c.bits_le
  rw [size, size, ← Nat.pow_succ']
  exact Nat.pow_dvd_pow 2 (by omega)

theorem Widest.bits_le (hb : Widest last b) (hc : Widest last c) (h : b.base = c.base) :
    c.bits ≤ b.bits := by
  refine Nat.le_of_not_lt fun hlt => hc.maximal ?_
  have htwice := two_mul_size_dvd hlt
  have hle := Nat.le_of_dvd b.size_pos htwice
  have hwithin := hb.within
  rw [← h]
  exact ⟨Nat.dvd_trans htwice (masked_eq_self_iff.mp hb.masked_eq), by omega⟩

theorem Widest.unique (hb : Widest last b) (hc : Widest last c) (h : b.base = c.base) : b = c := by
  have hbits := Nat.le_antisymm (hc.bits_le hb h.symm) (hb.bits_le hc h)
  cases b
  cases c
  simp only at h hbits
  simp only [h, hbits]

/-- The blocks from an address up to the last one. -/
inductive Covers (last : BitVec w) : Nat → List (Block w) → Prop
  | nil {start : Nat} : last.toNat < start → Covers last start []
  | cons {start : Nat} {b : Block w} {bs : List (Block w)} : b.base.toNat = start →
      Widest last b → Covers last (start + b.size) bs → Covers last start (b :: bs)

namespace Covers

variable {bs cs : List (Block w)}

theorem masked_eq (h : Covers last start bs) : ∀ b ∈ bs, b.masked = b := by
  induction h with
  | nil => exact fun _ hb => absurd hb (not_mem_nil)
  | cons _ hwidest _ ih => exact forall_mem_cons.mpr ⟨hwidest.masked_eq, ih⟩

theorem unique (hb : Covers last start bs) (hc : Covers last start cs) : bs = cs := by
  induction hb generalizing cs with
  | nil hend =>
    cases hc with
    | nil => rfl
    | @cons _ c _ hbase hwidest _ =>
      have hwithin := hwidest.within
      have hpos := c.size_pos
      omega
  | @cons _ b _ hbase hwidest _ ih =>
    cases hc with
    | nil hend =>
      have hwithin := hwidest.within
      have hpos := b.size_pos
      omega
    | cons hbase' hwidest' hrest =>
      obtain rfl := hwidest.unique hwidest' (BitVec.eq_of_toNat_eq (hbase.trans hbase'.symm))
      rw [ih hrest]

theorem exists_mem_contains_iff (h : Covers last start bs) :
    (∃ b ∈ bs, b.Contains x) ↔ start ≤ x.toNat ∧ x.toNat ≤ last.toNat := by
  induction h with
  | nil hend =>
    refine iff_of_false (by simp) ?_
    omega
  | cons hbase hwidest _ ih =>
    have hwithin := hwidest.within
    simp only [mem_cons, exists_eq_or_imp]
    rw [ih, contains_iff_le_lt hwidest.masked_eq]
    omega

end Covers

end Block
