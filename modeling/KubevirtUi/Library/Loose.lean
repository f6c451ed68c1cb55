import KubevirtUi.Library.Halving

/-!
# Halving a block whose address has host bits

Both halves are found from the stored address: one keeps it, and the other one is half a block
further. If the address lies in the lower half, these are the halves of the block. If it lies in
the upper half, the second one is no part of the block, unless the block is everything.
-/

namespace Block

variable {w : Nat} {p q r b : Block w} {x : BitVec w} {ps qs : List (Block w)} {n : Nat}

section Halves

variable (h : p.bits < w)

theorem two_pow_eq : 2 ^ w = (p.left h).size * (2 * 2 ^ p.bits) := by
  have hbits : w = w - (p.bits + 1) + (p.bits + 1) := by omega
  rw [← Nat.pow_succ', size, ← Nat.pow_add]
  exact congrArg (2 ^ ·) hbits

theorem div_size_lt (x : BitVec w) : x.toNat / (p.left h).size < 2 * 2 ^ p.bits := by
  have hlt := x.isLt
  rw [two_pow_eq h] at hlt
  exact Nat.div_lt_of_lt_mul hlt

theorem contains_iff_half : p.Contains x ↔
    x.toNat / (p.left h).size / 2 = p.base.toNat / (p.left h).size / 2 := by
  rw [contains_iff_div, size_eq_two_mul h, Nat.mul_comm, Nat.div_div_eq_div_mul,
    Nat.div_div_eq_div_mul]

theorem toNat_right : (p.right h).base.toNat = (p.base.toNat + (p.left h).size) % 2 ^ w := by
  rw [right, BitVec.toNat_add, toNat_half h]

theorem contains_right_iff : (p.right h).Contains x ↔ x.toNat / (p.left h).size =
    (p.base.toNat / (p.left h).size + 1) % (2 * 2 ^ p.bits) := by
  rw [contains_iff_div, size_right, toNat_right, two_pow_eq h, Nat.mod_mul_right_div_self,
    Nat.add_div_right _ (p.left h).size_pos]

/-- The address lies in the lower half, or there is nothing outside of the block. -/
def Even : Prop := p.bits = 0 ∨ p.base.toNat / (p.left h).size % 2 = 0

theorem halves_of_even (heven : Even h) :
    (∀ x, p.Contains x ↔ (p.left h).Contains x ∨ (p.right h).Contains x) ∧
      ¬(p.left h).Overlaps (p.right h) := by
  have hbase := div_size_lt h p.base
  have hleft (x : BitVec w) : (p.left h).Contains x ↔
      x.toNat / (p.left h).size = p.base.toNat / (p.left h).size := contains_iff_div
  have hright (x : BitVec w) := contains_right_iff h (x := x)
  have hboth (x : BitVec w) := contains_iff_half h (x := x)
  rw [Even] at heven
  generalize p.base.toNat / (p.left h).size = c at hbase hleft hright hboth heven
  have hnext : c % 2 = 0 ∧ (c + 1) % (2 * 2 ^ p.bits) = c + 1 ∨
      c % 2 = 1 ∧ (c + 1) % (2 * 2 ^ p.bits) = c - 1 := by
    obtain hbits | hlow := heven
    · rw [hbits, Nat.pow_zero] at hbase ⊢
      omega
    · exact .inl ⟨hlow, Nat.mod_eq_of_lt (by omega)⟩
  constructor
  · intro x
    rw [hboth, hleft, hright]
    omega
  · rintro ⟨x, hx, hx'⟩
    rw [hleft] at hx
    rw [hright] at hx'
    omega

theorem not_overlaps_of_odd (hodd : ¬Even h) : ¬(p.right h).Overlaps p := by
  rintro ⟨x, hright, hx⟩
  obtain ⟨hbits, hhigh⟩ := not_or.mp hodd
  obtain ⟨m, hm⟩ := Nat.exists_eq_succ_of_ne_zero hbits
  have hbase := div_size_lt h p.base
  have hpos := Nat.two_pow_pos m
  rw [contains_iff_half h] at hx
  rw [contains_right_iff] at hright
  rw [hm, Nat.pow_succ] at hbase hright
  obtain hlt | heq := Nat.lt_or_eq_of_le hbase
  · rw [Nat.mod_eq_of_lt hlt] at hright
    omega
  · rw [Nat.succ_eq_add_one] at heq
    rw [heq, Nat.mod_self] at hright
    omega

theorem mod_size_right : (p.right h).base.toNat % (p.left h).size =
    p.base.toNat % (p.left h).size := by
  rw [toNat_right, Nat.mod_mod_of_dvd _ ⟨_, two_pow_eq h⟩, Nat.add_mod_right]

/-- Where the address lies in the lower half, both halves have the host bits of the block. -/
theorem mod_of_even (heven : Even h) :
    p.base.toNat % 2 ^ (w - max p.bits 1) = p.base.toNat % (p.left h).size := by
  have hwhole (hbits : p.bits = 0) : p.base.toNat % 2 ^ (w - max p.bits 1) =
      p.base.toNat % (p.left h).size := by
    have hmax : max p.bits 1 = p.bits + 1 := by omega
    rw [hmax]
    rfl
  obtain hbits | hlow := heven
  · exact hwhole hbits
  · by_cases hbits : p.bits = 0
    · exact hwhole hbits
    · have hmax : max p.bits 1 = p.bits := by omega
      rw [hmax, ← size, size_eq_two_mul h, Nat.mul_comm, Nat.mod_mul, hlow, Nat.mul_zero,
        Nat.add_zero]

theorem size_le_mod_of_odd (hodd : ¬Even h) :
    (p.left h).size ≤ p.base.toNat % 2 ^ (w - max p.bits 1) := by
  obtain ⟨hbits, hhigh⟩ := not_or.mp hodd
  have hmax : max p.bits 1 = p.bits := by omega
  have hone : p.base.toNat / (p.left h).size % 2 = 1 := by omega
  rw [hmax, ← size, size_eq_two_mul h, Nat.mul_comm, Nat.mod_mul, hone, Nat.mul_one]
  exact Nat.le_add_left _ _

end Halves

/-- These blocks are what is left of one without another, each address once. -/
structure Exactly (p b : Block w) (ps : List (Block w)) : Prop where
  disjoint : ps.Pairwise fun q r => ¬q.Overlaps r
  union : ∀ x, (∃ q ∈ ps, q.Contains x) ↔ p.Contains x ∧ ¬b.Contains x

/-- A part that is free of what is taken out is left, and the other part decides. -/
theorem exactly_iff_of_perm (hpart : ∀ x, p.Contains x ↔ q.Contains x ∨ r.Contains x)
    (hmiss : ¬q.Overlaps r) (hfree : ¬r.Overlaps b) (hperm : ps.Perm (r :: qs)) :
    Exactly p b ps ↔ Exactly q b qs := by
  have hsymm {q r : Block w} (h : ¬q.Overlaps r) : ¬r.Overlaps q := fun h' => h h'.symm
  have hunion (x : BitVec w) : (∃ s ∈ ps, s.Contains x) ↔
      r.Contains x ∨ ∃ s ∈ qs, s.Contains x := by
    simp only [hperm.mem_iff, List.mem_cons, exists_eq_or_imp]
  have hr {x : BitVec w} (hx : r.Contains x) : ¬q.Contains x ∧ ¬b.Contains x :=
    ⟨fun hqx => hmiss ⟨x, hqx, hx⟩, fun hbx => hfree ⟨x, hx, hbx⟩⟩
  constructor
  · rintro ⟨hdisjoint, hexact⟩
    obtain ⟨hapart, hrest⟩ := List.pairwise_cons.mp ((hperm.pairwise_iff hsymm).mp hdisjoint)
    refine ⟨hrest, fun x => ?_⟩
    have hx := hexact x
    rw [hunion, hpart] at hx
    constructor
    · rintro ⟨s, hs, hsx⟩
      obtain ⟨hqx | hrx, hbx⟩ := hx.mp (.inr ⟨s, hs, hsx⟩)
      · exact ⟨hqx, hbx⟩
      · exact absurd ⟨x, hrx, hsx⟩ (hapart s hs)
    · rintro ⟨hqx, hbx⟩
      exact (hx.mpr ⟨.inl hqx, hbx⟩).resolve_left fun hrx => (hr hrx).1 hqx
  · rintro ⟨hdisjoint, hexact⟩
    refine ⟨(hperm.pairwise_iff hsymm).mpr (List.pairwise_cons.mpr ⟨?_, hdisjoint⟩), fun x => ?_⟩
    · rintro s hs ⟨x, hrx, hsx⟩
      exact (hr hrx).1 ((hexact x).mp ⟨s, hs, hsx⟩).1
    · rw [hunion, hexact, hpart]
      constructor
      · rintro (hrx | ⟨hqx, hbx⟩)
        · exact ⟨.inr hrx, (hr hrx).2⟩
        · exact ⟨.inl hqx, hbx⟩
      · rintro ⟨hqx | hrx, hbx⟩
        · exact .inr ⟨hqx, hbx⟩
        · exact .inl hrx

/-- Halving leaves exactly what it should if no bit of the address is set between the length of
the block and the length of what is taken out. -/
theorem exactly_carve_iff (hn : n = b.bits - p.bits) (hoverlap : p.Overlaps b) :
    Exactly p b (carve b n p) ↔ p.base.toNat % 2 ^ (w - max p.bits 1) < b.size := by
  induction n generalizing p with
  | zero =>
    rw [carve, if_pos hoverlap]
    refine iff_of_true ⟨.nil, fun x => ?_⟩ ?_
    · refine iff_of_false (by simp) fun hx => hx.2 ?_
      exact hoverlap.symm.contains (by omega) hx.1
    · have hle : w - max p.bits 1 ≤ w - b.bits := by omega
      exact Nat.lt_of_lt_of_le (Nat.mod_lt _ (Nat.two_pow_pos _))
        (Nat.pow_le_pow_right (by omega) hle)
  | succ n ih =>
    have hb : p.bits < b.bits := by omega
    have h : p.bits < w := Nat.lt_of_lt_of_le hb b.bits_le
    rw [carve, if_neg (not_not_intro hoverlap), dif_pos h]
    by_cases heven : Even h
    · obtain ⟨hpart, hmiss⟩ := halves_of_even h heven
      have hhalf {q r : Block w} {ps : List (Block w)} (hq : q.bits = p.bits + 1)
          (hbase : q.base.toNat % (p.left h).size = p.base.toNat % (p.left h).size)
          (hmeets : q.Overlaps b) (hmiss : ¬q.Overlaps r) (hr : r.bits = p.bits + 1)
          (hpart : ∀ x, p.Contains x ↔ q.Contains x ∨ r.Contains x)
          (hperm : ps.Perm (carve b n r ++ carve b n q)) :
          Exactly p b ps ↔ p.base.toNat % 2 ^ (w - max p.bits 1) < b.size := by
        have hfree : ¬r.Overlaps b := by
          rintro ⟨x, hrx, hbx⟩
          exact hmiss ⟨x, hmeets.contains (by omega) hbx, hrx⟩
        rw [carve_of_not_overlaps hfree, List.singleton_append] at hperm
        have hmax : max q.bits 1 = p.bits + 1 := by omega
        rw [exactly_iff_of_perm hpart hmiss hfree hperm, ih (by omega) hmeets,
          mod_of_even h heven, ← hbase, hmax]
        rfl
      obtain ⟨x, hpx, hbx⟩ := hoverlap
      obtain hleft | hright := (hpart x).mp hpx
      · exact hhalf (q := p.left h) rfl rfl ⟨x, hleft, hbx⟩ hmiss rfl hpart List.perm_append_comm
      · exact hhalf rfl (mod_size_right h) ⟨x, hright, hbx⟩ (fun hover => hmiss hover.symm) rfl
          (fun y => (hpart y).trans or_comm) (.refl _)
    · -- the second half lies beyond the block
      have hmiss := not_overlaps_of_odd h heven
      have hfree : ¬(p.right h).Overlaps b := by
        rintro ⟨x, hrx, hbx⟩
        exact hmiss ⟨x, hrx, hoverlap.contains (by omega) hbx⟩
      refine iff_of_false (fun hexact => ?_) ?_
      · apply hmiss
        refine ⟨_, (p.right h).contains_base, ((hexact.union _).mp ⟨p.right h, ?_, ?_⟩).1⟩
        · rw [carve_of_not_overlaps hfree]
          exact List.mem_append_right _ (List.mem_singleton_self _)
        · exact (p.right h).contains_base
      · have hlarge := size_le_mod_of_odd h heven
        have hsize : b.size ≤ (p.left h).size := Nat.pow_le_pow_right (by omega) (by
          simp only [left]
          omega)
        omega

end Block
