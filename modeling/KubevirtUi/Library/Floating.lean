import KubevirtUi.Library.Rounding

/-!
# Floats in order

A float is a number, or infinite, or neither, and is compared as such. A sum is rounded, and too
large a number becomes infinite, and both keep it on the same side of every other float.
-/

namespace Floating

open Float.Model (Format UnpackedFloat totalExponent)
open Float.Model.UnpackedFloat Option
open Rounding

variable {spec : Format} {x y z : UnpackedFloat} {m n : Nat} {e f : Int} {s : Sign}

def signed : Sign → ℚ → ℚ
  | .negative, q => -q
  | .positive, q => q

/-- The numbers and two infinities. -/
abbrev Extended := WithBot (WithTop ℚ)

def ofNumber (q : ℚ) : Extended := ((q : WithTop ℚ) : WithBot (WithTop ℚ))

/-- What a float stands for, if it is a number or infinite. -/
def value : UnpackedFloat → Option Extended
  | .notANumber => none
  | .infinity .negative => some ⊥
  | .infinity .positive => some ⊤
  | .zero _ => some (ofNumber 0)
  | .finite s m e _ => some (ofNumber (signed s (scaled m e)))

/-- The number that a float stands for, if it is one. -/
def number : UnpackedFloat → Option ℚ
  | .zero _ => some 0
  | .finite s m e _ => some (signed s (scaled m e))
  | _ => none

theorem value_of_number {q : ℚ} (h : number x = some q) : value x = some (ofNumber q) := by
  cases x with
  | notANumber | infinity => cases h
  | zero | finite =>
    cases h
    rfl

/-- Its exponent is the one that the format asks for. -/
def Fits (spec : Format) : UnpackedFloat → Prop
  | .finite _ m e _ => Canonical spec m e
  | _ => True

theorem strictMono_ofNumber : StrictMono ofNumber :=
  fun _ _ h => WithBot.coe_lt_coe.mpr (WithTop.coe_lt_coe.mpr h)

theorem scaled_pos (hm : 0 < m) (e : Int) : 0 < scaled m e :=
  mul_pos (Nat.cast_pos.mpr hm) (zpow_pos two_pos e)

theorem compare_scaled (hm : 0 < m) (hn : 0 < n) (he : Canonical spec m e)
    (hf : Canonical spec n f) :
    (compare e f).then (compare m n) = cmp (scaled m e) (scaled n f) := by
  obtain hlt | rfl | hgt := lt_trichotomy e f
  · rw [compare_lt_iff_lt.mpr hlt, (cmp_eq_lt_iff _ _).mpr (scaled_lt_scaled hn he hf hlt)]
    rfl
  · rw [compare_eq_iff_eq.mpr rfl]
    obtain hlt | rfl | hgt := lt_trichotomy m n
    · rw [compare_lt_iff_lt.mpr hlt, (cmp_eq_lt_iff _ _).mpr]
      · rfl
      · exact lt_of_not_ge fun h => hlt.not_ge (scaled_le_scaled.mp h)
    · rw [compare_eq_iff_eq.mpr rfl, cmp_self_eq_eq]
      rfl
    · rw [compare_gt_iff_gt.mpr hgt, (cmp_eq_gt_iff _ _).mpr]
      · rfl
      · exact lt_of_not_ge fun h => hgt.not_ge (scaled_le_scaled.mp h)
  · rw [compare_gt_iff_gt.mpr hgt, (cmp_eq_gt_iff _ _).mpr (scaled_lt_scaled hm hf he hgt)]
    rfl

theorem bot_lt_ofNumber (q : ℚ) : ⊥ < ofNumber q := WithBot.bot_lt_coe _

theorem ofNumber_lt_top (q : ℚ) : ofNumber q < ⊤ := WithBot.coe_lt_coe.mpr (WithTop.coe_lt_top q)

theorem compare_eq (hx : Fits spec x) (hy : Fits spec y) :
    x.compare y = Option.map₂ cmp (value x) (value y) := by
  have hbot (q : ℚ) : cmp ⊥ (ofNumber q) = .lt := (bot_lt_ofNumber q).cmp_eq_lt
  have hbot' (q : ℚ) : cmp (ofNumber q) ⊥ = .gt := (bot_lt_ofNumber q).cmp_eq_gt
  have htop (q : ℚ) : cmp ⊤ (ofNumber q) = .gt := (ofNumber_lt_top q).cmp_eq_gt
  have htop' (q : ℚ) : cmp (ofNumber q) ⊤ = .lt := (ofNumber_lt_top q).cmp_eq_lt
  have hnumber (p q : ℚ) : cmp (ofNumber p) (ofNumber q) = cmp p q :=
    strictMono_ofNumber.cmp_map_eq p q
  cases x with
  | notANumber => rfl
  | infinity s =>
    cases y with
    | notANumber => cases s <;> rfl
    | infinity s' => cases s <;> cases s' <;> rfl
    | zero s' => cases s <;> simp [UnpackedFloat.compare, value, hbot, htop]
    | finite s' n f hn => cases s <;> simp [UnpackedFloat.compare, value, hbot, htop]
  | zero s =>
    cases y with
    | notANumber => rfl
    | infinity s' => cases s' <;> simp [UnpackedFloat.compare, value, hbot', htop']
    | zero s' => simp [UnpackedFloat.compare, value]
    | finite s' n f hn =>
      have hn' := scaled_pos hn f
      cases s' with
      | negative =>
        simp [UnpackedFloat.compare, value, hnumber, signed, (neg_neg_of_pos hn').cmp_eq_gt]
      | positive => simp [UnpackedFloat.compare, value, hnumber, signed, hn'.cmp_eq_lt]
  | finite s m e hm =>
    have hm' := scaled_pos hm e
    cases y with
    | notANumber => cases s <;> rfl
    | infinity s' =>
      cases s <;> cases s' <;> simp [UnpackedFloat.compare, value, hbot', htop']
    | zero s' =>
      cases s with
      | negative =>
        simp [UnpackedFloat.compare, value, hnumber, signed, (neg_neg_of_pos hm').cmp_eq_lt]
      | positive => simp [UnpackedFloat.compare, value, hnumber, signed, hm'.cmp_eq_gt]
    | finite s' n f hn =>
      have hn' := scaled_pos hn f
      have hanti : StrictAnti fun a : ℚ => -a := fun _ _ h => neg_lt_neg h
      have hneg (a b : ℚ) : cmp (-a) (-b) = (cmp a b).swap :=
        (hanti.cmp_map_eq a b).trans (cmp_swap a b).symm
      have hcompare := compare_scaled hm hn hx hy
      cases s with
      | negative =>
        cases s' with
        | negative =>
          simp [UnpackedFloat.compare, value, hnumber, signed, hneg, ← hcompare]
        | positive =>
          have hlt := (neg_neg_of_pos hm').trans hn'
          simp [UnpackedFloat.compare, value, hnumber, signed, hlt.cmp_eq_lt]
      | positive =>
        cases s' with
        | negative =>
          have hlt := (neg_neg_of_pos hn').trans hm'
          simp [UnpackedFloat.compare, value, hnumber, signed, hlt.cmp_eq_gt]
        | positive => simp [UnpackedFloat.compare, value, hnumber, signed, hcompare]

theorem le_iff (hx : Fits spec x) (hy : Fits spec y) :
    x.le y ↔ ∃ a ∈ value x, ∃ b ∈ value y, a ≤ b := by
  rw [UnpackedFloat.le, compare_eq hx hy]
  cases value x with
  | none => simp
  | some a =>
    cases value y with
    | none => simp
    | some b =>
      have hle : (cmp a b).isLE ↔ a ≤ b := by
        rw [Ordering.isLE_iff_ne_gt, cmp_eq_gt_iff, not_lt]
      simpa using hle

theorem lt_iff (hx : Fits spec x) (hy : Fits spec y) :
    x.lt y ↔ ∃ a ∈ value x, ∃ b ∈ value y, a < b := by
  rw [UnpackedFloat.lt, compare_eq hx hy]
  cases value x with
  | none => simp
  | some a =>
    cases value y with
    | none => simp
    | some b => simp

/-- The exponent does not fit in the bits that there are for it. -/
def Overflows (spec : Format) (e : Int) : Prop :=
  2 ^ spec.exponentBits ≤ (e + spec.exponentBias + spec.mantissaBitsWithoutImplicit).toNat + 1

instance (spec : Format) (e : Int) : Decidable (Overflows spec e) :=
  inferInstanceAs (Decidable (_ ≤ _))

theorem minExponent_eq (spec : Format) :
    spec.minExponent = 1 - (spec.exponentBias + spec.mantissaBitsWithoutImplicit : Nat) := by
  have hpos := Nat.two_pow_pos (spec.exponentBits - 1)
  have hcast : ((2 : Int) ^ (spec.exponentBits - 1)) =
      ((2 ^ (spec.exponentBits - 1) : Nat) : Int) := by
    push_cast
    rfl
  rw [Format.minExponent, Format.exponentBias, Format.mantissaBits, hcast]
  omega

theorem unpackSign_packComponents {exponent : BitVec spec.exponentBits}
    {mantissa : BitVec spec.mantissaBitsWithoutImplicit} :
    unpackSign (packComponents spec s exponent mantissa) = s.toBitVec := by
  ext i hi
  obtain rfl : i = 0 := by omega
  simp [unpackSign, packComponents, BitVec.getLsbD_eq_getElem, BitVec.getLsbD_append,
    BitVec.getElem_append]

theorem ofBitVec_toBitVec (s : Sign) : Sign.ofBitVec s.toBitVec = s := by
  cases s <;> rfl

theorem unpack_packedInfinity (spec : Format) (s : Sign) :
    unpack spec (packedInfinity spec s) = .infinity s := by
  simp [unpack, packedInfinity]

variable {h : 0 < m} {w : Nat} {p q : ℚ}

theorem unpack_pack_overflows (he : Overflows spec e) :
    unpack spec (pack spec (.finite s m e h)) = .infinity s := by
  have hpack : pack spec (.finite s m e h) = packedInfinity spec s := if_pos he
  rw [hpack, unpack_packedInfinity]

theorem pack_finite (he : ¬Overflows spec e) : pack spec (.finite s m e h) =
    if m.log2 + 1 = spec.mantissaBits then
      packComponents spec s (BitVec.ofNat _
        (e + spec.exponentBias + spec.mantissaBitsWithoutImplicit).toNat) (BitVec.ofNat _ m)
    else packComponents spec s 0#_ (BitVec.ofNat _ m) :=
  if_neg he

theorem toNat_leading (v : BitVec w) : (1#1 ++ v).toNat = 2 ^ w + v.toNat := by
  rw [BitVec.toNat_append, ← Nat.shiftLeft_add_eq_or_of_lt v.isLt, Nat.shiftLeft_eq]
  simp

theorem log2_leading (v : BitVec w) : (1#1 ++ v).toNat.log2 = w := by
  have hlt := v.isLt
  rw [toNat_leading]
  apply (Nat.log2_eq_iff (by omega)).mpr
  rw [Nat.pow_succ]
  omega

/-- What fits in the bits is read as it was. -/
theorem unpack_pack_finite (hm : Canonical spec m e) (he : ¬Overflows spec e) :
    unpack spec (pack spec (.finite s m e h)) = .finite s m e h := by
  have hmin := hm.minExponent_le
  rw [minExponent_eq] at hmin
  have hover := he
  rw [Overflows, not_le] at hover
  rw [pack_finite he]
  generalize hB : (e + spec.exponentBias + spec.mantissaBitsWithoutImplicit).toNat = B at hover
  have hB' : (B : Int) = e + spec.exponentBias + spec.mantissaBitsWithoutImplicit := by omega
  have hlow := Nat.log2_self_le h.ne'
  have hhigh := Nat.lt_log2_self (n := m)
  obtain hfull | ⟨hlt, hleast⟩ := hm.full_or
  · -- The leading digit is left out, and comes back.
    have hbits : m.log2 + 1 = spec.mantissaBits := by
      rw [hfull, Format.mantissaBits]
      omega
    have hmod : B % 2 ^ spec.exponentBits = B := Nat.mod_eq_of_lt (by omega)
    have hlargest : BitVec.ofNat spec.exponentBits B ≠ -1#_ := by
      intro heq
      have hnat := congrArg BitVec.toNat heq
      rw [BitVec.neg_one_eq_allOnes, BitVec.toNat_allOnes, BitVec.toNat_ofNat, hmod] at hnat
      omega
    have hleast : BitVec.ofNat spec.exponentBits B ≠ 0#_ := by
      intro heq
      have hnat := congrArg BitVec.toNat heq
      rw [BitVec.toNat_ofNat, hmod, BitVec.toNat_ofNat, Nat.zero_mod] at hnat
      omega
    have hmantissa : (1#1 ++ BitVec.ofNat spec.mantissaBitsWithoutImplicit m).toNat = m := by
      rw [hfull] at hlow hhigh
      rw [Nat.pow_succ] at hhigh
      rw [toNat_leading, BitVec.toNat_ofNat, Nat.mod_eq_sub_mod hlow, Nat.mod_eq_of_lt (by omega)]
      omega
    rw [if_pos hbits]
    simp only [unpack, unpackExponent_packComponents, unpackMantissa_packComponents,
      unpackSign_packComponents, ofBitVec_toBitVec, hlargest, hleast, if_false, hmantissa,
      BitVec.toNat_ofNat, hmod, hB']
    simp
  · have hbits : m.log2 + 1 ≠ spec.mantissaBits := by
      rw [Format.mantissaBits]
      omega
    have hsmall : m < 2 ^ spec.mantissaBitsWithoutImplicit :=
      hhigh.trans_le (Nat.pow_le_pow_right two_pos hlt)
    have hmod : m % 2 ^ spec.mantissaBitsWithoutImplicit = m := Nat.mod_eq_of_lt hsmall
    have hnonzero : BitVec.ofNat spec.mantissaBitsWithoutImplicit m ≠ 0#_ := by
      intro heq
      have hnat := congrArg BitVec.toNat heq
      rw [BitVec.toNat_ofNat, hmod, BitVec.toNat_ofNat, Nat.zero_mod] at hnat
      omega
    rw [minExponent_eq] at hleast
    rw [if_neg hbits]
    simp only [unpack, unpackExponent_packComponents, unpackMantissa_packComponents,
      unpackSign_packComponents, ofBitVec_toBitVec, hnonzero, if_false, dif_neg, not_false_eq_true,
      BitVec.toNat_ofNat, hmod, hleast]
    simp [spec.he.ne']
    omega

theorem unpack_pack_notANumber (spec : Format) :
    unpack spec (pack spec .notANumber) = .notANumber := by
  have hbit : (1#_ : BitVec spec.mantissaBitsWithoutImplicit) <<<
      (spec.mantissaBitsWithoutImplicit - 1) ≠ 0#_ := by
    intro h
    have hm := spec.hm
    have := congrArg (fun b => b.getLsbD (spec.mantissaBitsWithoutImplicit - 1)) h
    simp at this
    omega
  simp [unpack, pack, packedNaN, hbit]

theorem unpack_pack_zero (spec : Format) (s : Sign) :
    unpack spec (pack spec (.zero s)) = .zero s := by
  simp [unpack, pack, packedZero, spec.he.ne']

theorem packComponents_unpack (b : BitVec spec.numBits) :
    packComponents spec (Sign.ofBitVec (unpackSign b)) (unpackExponent b) (unpackMantissa b) =
    b := by
  have hm := spec.hm
  have he := spec.he
  have hsign : (Sign.ofBitVec (unpackSign b)).toBitVec = unpackSign b := by
    generalize unpackSign b = s
    revert s
    decide
  rw [packComponents, hsign]
  apply BitVec.eq_of_getLsbD_eq
  intro i hi
  simp only [BitVec.getLsbD_append, unpackMantissa, unpackExponent, unpackSign,
    BitVec.getLsbD_cast, BitVec.getLsbD_extractLsb]
  by_cases hmantissa : i < spec.mantissaBitsWithoutImplicit
  · simp [hmantissa]
    omega
  · by_cases hexponent : i - spec.mantissaBitsWithoutImplicit < spec.exponentBits
    · have hindex : spec.mantissaBitsWithoutImplicit + (i - spec.mantissaBitsWithoutImplicit) =
        i := by
        omega
      simp [hmantissa, hexponent, hindex]
      omega
    · have hindex : spec.mantissaBitsWithoutImplicit + spec.exponentBits +
          (i - spec.mantissaBitsWithoutImplicit - spec.exponentBits) = i := by omega
      simp [hmantissa, hexponent, hindex]
      omega

/-- Canonical, and not too large for the bits. -/
def Representable (spec : Format) : UnpackedFloat → Prop
  | .finite _ m e _ => Canonical spec m e ∧ ¬Overflows spec e
  | _ => True

theorem Representable.fits (h : Representable spec x) : Fits spec x := by
  cases x with
  | finite => exact h.1
  | _ => exact trivial

theorem representable_unpack (he : 1 < spec.exponentBits) (b : BitVec spec.numBits) :
    Representable spec (unpack spec b) := by
  have hexponent := (unpackExponent b).isLt
  have hmantissa := (unpackMantissa b).isLt
  have hmin := minExponent_eq spec
  rw [unpack]
  split
  · split <;> exact trivial
  · next hlargest =>
      have hlt : (unpackExponent b).toNat + 1 < 2 ^ spec.exponentBits := by
        have hne : (unpackExponent b).toNat ≠ 2 ^ spec.exponentBits - 1 := by
          intro heq
          apply hlargest
          rw [← BitVec.toNat_inj, BitVec.neg_one_eq_allOnes, BitVec.toNat_allOnes, heq]
        omega
      split
      · next hzero =>
          split
          · exact trivial
          · next hnonzero =>
              have hpos : (unpackMantissa b).toNat ≠ 0 := by
                intro heq
                exact hnonzero (BitVec.eq_of_toNat_eq heq)
              have hlog := (Nat.log2_lt hpos).mpr hmantissa
              have hpow : 4 ≤ 2 ^ spec.exponentBits := Nat.pow_le_pow_right (n := 2) two_pos he
              simp only [hzero]
              constructor
              · rw [Canonical, Format.targetExponent, totalExponent, Format.mantissaBits]
                simp
                omega
              · rw [Overflows]
                simp
                omega
      · next hleast =>
          have hpos : (unpackExponent b).toNat ≠ 0 := by
            intro heq
            exact hleast (BitVec.eq_of_toNat_eq heq)
          have hlog := log2_leading (unpackMantissa b)
          constructor
          · rw [Canonical, Format.targetExponent, totalExponent, Format.mantissaBits, hlog]
            omega
          · rw [Overflows]
            omega

theorem pack_unpack (he : 1 < spec.exponentBits) {b : BitVec spec.numBits} (hb : spec.Valid b) :
    pack spec (unpack spec b) = b := by
  have hparts := packComponents_unpack b
  have hfits := representable_unpack he b
  have hmantissa := (unpackMantissa b).isLt
  have hbits : spec.mantissaBits = 1 + spec.mantissaBitsWithoutImplicit := rfl
  rw [unpack] at hfits ⊢
  split
  · next hlargest =>
      rw [hlargest] at hparts
      split
      · next hzero =>
          rw [hzero] at hparts
          exact hparts
      · next hnonzero => exact (hb.eq_packedNaN hlargest hnonzero).symm
  · next hlargest =>
      rw [if_neg hlargest] at hfits
      split
      · next hleast =>
          rw [if_pos hleast] at hfits
          rw [hleast] at hparts
          split
          · next hzero =>
              rw [hzero] at hparts
              exact hparts
          · next hnonzero =>
              rw [dif_neg hnonzero] at hfits
              have hpos : (unpackMantissa b).toNat ≠ 0 := by
                intro heq
                exact hnonzero (BitVec.eq_of_toNat_eq heq)
              have hlog := (Nat.log2_lt hpos).mpr hmantissa
              rw [pack_finite hfits.2, if_neg (by omega), BitVec.ofNat_toNat, BitVec.setWidth_eq]
              exact hparts
      · next hleast =>
          rw [if_neg hleast] at hfits
          have hlog := log2_leading (unpackMantissa b)
          rw [pack_finite hfits.2, if_pos (by omega)]
          have hexponent : BitVec.ofNat spec.exponentBits (((unpackExponent b).toNat : Int) -
              (spec.exponentBias + spec.mantissaBitsWithoutImplicit) + spec.exponentBias +
                spec.mantissaBitsWithoutImplicit).toNat = unpackExponent b := by
            have hnat : (((unpackExponent b).toNat : Int) -
                (spec.exponentBias + spec.mantissaBitsWithoutImplicit) + spec.exponentBias +
                spec.mantissaBitsWithoutImplicit).toNat = (unpackExponent b).toNat := by omega
            rw [hnat, BitVec.ofNat_toNat, BitVec.setWidth_eq]
          have hlow : BitVec.ofNat spec.mantissaBitsWithoutImplicit
              (1#1 ++ unpackMantissa b).toNat = unpackMantissa b := by
            apply BitVec.eq_of_toNat_eq
            rw [BitVec.toNat_ofNat, toNat_leading, Nat.add_mod_left, Nat.mod_eq_of_lt hmantissa]
          rw [hexponent, hlow]
          exact hparts

/-- The float is on the same side of every other as the number. -/
def Near (spec : Format) (sum : ℚ) (z : UnpackedFloat) : Prop :=
  Fits spec z ∧ ∃ q, value z = some (ofNumber q) ∧
    ∀ c p, Fits spec c → value c = some (ofNumber p) → (p ≤ sum → p ≤ q) ∧ (sum ≤ p → q ≤ p)

theorem value_infinity_ne (s : Sign) (q : ℚ) : value (.infinity s) ≠ some (ofNumber q) := by
  intro h
  cases s with
  | negative => exact absurd (some.inj h) (bot_lt_ofNumber q).ne
  | positive => exact absurd (some.inj h) (ofNumber_lt_top q).ne'

theorem ofNumber_inj : ofNumber p = ofNumber q ↔ p = q :=
  strictMono_ofNumber.injective.eq_iff

theorem ofNumber_le : ofNumber p ≤ ofNumber q ↔ p ≤ q :=
  strictMono_ofNumber.le_iff_le

/-- A float that is a number is zero, or has a mantissa and an exponent. -/
theorem of_value (h : value x = some (ofNumber p)) :
    p = 0 ∨ ∃ s m e, ∃ hm : 0 < m, x = .finite s m e hm ∧ p = signed s (scaled m e) := by
  cases x with
  | notANumber => cases h
  | infinity s => exact absurd h (value_infinity_ne s p)
  | zero s =>
    left
    exact (ofNumber_inj.mp (some.inj h)).symm
  | finite s m e hm =>
    right
    exact ⟨s, m, e, hm, rfl, (ofNumber_inj.mp (some.inj h)).symm⟩

theorem near_self (hz : Fits spec z) (h : value z = some (ofNumber q)) : Near spec q z :=
  ⟨hz, q, h, fun _ _ _ _ => ⟨id, id⟩⟩

theorem near_round (s : Sign) (hm : 0 < m) (e : Int) :
    Near spec (signed s (scaled m e)) (UnpackedFloat.round spec s m e) := by
  obtain ⟨q, hnonneg, hside, hround⟩ := exists_rounded spec s hm e
  have hpos := scaled_pos hm e
  refine ⟨?_, signed s q, ?_, fun c p hc hp => ?_⟩
  · obtain ⟨-, hzero⟩ | ⟨m', e', hm', hfinite, hcanonical, -⟩ := hround
    · rw [hzero]
      exact trivial
    · rw [hfinite]
      exact hcanonical
  · obtain ⟨rfl, hzero⟩ | ⟨m', e', hm', hfinite, -, rfl⟩ := hround
    · rw [hzero]
      cases s with
      | negative => simp [value, signed]
      | positive => rfl
    · rw [hfinite]
      rfl
  · obtain rfl | ⟨s', n, f, hn, rfl, rfl⟩ := of_value hp
    · cases s with
      | negative => exact ⟨fun h => by simp only [signed] at h; linarith,
          fun _ => by simpa [signed]⟩
      | positive => exact ⟨fun _ => hnonneg, fun h => by simp only [signed] at h; linarith⟩
    · have hn' := scaled_pos hn f
      obtain ⟨hlow, hhigh⟩ := hside n f hn hc
      cases s with
      | negative =>
        cases s' with
        | negative =>
          exact ⟨fun h => neg_le_neg (hhigh (neg_le_neg_iff.mp h)),
            fun h => neg_le_neg (hlow (neg_le_neg_iff.mp h))⟩
        | positive =>
          simp only [signed]
          exact ⟨fun h => by linarith, fun _ => by linarith⟩
      | positive =>
        cases s' with
        | negative =>
          simp only [signed]
          exact ⟨fun _ => by linarith, fun h => by linarith⟩
        | positive => exact ⟨hlow, hhigh⟩

theorem near_normalize (M : Int) (e : Int) (s : Sign) :
    Near spec (M * 2 ^ e) (UnpackedFloat.normalize spec M e s) := by
  obtain hlt | rfl | hgt := lt_trichotomy M 0
  · have hM : (M : ℚ) * 2 ^ e = signed .negative (scaled (-M).toNat e) := by
      have hcast : (((-M).toNat : Int) : ℚ) = -M := by
        rw [Int.toNat_of_nonneg (by omega)]
        push_cast
        rfl
      rw [signed, scaled, ← neg_mul, ← Int.cast_natCast, hcast, neg_neg]
    rw [UnpackedFloat.normalize, compare_lt_iff_lt.mpr hlt, hM]
    exact near_round .negative (by omega) e
  · rw [UnpackedFloat.normalize, compare_eq_iff_eq.mpr rfl]
    exact near_self trivial (by simp [value])
  · have hM : (M : ℚ) * 2 ^ e = signed .positive (scaled M.toNat e) := by
      have hcast : ((M.toNat : Int) : ℚ) = M := by rw [Int.toNat_of_nonneg (by omega)]
      rw [signed, scaled, ← Int.cast_natCast, hcast]
    rw [UnpackedFloat.normalize, compare_gt_iff_gt.mpr hgt, hM]
    exact near_round .positive (by omega) e

theorem apply_shiftLeft (s : Sign) (m : Nat) (h : f ≤ e) :
    (s.apply (m <<< (e - f).toNat : Nat) : ℚ) * 2 ^ f = signed s (scaled m e) := by
  have hexponent : f + (e - f).toNat = e := by omega
  have hscaled : ((m <<< (e - f).toNat : Nat) : ℚ) * 2 ^ f = scaled m e := by
    rw [Nat.shiftLeft_eq, ← scaled, scaled_shift, hexponent]
  rw [← hscaled]
  cases s with
  | negative =>
    rw [Sign.apply, signed, Int.cast_neg, Int.cast_natCast, neg_mul]
  | positive => rfl

theorem near_add (hx : Fits spec x) (hy : Fits spec y) (hp : value x = some (ofNumber p))
    (hq : value y = some (ofNumber q)) : Near spec (p + q) (add spec x y) := by
  cases x with
  | notANumber => cases hp
  | infinity s => exact absurd hp (value_infinity_ne s p)
  | zero s =>
    have hzero := ofNumber_inj.mp (some.inj hp)
    cases y with
    | notANumber => cases hq
    | infinity s' => exact absurd hq (value_infinity_ne s' q)
    | zero s' =>
      have hzero' := ofNumber_inj.mp (some.inj hq)
      rw [← hzero, ← hzero', add_zero, UnpackedFloat.add]
      split <;> exact near_self trivial rfl
    | finite s' n f hn =>
      rw [← hzero, zero_add]
      exact near_self hy hq
  | finite s m e hm =>
    have hp' := ofNumber_inj.mp (some.inj hp)
    cases y with
    | notANumber => cases hq
    | infinity s' => exact absurd hq (value_infinity_ne s' q)
    | zero s' =>
      rw [← ofNumber_inj.mp (some.inj hq), add_zero]
      exact near_self hx hp
    | finite s' n f hn =>
      have hq' := ofNumber_inj.mp (some.inj hq)
      rw [← hp', ← hq', ← apply_shiftLeft s m (min_le_left e f),
        ← apply_shiftLeft s' n (min_le_right e f), ← add_mul, ← Int.cast_add]
      exact near_normalize _ _ _

theorem overflows_mono (h : e ≤ f) (he : Overflows spec e) : Overflows spec f := by
  rw [Overflows] at he ⊢
  omega

theorem exponent_le (hm : 0 < m) (he : Canonical spec m e) (hf : Canonical spec n f)
    (h : scaled m e ≤ scaled n f) : e ≤ f := by
  by_contra hlt
  exact (scaled_lt_scaled hm hf he (not_le.mp hlt)).not_ge h

/-- What does not fit in the bits is infinite, and still on the same side. -/
theorem exists_value_pack {sum : ℚ} (h : Near spec sum z) :
    ∃ b, value (unpack spec (pack spec z)) = some b ∧
      ∀ c p, Representable spec c → value c = some (ofNumber p) →
        (p ≤ sum → ofNumber p ≤ b) ∧ (sum ≤ p → b ≤ ofNumber p) := by
  obtain ⟨hfits, q, hvalue, hside⟩ := h
  have hsame (hz : unpack spec (pack spec z) = z) :
      ∃ b, value (unpack spec (pack spec z)) = some b ∧
        ∀ c p, Representable spec c → value c = some (ofNumber p) →
          (p ≤ sum → ofNumber p ≤ b) ∧ (sum ≤ p → b ≤ ofNumber p) := by
    refine ⟨ofNumber q, by rw [hz, hvalue], fun c p hc hp => ?_⟩
    rw [ofNumber_le, ofNumber_le]
    exact hside c p hc.fits hp
  cases z with
  | notANumber => cases hvalue
  | infinity s => exact absurd hvalue (value_infinity_ne s q)
  | zero s => exact hsame (unpack_pack_zero spec s)
  | finite s m e hm =>
    have hq := ofNumber_inj.mp (some.inj hvalue)
    have hpos := scaled_pos hm e
    by_cases hover : Overflows spec e
    · -- Another float that is a number is not that large.
      have hlarge {s' : Sign} {n : Nat} {f : Int} {hn : 0 < n}
          (hc : Representable spec (.finite s' n f hn)) : ¬scaled m e ≤ scaled n f :=
        fun hle => hc.2 (overflows_mono (exponent_le hm hfits hc.1 hle) hover)
      rw [unpack_pack_overflows hover]
      cases s with
      | negative =>
        refine ⟨⊥, rfl, fun c p hc hp => ⟨fun hle => ?_, fun _ => bot_le⟩⟩
        have hle' := (hside c p hc.fits hp).1 hle
        obtain rfl | ⟨s', n, f, hn, rfl, rfl⟩ := of_value hp
        · simp only [signed] at hq
          linarith
        · cases s' with
          | negative =>
            simp only [signed] at hq hle'
            exact absurd (by linarith) (hlarge hc)
          | positive =>
            have hn' := scaled_pos hn f
            simp only [signed] at hq hle'
            linarith
      | positive =>
        refine ⟨⊤, rfl, fun c p hc hp => ⟨fun _ => le_top, fun hle => ?_⟩⟩
        have hle' := (hside c p hc.fits hp).2 hle
        obtain rfl | ⟨s', n, f, hn, rfl, rfl⟩ := of_value hp
        · simp only [signed] at hq
          linarith
        · cases s' with
          | negative =>
            have hn' := scaled_pos hn f
            simp only [signed] at hq hle'
            linarith
          | positive =>
            simp only [signed] at hq hle'
            exact absurd (by linarith) (hlarge hc)
    · exact hsame (unpack_pack_finite hfits hover)

/-- A sum is on the same side of what is added up as before. -/
theorem exists_value_sum {a : Extended} (hx : Representable spec x) (hy : Representable spec y)
    (ha : value x = some a) (hq : value y = some (ofNumber q)) :
    ∃ b, value (unpack spec (pack spec (add spec x y))) = some b ∧ (0 ≤ q → a ≤ b) ∧
      (ofNumber 0 ≤ a → ofNumber q ≤ b) ∧ (a ≤ ofNumber 0 → b ≤ ofNumber q) := by
  have hnumber {p : ℚ} (hp : a = ofNumber p) :
      ∃ b, value (unpack spec (pack spec (add spec x y))) = some b ∧ (0 ≤ q → a ≤ b) ∧
        (ofNumber 0 ≤ a → ofNumber q ≤ b) ∧ (a ≤ ofNumber 0 → b ≤ ofNumber q) := by
    subst hp
    obtain ⟨b, hb, hside⟩ := exists_value_pack (near_add hx.fits hy.fits ha hq)
    simp only [ofNumber_le]
    refine ⟨b, hb, fun h => ?_, fun h => ?_, fun h => ?_⟩
    · exact (hside x p hx ha).1 (by linarith)
    · exact (hside y q hy hq).1 (by linarith)
    · exact (hside y q hy hq).2 (by linarith)
  have hinfinite (s : Sign) : unpack spec (pack spec (add spec (.infinity s) y)) = .infinity s := by
    cases y with
    | notANumber => cases hq
    | infinity s' => exact absurd hq (value_infinity_ne s' q)
    | zero s' => exact unpack_packedInfinity spec s
    | finite s' n f hn => exact unpack_packedInfinity spec s
  cases x with
  | notANumber => cases ha
  | zero s => exact hnumber (some.inj ha).symm
  | finite s m e hm => exact hnumber (some.inj ha).symm
  | infinity s =>
    rw [hinfinite]
    refine ⟨a, ha, fun _ => le_rfl, ?_, ?_⟩
    · cases s with
      | negative =>
        cases ha
        exact fun h => absurd h (bot_lt_ofNumber 0).not_ge
      | positive =>
        cases ha
        exact fun _ => le_top
    · cases s with
      | negative =>
        cases ha
        exact fun _ => bot_le
      | positive =>
        cases ha
        exact fun h => absurd h (ofNumber_lt_top 0).not_ge

section Double

variable {x y : Float}

/-- What a float stands for. -/
def extended (x : Float) : Option Extended := value x.toModel.unpack

theorem representable_toModel (x : Float) : Representable Format.binary64 x.toModel.unpack :=
  representable_unpack (by decide) _

theorem float_le_iff : x ≤ y ↔ ∃ a ∈ extended x, ∃ b ∈ extended y, a ≤ b := by
  have hle : x ≤ y ↔ x.toModel.unpack.le y.toModel.unpack = true := by
    change decide (x.toModel ≤ y.toModel) = true ↔ _
    rw [decide_eq_true_iff]
    rfl
  rw [hle, le_iff (representable_toModel x).fits (representable_toModel y).fits]
  rfl

theorem float_lt_iff : x < y ↔ ∃ a ∈ extended x, ∃ b ∈ extended y, a < b := by
  have hlt : x < y ↔ x.toModel.unpack.lt y.toModel.unpack = true := by
    change decide (x.toModel < y.toModel) = true ↔ _
    rw [decide_eq_true_iff]
    rfl
  rw [hlt, lt_iff (representable_toModel x).fits (representable_toModel y).fits]
  rfl

theorem extended_add : extended (x + y) = value (unpack Format.binary64 (pack Format.binary64
    (add Format.binary64 x.toModel.unpack y.toModel.unpack))) := rfl

/-- What is no number stays none. -/
theorem extended_add_eq_none (h : extended x = none) : extended (x + y) = none := by
  rw [extended] at h
  rw [extended_add]
  cases hx : x.toModel.unpack with
  | notANumber =>
    have hadd : add Format.binary64 .notANumber y.toModel.unpack = .notANumber := rfl
    rw [hadd, unpack_pack_notANumber]
    rfl
  | infinity s =>
    rw [hx] at h
    cases s <;> cases h
  | zero s =>
    rw [hx] at h
    cases h
  | finite s m e hm =>
    rw [hx] at h
    cases h

theorem model_pack_unpack (x : Float.Model) : Float.Model.pack x.unpack = x := by
  obtain ⟨bits, hvalid⟩ := x
  have hbits : UInt64.ofBitVec (pack Format.binary64 (unpack Format.binary64 bits.toBitVec)) =
      bits := by
    rw [pack_unpack (by decide) hvalid]
  simp only [Float.Model.pack, Float.Model.unpack, hbits]

theorem float_sub_zero (hy : y.toModel.unpack = .zero .positive) : x - y = x := by
  have hsub : UnpackedFloat.sub Format.binary64 x.toModel.unpack (.zero .positive) =
      x.toModel.unpack := by
    cases hx : x.toModel.unpack with
    | zero s => cases s <;> rfl
    | _ => rfl
  have hmodel : x - y = ⟨Float.Model.pack
      (UnpackedFloat.sub Format.binary64 x.toModel.unpack y.toModel.unpack)⟩ := rfl
  rw [hmodel, hy, hsub, model_pack_unpack]

end Double

end Floating
