import Mathlib

/-!
# Rounding

A float stands for a mantissa times a power of two. What is rounded comes to lie on the same side
of every number of the format as before, and that is all that is needed to compare sums.
-/

namespace Rounding

open Float.Model Float.Model.UnpackedFloat

variable {spec : Format} {m n k : Nat} {e f t : Int}

/-- A mantissa at an exponent. -/
def scaled (m : Nat) (e : Int) : ℚ := m * 2 ^ e

/-- The exponent is the one that the format asks for. -/
def Canonical (spec : Format) (m : Nat) (e : Int) : Prop :=
  spec.targetExponent (totalExponent m e) = e

theorem scaled_shift (m k : Nat) (e : Int) : scaled (m * 2 ^ k) e = scaled m (e + k) := by
  rw [scaled, scaled, zpow_add₀ two_ne_zero, zpow_natCast]
  push_cast
  ring

theorem scaled_le_scaled : scaled m e ≤ scaled n e ↔ m ≤ n := by
  rw [scaled, scaled, mul_le_mul_iff_left₀ (zpow_pos two_pos e), Nat.cast_le]

theorem scaled_nonneg (m : Nat) (e : Int) : 0 ≤ scaled m e :=
  mul_nonneg (Nat.cast_nonneg m) (zpow_pos two_pos e).le

theorem scaled_eq_zero : scaled m e = 0 ↔ m = 0 := by
  rw [scaled, mul_eq_zero_iff_right (zpow_pos two_pos e).ne', Nat.cast_eq_zero]

theorem scaled_two_pow (k : Nat) (e : Int) : scaled (2 ^ k) e = 2 ^ (e + k) := by
  rw [← Nat.one_mul (2 ^ k), scaled_shift, scaled, Nat.cast_one, one_mul]

theorem scaled_lt (m : Nat) (e : Int) : scaled m e < 2 ^ totalExponent m e := by
  have hlt : (m : ℚ) < 2 ^ (m.log2 + 1) := by exact_mod_cast Nat.lt_log2_self
  rw [scaled, totalExponent, zpow_add₀ two_ne_zero]
  refine mul_lt_mul_of_pos_right ?_ (zpow_pos two_pos e)
  exact_mod_cast hlt

theorem le_scaled (hm : 0 < m) : (2 : ℚ) ^ (totalExponent m e - 1) ≤ scaled m e := by
  have hle : (2 : ℚ) ^ m.log2 ≤ m := by exact_mod_cast Nat.log2_self_le hm.ne'
  have hsplit : totalExponent m e - 1 = m.log2 + e := by
    rw [totalExponent]
    omega
  rw [scaled, hsplit, zpow_add₀ two_ne_zero]
  refine mul_le_mul_of_nonneg_right ?_ (zpow_pos two_pos e).le
  exact_mod_cast hle

theorem totalExponent_le (hm : 0 < m) (h : scaled m e ≤ scaled n f) :
    totalExponent m e ≤ totalExponent n f := by
  have hlt : (2 : ℚ) ^ (totalExponent m e - 1) < 2 ^ totalExponent n f :=
    ((le_scaled hm).trans h).trans_lt (scaled_lt n f)
  have := (zpow_lt_zpow_iff_right₀ one_lt_two).mp hlt
  omega

theorem targetExponent_mono (spec : Format) {a b : Int} (h : a ≤ b) :
    spec.targetExponent a ≤ spec.targetExponent b := by
  rw [Format.targetExponent, Format.targetExponent]
  omega

/-- Larger numbers have larger exponents, or the same and larger mantissas. -/
theorem scaled_lt_scaled (hn : 0 < n) (hm : Canonical spec m e) (hf : Canonical spec n f)
    (h : e < f) : scaled m e < scaled n f := by
  by_contra hle
  have htotal := totalExponent_le hn (not_lt.mp hle)
  have hmono := targetExponent_mono spec htotal
  rw [hm, hf] at hmono
  omega

theorem Canonical.minExponent_le (h : Canonical spec m e) : spec.minExponent ≤ e := by
  rw [Canonical, Format.targetExponent] at h
  omega

/-- A mantissa that is not full has the smallest exponent. -/
theorem Canonical.full_or (h : Canonical spec m e) : m.log2 = spec.mantissaBitsWithoutImplicit ∨
      m.log2 < spec.mantissaBitsWithoutImplicit ∧ e = spec.minExponent := by
  rw [Canonical, Format.targetExponent, totalExponent, Format.mantissaBits] at h
  omega

/-- What a mantissa becomes when digits are dropped is exact if they are zeros. -/
theorem mantissa_shift (em : ExtendedMantissa) (k : Nat) :
    (em >>> k).mantissa = em.mantissa / 2 ^ k := by
  induction k with
  | zero => exact (Nat.div_one _).symm
  | succ k ih =>
    have hone : (em >>> (k + 1)).mantissa = (em >>> k).mantissa / 2 := rfl
    rw [hone, ih, Nat.div_div_eq_div_mul, Nat.pow_succ]

theorem roundedMantissa_le (em : ExtendedMantissa) : em.roundedMantissa ≤ em.mantissa + 1 := by
  obtain ⟨m, round, sticky⟩ := em
  cases round <;> cases sticky <;>
    simp [ExtendedMantissa.roundedMantissa, ExtendedMantissa.accuracy, Accuracy.roundToNearestEven]
  omega

theorem le_roundedMantissa (em : ExtendedMantissa) : em.mantissa ≤ em.roundedMantissa := by
  obtain ⟨m, round, sticky⟩ := em
  cases round <;> cases sticky <;>
    simp [ExtendedMantissa.roundedMantissa, ExtendedMantissa.accuracy, Accuracy.roundToNearestEven]

theorem shift_exact (h : 2 ^ k ∣ m) :
    ExtendedMantissa.ofMantissaAndAccuracy m .exact >>> k = ⟨m / 2 ^ k, false, false⟩ := by
  induction k with
  | zero => simp [HShiftRight.hShiftRight, Nat.repeat, ExtendedMantissa.ofMantissaAndAccuracy]
  | succ k ih =>
    have hone : ExtendedMantissa.ofMantissaAndAccuracy m .exact >>> (k + 1) =
        (ExtendedMantissa.ofMantissaAndAccuracy m .exact >>> k).shiftRightOne := rfl
    obtain ⟨c, hc⟩ := h
    have hdvd : 2 ^ k ∣ m := ⟨2 * c, by rw [hc]; ring⟩
    have hdiv : m / 2 ^ k = 2 * c := by
      rw [hc, Nat.pow_succ, Nat.mul_assoc, Nat.mul_div_cancel_left _ (Nat.two_pow_pos k)]
    rw [hone, ih hdvd, ExtendedMantissa.shiftRightOne, Nat.pow_succ, ← Nat.div_div_eq_div_mul, hdiv]
    simp

/-- The rounded mantissa is no further than the next whole number. -/
theorem rounded_le {c : Nat} (h : m ≤ c * 2 ^ k) :
    (ExtendedMantissa.ofMantissaAndAccuracy m .exact >>> k).roundedMantissa ≤ c := by
  by_cases hdvd : 2 ^ k ∣ m
  · rw [shift_exact hdvd]
    exact Nat.div_le_of_le_mul (by rw [Nat.mul_comm]; exact h)
  · refine (roundedMantissa_le _).trans ?_
    rw [mantissa_shift]
    have hlt : m < c * 2 ^ k := by
      refine lt_of_le_of_ne h ?_
      rintro rfl
      exact hdvd (Nat.dvd_mul_left _ _)
    exact (Nat.div_lt_iff_lt_mul (Nat.two_pow_pos k)).mpr hlt

theorem le_rounded {c : Nat} (h : c * 2 ^ k ≤ m) :
    c ≤ (ExtendedMantissa.ofMantissaAndAccuracy m .exact >>> k).roundedMantissa := by
  refine le_trans ?_ (le_roundedMantissa _)
  rw [mantissa_shift]
  exact (Nat.le_div_iff_mul_le (Nat.two_pow_pos k)).mpr h

/-- A mantissa that has no more digits than the format allows is left as it is, and one that has
just come to have one more loses a zero. -/
theorem shiftToTargetExponent_exact (hmin : spec.minExponent ≤ t) (hn : n ≤ 2 ^ spec.mantissaBits) :
    ∃ m e, shiftToTargetExponent spec n t .exact = (⟨m, false, false⟩, e) ∧
      scaled m e = scaled n t ∧
      (2 ^ (spec.mantissaBits - 1) ≤ n ∨ t = spec.minExponent → 0 < n → Canonical spec m e) := by
  have hbits : 0 < spec.mantissaBits := by
    rw [Format.mantissaBits]
    omega
  rw [shiftToTargetExponent, shiftToExponent]
  obtain hlt | rfl := hn.lt_or_eq
  · have hlog : n.log2 + 1 ≤ spec.mantissaBits := by
      by_cases hzero : n = 0
      · rw [hzero, Nat.log2_zero]
        omega
      · exact (Nat.log2_lt hzero).mpr hlt
    have htarget : spec.targetExponent (totalExponent n t) ≤ t := by
      rw [Format.targetExponent, totalExponent]
      omega
    have hshift : (spec.targetExponent (totalExponent n t) - t).toNat = 0 := by omega
    refine ⟨n, t, ?_, rfl, fun hfull hpos => ?_⟩
    · rw [hshift, shift_exact (one_dvd n)]
      simp
    · obtain hle | hmin' := hfull
      · have hlog' := (Nat.le_log2 hpos.ne').mpr hle
        rw [Canonical, Format.targetExponent, totalExponent]
        omega
      · rw [Canonical]
        refine le_antisymm htarget ?_
        rw [Format.targetExponent, hmin']
        omega
  · have htarget : spec.targetExponent (totalExponent (2 ^ spec.mantissaBits) t) = t + 1 := by
      rw [Format.targetExponent, totalExponent, Nat.log2_two_pow]
      omega
    have hshift :
        (spec.targetExponent (totalExponent (2 ^ spec.mantissaBits) t) - t).toNat = 1 := by
      omega
    have hsplit : 2 ^ spec.mantissaBits = 2 ^ (spec.mantissaBits - 1) * 2 ^ 1 := by
      rw [← Nat.pow_add, Nat.sub_add_cancel hbits]
    refine ⟨2 ^ (spec.mantissaBits - 1), t + 1, ?_, ?_, fun _ _ => ?_⟩
    · rw [hshift, shift_exact ⟨2 ^ (spec.mantissaBits - 1), by rw [hsplit, Nat.mul_comm]⟩, hsplit,
        Nat.mul_div_cancel _ (Nat.two_pow_pos 1)]
      rfl
    · rw [hsplit, scaled_shift]
      rfl
    · rw [Canonical, Format.targetExponent, totalExponent, Nat.log2_two_pow]
      omega

/-- What is rounded is a whole number of units of the format, and on the same side of all others. -/
theorem exists_round (spec : Format) (s : Sign) (hm : 0 < m) (e : Int) :
    ∃ r, (∀ c, scaled c (spec.targetExponent (totalExponent m e)) ≤ scaled m e → c ≤ r) ∧
      (∀ c, scaled m e ≤ scaled c (spec.targetExponent (totalExponent m e)) → r ≤ c) ∧
      (r = 0 ∧ UnpackedFloat.round spec s m e = .zero s ∨
        ∃ m' e' h, UnpackedFloat.round spec s m e = .finite s m' e' h ∧ Canonical spec m' e' ∧
          scaled m' e' = scaled r (spec.targetExponent (totalExponent m e))) := by
  have htarget : spec.targetExponent (totalExponent m e) =
      max (totalExponent m e - spec.mantissaBits) spec.minExponent := rfl
  generalize ht : spec.targetExponent (totalExponent m e) = t at htarget ⊢
  -- First the exponent is brought down, if it is too large, and then up.
  generalize hm₁ : m <<< (e - t).toNat = m₁
  generalize he₁ : e - (e - t).toNat = e₁
  have hscaled : scaled m₁ e₁ = scaled m e := by
    rw [← hm₁, ← he₁, Nat.shiftLeft_eq, scaled_shift, sub_add_cancel]
  have htotal : totalExponent m₁ e₁ = totalExponent m e := by
    have hpos : 0 < m₁ := by
      rw [← hm₁, Nat.shiftLeft_eq]
      positivity
    exact le_antisymm (totalExponent_le hpos hscaled.le) (totalExponent_le hm hscaled.ge)
  have hk : e₁ + (t - e₁).toNat = t := by omega
  generalize hk' : (t - e₁).toNat = k at hk
  let r := (ExtendedMantissa.ofMantissaAndAccuracy m₁ .exact >>> k).roundedMantissa
  have hround : UnpackedFloat.round spec s m e =
      if h : (shiftToTargetExponent spec r t .exact).1.mantissa = 0 then .zero s
      else .finite s (shiftToTargetExponent spec r t .exact).1.mantissa
        (shiftToTargetExponent spec r t .exact).2 (Nat.pos_of_ne_zero h) := by
    have hfirst : shiftToTargetExponent spec m₁ e₁ .exact =
        (ExtendedMantissa.ofMantissaAndAccuracy m₁ .exact >>> (t - e₁).toNat,
          e₁ + (t - e₁).toNat) := by
      rw [shiftToTargetExponent, shiftToExponent, htotal, ht]
    have hlast : UnpackedFloat.round spec s m e = roundWithAccuracy spec s m₁ e₁ .exact := by
      rw [UnpackedFloat.round, decreaseExponent]
      simp only [ht, hm₁, he₁]
    rw [hlast, roundWithAccuracy]
    simp only [hfirst, hk', hk, r]
  have hlow (c : Nat) (hc : scaled c t ≤ scaled m e) : c ≤ r := by
    rw [← hscaled, ← hk, ← scaled_shift] at hc
    exact le_rounded (scaled_le_scaled.mp hc)
  have hhigh (c : Nat) (hc : scaled m e ≤ scaled c t) : r ≤ c := by
    rw [← hscaled, ← hk, ← scaled_shift] at hc
    exact rounded_le (scaled_le_scaled.mp hc)
  refine ⟨r, hlow, hhigh, ?_⟩
  have hn : r ≤ 2 ^ spec.mantissaBits := by
    apply hhigh
    rw [scaled_two_pow]
    refine (scaled_lt m e).le.trans (zpow_le_zpow_right₀ one_le_two ?_)
    omega
  have hfull : 2 ^ (spec.mantissaBits - 1) ≤ r ∨ t = spec.minExponent := by
    obtain hle | hlt := le_or_gt (totalExponent m e - spec.mantissaBits) spec.minExponent
    · right
      omega
    · left
      apply hlow
      rw [scaled_two_pow]
      refine le_trans (zpow_le_zpow_right₀ one_le_two ?_) (le_scaled hm)
      rw [Format.mantissaBits] at htarget hlt ⊢
      omega
  obtain ⟨m', e', hshift, hvalue, hcanonical⟩ :=
    shiftToTargetExponent_exact (t := t) (by omega) hn
  rw [hround]
  simp only [hshift]
  have hzero : m' = 0 ↔ r = 0 := by rw [← scaled_eq_zero, hvalue, scaled_eq_zero]
  by_cases hr : r = 0
  · left
    exact ⟨hr, dif_pos (hzero.mpr hr)⟩
  · right
    have hne : m' ≠ 0 := fun h => hr (hzero.mp h)
    exact ⟨m', e', Nat.pos_of_ne_zero hne, dif_neg hne,
      hcanonical hfull (Nat.pos_of_ne_zero hr), hvalue⟩

/-- A rounded number is on the same side of every number of the format as before. -/
theorem exists_rounded (spec : Format) (s : Sign) (hm : 0 < m) (e : Int) : ∃ q, 0 ≤ q ∧
      (∀ n f, 0 < n → Canonical spec n f →
        (scaled n f ≤ scaled m e → scaled n f ≤ q) ∧ (scaled m e ≤ scaled n f → q ≤ scaled n f)) ∧
      (q = 0 ∧ UnpackedFloat.round spec s m e = .zero s ∨
        ∃ m' e' h, UnpackedFloat.round spec s m e = .finite s m' e' h ∧ Canonical spec m' e' ∧
          scaled m' e' = q) := by
  obtain ⟨r, hlow, hhigh, hround⟩ := exists_round spec s hm e
  have htarget : spec.targetExponent (totalExponent m e) =
      max (totalExponent m e - spec.mantissaBits) spec.minExponent := rfl
  generalize ht : spec.targetExponent (totalExponent m e) = t at *
  refine ⟨scaled r t, scaled_nonneg r t, fun n f hn hf => ?_, ?_⟩
  · have hunits (h : t ≤ f) : scaled n f = scaled (n * 2 ^ (f - t).toNat) t := by
      rw [scaled_shift]
      congr 1
      omega
    constructor
    · intro hle
      obtain h | h := le_or_gt t f
      · rw [hunits h] at hle ⊢
        exact scaled_le_scaled.mpr (hlow _ hle)
      · -- A number with a smaller exponent is below all with this one that have a leading digit.
        have htotal : totalExponent n f < totalExponent m e := by
          by_contra hge
          have hmono := targetExponent_mono spec (not_lt.mp hge)
          rw [ht, hf] at hmono
          omega
        have hmin := hf.minExponent_le
        have hbits : 0 < spec.mantissaBits := by
          rw [Format.mantissaBits]
          omega
        have hfull : scaled (2 ^ (spec.mantissaBits - 1)) t = 2 ^ (totalExponent m e - 1) := by
          rw [scaled_two_pow]
          congr 1
          omega
        have hr : 2 ^ (spec.mantissaBits - 1) ≤ r := by
          apply hlow
          rw [hfull]
          exact le_scaled hm
        calc scaled n f ≤ 2 ^ totalExponent n f := (scaled_lt n f).le
          _ ≤ 2 ^ (totalExponent m e - 1) := zpow_le_zpow_right₀ one_le_two (by omega)
          _ = scaled (2 ^ (spec.mantissaBits - 1)) t := hfull.symm
          _ ≤ scaled r t := scaled_le_scaled.mpr hr
    · intro hle
      have hmono := targetExponent_mono spec (totalExponent_le hm hle)
      rw [ht, hf] at hmono
      rw [hunits hmono] at hle ⊢
      exact scaled_le_scaled.mpr (hhigh _ hle)
  · obtain ⟨rfl, hzero⟩ | hfinite := hround
    · left
      exact ⟨scaled_eq_zero.mpr rfl, hzero⟩
    · right
      exact hfinite

end Rounding
