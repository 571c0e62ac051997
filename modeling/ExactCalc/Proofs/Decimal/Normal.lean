import ExactCalc.Proofs.Decimal.Value
import ExactCalc.Proofs.Rational.Round

/-!
One shortest form for each number. A decimal without a zero at its end has the least scale of all
decimals of its number, so two such decimals of one number have the same scale, and with it the same
digits and the same sign. The least scale says of which powers of ten the number is a fraction.
-/

namespace ExactCalc.Decimal

variable {a b d : Decimal}

theorem natAbs_coefficient (d : Decimal) : d.coefficient.natAbs = d.mantissa :=
  Rational.natAbs_signed _ _

/-- Decimals of one number, brought to a common scale. -/
theorem coefficient_mul_pow (h : a.toRat = b.toRat) :
    a.coefficient * 10 ^ b.scale = b.coefficient * 10 ^ a.scale := by
  have ha : (10 : ℚ) ^ a.scale ≠ 0 := pow_ne_zero _ (by decide)
  have hb : (10 : ℚ) ^ b.scale ≠ 0 := pow_ne_zero _ (by decide)
  rw [toRat, toRat, div_eq_div_iff ha hb] at h
  exact_mod_cast h

theorem mantissa_mul_pow (h : a.toRat = b.toRat) :
    a.mantissa * 10 ^ b.scale = b.mantissa * 10 ^ a.scale := by
  have habs := congrArg Int.natAbs (coefficient_mul_pow h)
  simpa [Int.natAbs_mul, Int.natAbs_pow, natAbs_coefficient] using habs

theorem Normal.scale_le (hb : b.Normal) (h : a.toRat = b.toRat) : b.scale ≤ a.scale := by
  by_contra hlt
  obtain ⟨k, hk⟩ := Nat.exists_eq_add_of_lt (not_le.1 hlt)
  -- The digits that the longer decimal has more are zeros.
  have hmantissa : b.mantissa = a.mantissa * 10 ^ k * 10 := by
    have hcross := mantissa_mul_pow h
    have hpow : 0 < 10 ^ a.scale := Nat.pow_pos (by decide)
    rw [hk, Nat.pow_succ, Nat.pow_add, Nat.mul_comm (10 ^ a.scale)] at hcross
    apply Nat.eq_of_mul_eq_mul_right hpow
    rw [← hcross]
    ring
  rcases hb.last_digit with hzero | hdigit
  · omega
  · exact hdigit (by rw [hmantissa, Nat.mul_mod_left])

/-- A sign in front of a decimal that has no signed zero. -/
theorem Normal.coefficient_neg_iff (h : d.Normal) :
    d.coefficient < 0 ↔ d.isNegative = true := by
  rw [coefficient]
  cases hnegative : d.isNegative with
  | false => simp [Numeral.signed]
  | true =>
      have hne : d.mantissa ≠ 0 := h.sign hnegative
      simp only [Numeral.signed, if_true, iff_true]
      omega

/-- A number has one normal decimal. -/
theorem Normal.eq_of_toRat_eq (ha : a.Normal) (hb : b.Normal) (h : a.toRat = b.toRat) : a = b := by
  have hscale : a.scale = b.scale := Nat.le_antisymm (ha.scale_le h.symm) (hb.scale_le h)
  have hcoefficient : a.coefficient = b.coefficient := by
    have hcross := coefficient_mul_pow h
    rw [hscale] at hcross
    exact Int.eq_of_mul_eq_mul_right (pow_ne_zero _ (by decide)) hcross
  have hmantissa : a.mantissa = b.mantissa := by
    rw [← natAbs_coefficient, hcoefficient, natAbs_coefficient]
  have hsign : a.isNegative = b.isNegative := by
    rw [Bool.eq_iff_iff, ← ha.coefficient_neg_iff, ← hb.coefficient_neg_iff, hcoefficient]
  exact eq_of_parts hsign hmantissa hscale

/-- A normal decimal has at most so many digits after the point exactly if its number is a whole
number of units of the last of them. -/
theorem Normal.scale_le_iff (h : d.Normal) {scale : ℕ} :
    d.scale ≤ scale ↔ ∃ k : ℤ, d.toRat = k / 10 ^ scale := by
  constructor
  · intro hle
    obtain ⟨more, rfl⟩ := Nat.exists_eq_add_of_le hle
    exact ⟨(d.lengthened more).coefficient, (toRat_lengthened d more).symm⟩
  · rintro ⟨k, hk⟩
    -- The units themselves are a decimal of this scale.
    have hunits : (ofParts (k < 0) k.natAbs scale).toRat = d.toRat := by
      rw [toRat, coefficient_ofParts, scale_ofParts, Numeral.signed_natAbs, hk]
    exact h.scale_le hunits

end ExactCalc.Decimal
