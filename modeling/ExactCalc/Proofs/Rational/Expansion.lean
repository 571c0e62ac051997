import ExactCalc.Proofs.Decimal.Value
import ExactCalc.Proofs.Rational.Round

/-!
The decimal expansion of a rational. The digits come from a quotient of natural numbers, with the
sign put in front at the end, while rounding to an integer works with the sign all along; both end
at the one integer to which ties to even round the number in units of the last digit. The
expansion is that integer in its shortest form.
-/

namespace ExactCalc

open Numeral

/-- The last digit goes up where the even rule takes the quotient up. -/
theorem Decimal.ofRatio_eq (num : Int) (den scale : Nat) :
    ofRatio num den scale =
      normalized (ofParts (num < 0)
        (TieRule.toEven.quotient (num < 0) (num.natAbs * 10 ^ scale) den) scale) := by
  rw [ofRatio, TieRule.quotient_toEven]

theorem Decimal.toRat_ofRatio (num : Int) (den scale : Nat) :
    (ofRatio num den scale).toRat =
      signed (num < 0) (TieRule.toEven.quotient (num < 0) (num.natAbs * 10 ^ scale) den) /
        10 ^ scale := by
  rw [ofRatio_eq, toRat_normalized, toRat, coefficient_ofParts, scale_ofParts]

namespace Rational

/-- A number in units of the last of `scale` digits after the point. -/
theorem toRat_mul_ofInt_pow (a : Rational) (scale : Nat) :
    (a * ofInt (10 ^ scale)).toRat = a.toRat * 10 ^ scale := by
  rw [toRat_mul, toRat_ofInt, Int.cast_pow, Int.cast_ofNat]

/-- The expansion is the number in units of its last digit, rounded. -/
theorem toRat_toDecimal (a : Rational) (scale : Nat) :
    (a.toDecimal scale).toRat = ((a * ofInt (10 ^ scale)).round .toEven : ℚ) / 10 ^ scale := by
  have hpow : (10 : ℚ) ^ scale ≠ 0 := pow_ne_zero _ (by decide)
  rw [toDecimal]
  split
  -- An integer is a whole number of units at every scale and rounds to itself.
  · next hinteger =>
    have hvalue : a.toRat = a.num := by
      rw [toRat, beq_iff_eq.1 hinteger, Nat.cast_one, div_one]
    have hround : (a * ofInt (10 ^ scale)).round .toEven = a.num * 10 ^ scale := by
      rw [round_eq_iff, toRat_mul_ofInt_pow, hvalue]
      exact_mod_cast TieRule.rounds_intCast .toEven (a.num * 10 ^ scale)
    rw [Decimal.toRat_ofInt, hround, Int.cast_mul, Int.cast_pow, Int.cast_ofNat,
      mul_div_cancel_right₀ _ hpow]
  -- Reducing the fraction of units may change its terms, but not the integer that it rounds to.
  · rw [Decimal.toRat_ofRatio]
    congr 2
    rw [eq_comm, round_eq_iff, toRat_mul_ofInt_pow]
    have h := TieRule.rounds_quotient .toEven (a.num < 0) (a.num.natAbs * 10 ^ scale) a.den_pos
    rw [signed_mul, signed_natAbs, Int.cast_mul, Int.cast_natCast, Nat.cast_pow, Nat.cast_ofNat,
      mul_div_right_comm] at h
    exact h

theorem scale_toDecimal_le (a : Rational) (scale : Nat) : (a.toDecimal scale).scale ≤ scale := by
  rw [toDecimal]
  split
  · exact Nat.zero_le _
  · exact Decimal.scale_normalized_le _

/-- The expansion has no zero at its end, and a number that rounds to zero loses its sign. -/
theorem normal_toDecimal (a : Rational) (scale : Nat) : (a.toDecimal scale).Normal := by
  rw [toDecimal]
  split
  · exact ⟨.inl rfl, fun h => (Decimal.isNegative_ofParts.1 h).2⟩
  · exact Decimal.normal_normalized _

theorem toRat_toDecimal_neg (a : Rational) (scale : Nat) :
    ((-a).toDecimal scale).toRat = -(a.toDecimal scale).toRat := by
  have hneg : -a * ofInt (10 ^ scale) = -(a * ofInt (10 ^ scale)) := by
    apply toRat_injective
    rw [toRat_mul, toRat_neg, toRat_neg, toRat_mul, neg_mul]
  have hround : (-a * ofInt (10 ^ scale)).round .toEven =
      -(a * ofInt (10 ^ scale)).round .toEven := by
    rw [hneg, round_neg, TieRule.mirror]
  rw [toRat_toDecimal, toRat_toDecimal, hround, Int.cast_neg, neg_div]

/-- What an expansion to `scale` digits after the point is: the number in units of the last digit,
rounded to even, so that no multiple of the unit is nearer and another one as near only where this
one is even, written in its shortest form and without a sign on a zero. -/
structure Expands (a : Rational) (scale : Nat) (d : Decimal) : Prop where
  value : d.toRat = ((a * ofInt (10 ^ scale)).round .toEven : ℚ) / 10 ^ scale
  nearest : ∀ k : ℤ, |a.toRat - d.toRat| ≤ |a.toRat - k / 10 ^ scale|
  even : ∀ k : ℤ, |a.toRat - d.toRat| = |a.toRat - k / 10 ^ scale| →
    d.toRat = k / 10 ^ scale ∨ Even ((a * ofInt (10 ^ scale)).round .toEven)
  scale_le : d.scale ≤ scale
  normal : d.Normal

/-- Distances in units of the last digit. -/
theorem abs_sub_div_pow (a : Rational) (scale : Nat) (k : ℤ) :
    |a.toRat - k / 10 ^ scale| = |(a * ofInt (10 ^ scale)).toRat - k| / 10 ^ scale := by
  have hpow : (0 : ℚ) < 10 ^ scale := pow_pos (by decide) _
  calc |a.toRat - k / 10 ^ scale|
      = |(a.toRat * 10 ^ scale - k) / 10 ^ scale| := by
        rw [sub_div, mul_div_cancel_right₀ _ hpow.ne']
    _ = |(a * ofInt (10 ^ scale)).toRat - k| / 10 ^ scale := by
        rw [abs_div, abs_of_pos hpow, toRat_mul_ofInt_pow]

/-- Every number has an expansion to every scale, and its opposite has the opposite one. -/
theorem toDecimal_expands (a : Rational) (scale : Nat) :
    Expands a scale (a.toDecimal scale) ∧
    ((-a).toDecimal scale).toRat = -(a.toDecimal scale).toRat := by
  have hpow : (0 : ℚ) < 10 ^ scale := pow_pos (by decide) _
  have hrounds := rounds_round (a * ofInt (10 ^ scale)) .toEven
  have hvalue := toRat_toDecimal a scale
  refine ⟨⟨hvalue, fun k => ?_, fun k => ?_, scale_toDecimal_le a scale,
    normal_toDecimal a scale⟩, toRat_toDecimal_neg a scale⟩
  · rw [hvalue, abs_sub_div_pow, abs_sub_div_pow, div_le_div_iff_of_pos_right hpow]
    exact hrounds.nearest k
  · rw [hvalue, abs_sub_div_pow, abs_sub_div_pow, div_left_inj' hpow.ne']
    intro heq
    by_cases hk : k = (a * ofInt (10 ^ scale)).round .toEven
    · exact .inl (by rw [hk])
    · exact .inr (hrounds.takes_of_eq hk heq)

-- A carry through all digits, and a negative number that rounds to zero.
example : (ofFraction 99996 100000 (by decide)).toDecimal 4 = Decimal.ofInt 1 := by decide

example : (ofFraction (-1) 3000 (by decide)).toDecimal 3 = Decimal.ofInt 0 := by decide

end Rational

end ExactCalc
