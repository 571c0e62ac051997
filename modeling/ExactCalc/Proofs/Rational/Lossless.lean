import ExactCalc.Proofs.Decimal.Normal
import ExactCalc.Proofs.Rational.Expansion

/-!
Which expansions lose nothing. A number with a whole number of units of the last digit is its own
expansion, and those are the numbers whose denominator divides the power of ten; a decimal that is
made into a rational comes back in its shortest form from every scale that has room for it.
Expansions to two scales are the same decimal exactly if the longer one has no more digits than
the shorter scale.
-/

namespace ExactCalc.Rational

variable {a : Rational} {scale : ℕ}

/-- The numbers with a whole number of units of the last digit. -/
theorem den_dvd_pow_iff : a.den ∣ 10 ^ scale ↔ ∃ k : ℤ, a.toRat = k / 10 ^ scale := by
  have h := den_dvd_iff (a := a) (pow_ne_zero scale (by decide : 10 ≠ 0))
  rwa [Nat.cast_pow, Nat.cast_ofNat] at h

theorem toRat_toDecimal_eq_iff :
    (a.toDecimal scale).toRat = a.toRat ↔ ∃ k : ℤ, a.toRat = k / 10 ^ scale := by
  have hpow : (10 : ℚ) ^ scale ≠ 0 := pow_ne_zero _ (by decide)
  constructor
  · intro h
    exact ⟨(a * ofInt (10 ^ scale)).round .toEven, by rw [← h, toRat_toDecimal]⟩
  · rintro ⟨k, hk⟩
    -- The number is `k` units, and an integer is rounded to itself.
    have hround : (a * ofInt (10 ^ scale)).round .toEven = k := by
      rw [round_eq_iff, toRat_mul_ofInt_pow, hk, div_mul_cancel₀ _ hpow]
      exact TieRule.rounds_intCast .toEven k
    rw [toRat_toDecimal, hround, hk]

theorem ofDecimal_toDecimal_eq_iff : ofDecimal (a.toDecimal scale) = a ↔ a.den ∣ 10 ^ scale := by
  rw [← toRat_injective.eq_iff, toRat_ofDecimal, toRat_toDecimal_eq_iff, den_dvd_pow_iff]

/-- A decimal survives the way through a rational but for the zeros at its end. -/
theorem toDecimal_ofDecimal {d : Decimal} (h : d.normalized.scale ≤ scale) :
    (ofDecimal d).toDecimal scale = d.normalized := by
  have hnormal := Decimal.normal_normalized d
  have hunits : ∃ k : ℤ, (ofDecimal d).toRat = k / 10 ^ scale := by
    rw [toRat_ofDecimal, ← Decimal.toRat_normalized]
    exact hnormal.scale_le_iff.1 h
  refine (normal_toDecimal _ _).eq_of_toRat_eq hnormal ?_
  rw [toRat_toDecimal_eq_iff.2 hunits, toRat_ofDecimal, Decimal.toRat_normalized]

/-! ### Two scales -/

theorem toDecimal_eq_of_le {short long : ℕ} (hle : short ≤ long) :
    a.toDecimal short = a.toDecimal long ↔ (a.toDecimal long).scale ≤ short := by
  have hnormal := normal_toDecimal a long
  constructor
  · intro h
    rw [← h]
    exact scale_toDecimal_le a short
  · intro hscale
    rcases hle.eq_or_lt with rfl | hlt
    · rfl
    obtain ⟨k, hk⟩ := hnormal.scale_le_iff.1 hscale
    have hshort : (0 : ℚ) < 10 ^ short := pow_pos (by decide) _
    have hlong : (0 : ℚ) < 10 ^ long := pow_pos (by decide) _
    -- The longer expansion is nearer than half a unit of the shorter scale.
    have hround : (a * ofInt (10 ^ short)).round .toEven = k := by
      rw [round_eq_iff]
      apply TieRule.Rounds.of_lt
      have hnear := (rounds_round (a * ofInt (10 ^ long)) .toEven).near
      have hdistance : |(a * ofInt (10 ^ short)).toRat - k| / 10 ^ short =
          |(a * ofInt (10 ^ long)).toRat - (a * ofInt (10 ^ long)).round .toEven| / 10 ^ long := by
        rw [← abs_sub_div_pow, ← abs_sub_div_pow, ← hk, toRat_toDecimal]
      rw [div_eq_div_iff hshort.ne' hlong.ne'] at hdistance
      apply lt_of_mul_lt_mul_right _ hlong.le
      calc |(a * ofInt (10 ^ short)).toRat - k| * 10 ^ long
          = |(a * ofInt (10 ^ long)).toRat - (a * ofInt (10 ^ long)).round .toEven| *
              10 ^ short := hdistance
        _ ≤ 1 / 2 * 10 ^ short := mul_le_mul_of_nonneg_right hnear hshort.le
        _ < 1 / 2 * 10 ^ long :=
          mul_lt_mul_of_pos_left (pow_lt_pow_right₀ (by norm_num) hlt) (by norm_num)
    refine (normal_toDecimal a short).eq_of_toRat_eq hnormal ?_
    rw [toRat_toDecimal, hround, hk]

/-- Expansions to two scales are the same decimal exactly if the shorter scale has room for the
longer one. -/
theorem toDecimal_eq_toDecimal_iff {m n : ℕ} :
    a.toDecimal m = a.toDecimal n ↔ (a.toDecimal (max m n)).scale ≤ min m n := by
  rcases le_total m n with hle | hle
  · rw [max_eq_right hle, min_eq_left hle]
    exact toDecimal_eq_of_le hle
  · rw [max_eq_left hle, min_eq_right hle, eq_comm]
    exact toDecimal_eq_of_le hle

/-! ### There and back -/

/-- A rational comes back from its expansion exactly if its denominator divides the power of ten,
and a decimal comes back from its rational in its shortest form, wherever there is room for that.
-/
theorem conversions_lossless (a : Rational) (d : Decimal) (scale : ℕ) :
    (ofDecimal (a.toDecimal scale) = a ↔ a.den ∣ 10 ^ scale) ∧
      (d.normalized.scale ≤ scale → (ofDecimal d).toDecimal scale = d.normalized) :=
  ⟨ofDecimal_toDecimal_eq_iff, toDecimal_ofDecimal⟩

/-- Eighths need three digits, and a decimal with four digits after the point of which two are zeros
comes back from a scale of two. -/
theorem conversions_lossless_of_eighth :
    let eighth := ofFraction 1 (-8) (by decide)
    let d := Decimal.ofParts true 123400 4
    ofDecimal (eighth.toDecimal 3) = eighth ∧ ofDecimal (eighth.toDecimal 2) ≠ eighth ∧
      d.normalized.scale ≤ 2 ∧ (ofDecimal d).toDecimal 2 = d.normalized ∧
      d.normalized = Decimal.ofParts true 1234 2 := by
  intro eighth d
  have hscale : d.normalized.scale ≤ 2 := by decide
  have hthree := conversions_lossless eighth d 3
  have htwo := conversions_lossless eighth d 2
  exact ⟨hthree.1.2 (by decide), fun h => absurd (htwo.1.1 h) (by decide), hscale,
    htwo.2 hscale, by decide⟩

end ExactCalc.Rational
