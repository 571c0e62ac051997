import ExactCalc.Proofs.Binary64.Nearest
import ExactCalc.Proofs.Decimal.Normal
import ExactCalc.Proofs.Rational.Binary64
import ExactCalc.Proofs.Rational.Expansion

/-!
Reading a binary number as a rational and writing it again. The numerator and the denominator have
few digits, so they are written as they are, and so is their quotient, as long as the denominator is
in range; the numerator always is. A greater denominator belongs to a number so small that its
decimal expansion is zero. Which numbers these are is seen from the fraction of the pattern.
-/

namespace ExactCalc.Rational

open Numeral Binary64

variable {x : Binary64} {a : Rational}

/-! ### In range -/

/-- A rational is written exactly where numerator, denominator and quotient have few enough digits
and the first two are in range. -/
theorem toBinary64_exact (hnum : Representable a.num.natAbs) (hden : Representable a.den)
    (hvalue : Representable |a.toRat|) (hnumRange : (a.num.natAbs : ℚ) < 2 ^ (1024 : ℤ))
    (hdenRange : (a.den : ℚ) < 2 ^ (1024 : ℤ)) :
    a.toBinary64.negative = a.isNegative ∧ a.toBinary64.toRat = a.toRat := by
  have hnumFinite := (isFinite_nearest_natCast a.isNegative hnum).2 hnumRange
  have hdenFinite := (isFinite_nearest_natCast false hden).2 hdenRange
  have hnumValue : (nearest a.isNegative a.num.natAbs 1).toRat = a.num := by
    rw [toRat_nearest_natCast _ hnum hnumRange, isNegative, signed_natAbs]
  have hdenValue : (nearest false a.den 1).toRat = a.den := by
    rw [toRat_nearest_natCast _ hden hdenRange]
    rfl
  have hquotient : (nearest a.isNegative a.num.natAbs 1).toRat / (nearest false a.den 1).toRat =
      a.toRat := by
    rw [hnumValue, hdenValue]
    rfl
  have hrange : |a.toRat| < 2 ^ (1024 : ℤ) := by
    have hone : (1 : ℚ) ≤ a.den := by exact_mod_cast a.den_pos
    calc |a.toRat| ≤ |a.toRat| * a.den := le_mul_of_one_le_right (abs_nonneg _) hone
      _ = a.num.natAbs := a.natAbs_num_eq.symm
      _ < 2 ^ (1024 : ℤ) := hnumRange
  have hwrite : a.toBinary64 =
      (nearest a.isNegative a.num.natAbs 1).divide (nearest false a.den 1) := by
    simp only [toBinary64, hnumFinite, hdenFinite, Bool.and_self, if_true]
  rw [hwrite, negative_divide, negative_nearest, negative_nearest, Bool.bne_false]
  refine ⟨rfl, ?_⟩
  rw [toRat_divide (hdenValue.symm ▸ a.den_ne_zero) (hquotient.symm ▸ hvalue)
    (hquotient.symm ▸ hrange), hquotient]

/-- Where anything is below the line, the numerator is what reducing leaves of the significand. -/
theorem natAbs_num_le_significand (h : ofBinary64 x = .ok a) (hden : a.den ≠ 1) :
    a.num.natAbs ≤ x.significand := by
  have hdvd := den_dvd_two_pow h
  have hexponent : 2 ^ x.exponent * (2 ^ (-x.exponent).toNat : ℕ) = (1 : ℚ) := by
    have hneg : (-x.exponent).toNat ≠ 0 := by
      intro hzero
      rw [hzero, pow_zero, Nat.dvd_one] at hdvd
      exact hden hdvd
    have hcast : ((-x.exponent).toNat : ℤ) = -x.exponent := by omega
    rw [Nat.cast_pow, Nat.cast_ofNat, ← zpow_natCast, hcast, ← zpow_add₀ two_ne_zero,
      add_neg_cancel, zpow_zero]
  have hle : (a.den : ℚ) ≤ (2 ^ (-x.exponent).toNat : ℕ) :=
    Nat.cast_le.2 (Nat.le_of_dvd (Nat.two_pow_pos _) hdvd)
  have hcast : (a.num.natAbs : ℚ) ≤ x.significand := by
    calc (a.num.natAbs : ℚ) = |x.toRat| * a.den := by
          rw [natAbs_num_eq, (toRat_of_ofBinary64 h).2]
      _ ≤ |x.toRat| * (2 ^ (-x.exponent).toNat : ℕ) :=
          mul_le_mul_of_nonneg_left hle (abs_nonneg _)
      _ = x.significand := by rw [abs_toRat, mul_assoc, hexponent, mul_one]
  exact_mod_cast hcast

theorem natAbs_num_lt_two_pow (h : ofBinary64 x = .ok a) (hden : a.den ≠ 1) :
    (a.num.natAbs : ℚ) < 2 ^ (53 : ℤ) := by
  have hlt := (natAbs_num_le_significand h hden).trans_lt x.significand_lt
  exact_mod_cast hlt

theorem natAbs_num_lt (h : ofBinary64 x = .ok a) : (a.num.natAbs : ℚ) < 2 ^ (1024 : ℤ) := by
  obtain ⟨hfinite, hvalue⟩ := toRat_of_ofBinary64 h
  by_cases hden : a.den = 1
  · rw [natAbs_num_eq, hden, Nat.cast_one, mul_one, hvalue]
    exact abs_toRat_lt hfinite
  · exact (natAbs_num_lt_two_pow h hden).trans_le (zpow_le_zpow_right₀ one_le_two (by decide))

theorem representable_den (h : ofBinary64 x = .ok a) : Representable a.den := by
  obtain ⟨k, -, hpow⟩ := exists_den_eq_two_pow h
  rw [hpow, Nat.cast_pow, Nat.cast_ofNat, ← one_mul (2 ^ k : ℚ)]
  exact representable_one.mul_two_pow k

theorem representable_num (h : ofBinary64 x = .ok a) : Representable a.num.natAbs := by
  obtain ⟨k, -, hpow⟩ := exists_den_eq_two_pow h
  rw [natAbs_num_eq, (toRat_of_ofBinary64 h).2, hpow, Nat.cast_pow, Nat.cast_ofNat]
  exact x.representable_abs_toRat.mul_two_pow k

/-- A denominator in range brings the number back. The sign of a zero is lost. -/
theorem toBinary64_of_den_lt (h : ofBinary64 x = .ok a) (hden : (a.den : ℚ) < 2 ^ (1024 : ℤ)) :
    a.toBinary64 = if x.magnitude = 0 then .ofBits 0 else x := by
  have hvalue : a.toRat = x.toRat := (toRat_of_ofBinary64 h).2
  obtain ⟨hsign, hwrite⟩ := toBinary64_exact (representable_num h) (representable_den h)
    (hvalue ▸ x.representable_abs_toRat) (natAbs_num_lt h) hden
  rw [hvalue] at hwrite
  split
  · next hzero =>
    have hnumber : x.toRat = 0 := Binary64.toRat_eq_zero_iff.2 hzero
    have hnone : a = zero := toRat_eq_zero_iff.1 (hvalue.trans hnumber)
    refine eq_of_fields (hsign.trans ?_) (Binary64.toRat_eq_zero_iff.1 (hwrite.trans hnumber))
    rw [hnone]
    rfl
  · next hzero =>
    exact (toRat_eq_toRat_iff.1 hwrite).resolve_right fun hzeros => hzero hzeros.2

/-! ### Out of range -/

/-- A number below half a unit of the last digit expands to zero. -/
theorem toDecimal_eq_zero {scale : ℕ} (h : |a.toRat| * 10 ^ scale < 1 / 2) :
    a.toDecimal scale = .ofInt 0 := by
  have hround : (a * ofInt (10 ^ scale)).round .toEven = 0 := by
    rw [round_eq_iff]
    apply TieRule.Rounds.of_lt
    rwa [toRat_mul_ofInt_pow, Int.cast_zero, sub_zero, abs_mul, abs_pow, Nat.abs_ofNat]
  have hzero : (Decimal.ofInt 0).Normal := ⟨.inl rfl, fun hsign => nomatch hsign⟩
  refine (normal_toDecimal a scale).eq_of_toRat_eq hzero ?_
  rw [toRat_toDecimal, hround, Decimal.toRat_ofInt, Int.cast_zero, zero_div]

/-- The numerator is too short to make up for a denominator out of range. -/
theorem abs_toRat_lt_of_le_den (h : ofBinary64 x = .ok a) (hden : (2 : ℚ) ^ (1024 : ℤ) ≤ a.den) :
    |a.toRat| < 2 ^ (-971 : ℤ) := by
  have hone : a.den ≠ 1 := by
    intro hone
    rw [hone, Nat.cast_one] at hden
    exact (one_lt_zpow₀ one_lt_two (by decide)).not_ge hden
  have hpow : (0 : ℚ) < 2 ^ (1024 : ℤ) := zpow_pos two_pos _
  refine lt_of_mul_lt_mul_right ?_ hpow.le
  calc |a.toRat| * 2 ^ (1024 : ℤ) ≤ |a.toRat| * a.den :=
        mul_le_mul_of_nonneg_left hden (abs_nonneg _)
    _ = a.num.natAbs := a.natAbs_num_eq.symm
    _ < 2 ^ (53 : ℤ) := natAbs_num_lt_two_pow h hone
    _ = 2 ^ (-971 : ℤ) * 2 ^ (1024 : ℤ) := by
        rw [← zpow_add₀ two_ne_zero]
        rfl

/-- A denominator out of range loses the number. -/
theorem toBinary64_of_le_den (h : ofBinary64 x = .ok a) (hden : (2 : ℚ) ^ (1024 : ℤ) ≤ a.den) :
    a.toBinary64 = .ofBits 0 := by
  have hinfinite : (nearest false a.den 1).isFinite = false := by
    rw [← Bool.not_eq_true, isFinite_nearest_natCast false (representable_den h), not_lt]
    exact hden
  have hsmall : |a.toRat| * 10 ^ Decimal.defaultScale < 1 / 2 := by
    have hbound : (2 : ℚ) ^ (-971 : ℤ) ≤ 2 ^ (-95 : ℤ) :=
      zpow_le_zpow_right₀ one_le_two (by decide)
    have hdigits : (0 : ℚ) < 10 ^ Decimal.defaultScale := pow_pos (by decide) _
    calc |a.toRat| * 10 ^ Decimal.defaultScale < 2 ^ (-95 : ℤ) * 10 ^ Decimal.defaultScale :=
          mul_lt_mul_of_pos_right ((abs_toRat_lt_of_le_den h hden).trans_le hbound) hdigits
      _ < 1 / 2 := by
          rw [Decimal.defaultScale]
          norm_num
  simp only [toBinary64, hinfinite, Bool.and_false, Bool.false_eq_true, if_false,
    toDecimal_eq_zero hsmall]
  rfl

/-! ### Patterns -/

/-- An integer stays one when it is divided by a power of two that divides it. -/
theorem exists_mul_two_zpow_eq_iff (i e : ℤ) :
    (∃ j : ℤ, (i : ℚ) * 2 ^ e = j) ↔ ((2 ^ (-e).toNat : ℕ) : ℤ) ∣ i := by
  obtain ⟨n, rfl | rfl⟩ := e.eq_nat_or_neg
  · rw [Int.toNat_neg_natCast, pow_zero, Nat.cast_one]
    refine iff_of_true ⟨i * 2 ^ n, ?_⟩ (one_dvd i)
    rw [zpow_natCast, Int.cast_mul, Int.cast_pow, Int.cast_ofNat]
  · have hpow : (2 : ℚ) ^ n ≠ 0 := pow_ne_zero _ two_ne_zero
    rw [neg_neg, Int.toNat_natCast, zpow_neg, zpow_natCast, ← div_eq_mul_inv, dvd_def]
    simp only [div_eq_iff hpow]
    refine exists_congr fun j => ?_
    rw [mul_comm]
    exact_mod_cast Iff.rfl

/-- How far the fraction can be reduced is seen from the significand. -/
theorem den_dvd_two_pow_iff (h : ofBinary64 x = .ok a) (k : ℕ) :
    a.den ∣ 2 ^ k ↔ 2 ^ (-(x.exponent + k)).toNat ∣ x.significand := by
  have hpow : (2 : ℚ) ^ k ≠ 0 := pow_ne_zero _ two_ne_zero
  have hscale : x.toRat * 2 ^ k = signed x.negative x.significand * 2 ^ (x.exponent + k) := by
    rw [Binary64.toRat, mul_assoc, zpow_add₀ two_ne_zero, zpow_natCast]
  rw [den_dvd_iff (Nat.two_pow_pos k).ne', (toRat_of_ofBinary64 h).2, Nat.cast_pow, Nat.cast_ofNat]
  simp only [eq_div_iff hpow, hscale]
  rw [exists_mul_two_zpow_eq_iff, Int.natCast_dvd, natAbs_signed]

theorem den_lt_two_pow_iff (h : ofBinary64 x = .ok a) (m : ℕ) :
    (a.den : ℚ) < 2 ^ ((m : ℤ) + 1) ↔ 2 ^ (-(x.exponent + m)).toNat ∣ x.significand := by
  obtain ⟨k, -, hpow⟩ := exists_den_eq_two_pow h
  rw [← den_dvd_two_pow_iff h, hpow, Nat.pow_dvd_pow_iff_le_right Nat.one_lt_two, Nat.cast_pow,
    Nat.cast_ofNat, ← zpow_natCast, zpow_lt_zpow_iff_right₀ one_lt_two]
  omega

/-- In the lowest bands the fraction decides: the leading bit is far enough above. -/
theorem two_pow_dvd_significand_iff (bits : BitVec 64) :
    2 ^ (-((ofBits bits.toNat).exponent + 1023)).toNat ∣ (ofBits bits.toNat).significand ↔
      2 ^ (52 - max 1 (exponentField bits)) ∣ fractionField bits := by
  have hplace := fractionField_lt bits
  have hmagnitude := magnitude_ofBits bits
  rw [significand_of_band hplace hmagnitude, exponent_of_band hplace hmagnitude]
  by_cases hband : exponentField bits = 0
  · rw [if_pos hband, if_pos hband, hband]
    rfl
  · have hplaces : (-((exponentField bits : ℤ) - 1075 + 1023)).toNat =
        52 - max 1 (exponentField bits) := by omega
    have hleading : 2 ^ (52 - max 1 (exponentField bits)) ∣ bandSize :=
      Nat.pow_dvd_pow 2 (Nat.sub_le _ _)
    rw [if_neg hband, if_neg hband, hplaces, Nat.dvd_add_right hleading]

/-- Reading a pattern and writing it again gives the pattern back, and a zero without its sign,
exactly if the fraction ends in enough zeros: in 51 of them for the least exponents, in fewer the
greater the exponent, in none from `2 ^ (-971)` on. A number whose fraction does not is written as
zero. -/
theorem toBinary64_ofBinary64_iff (bits : BitVec 64) (hfinite : exponentField bits ≠ 2047) :
    ∃ a, ofBinary64 (.ofBits bits.toNat) = .ok a ∧
      (a.toBinary64.toBits = (if value bits = 0 then 0 else bits.toNat) ↔
        2 ^ (52 - max 1 (exponentField bits)) ∣ fractionField bits) ∧
      (¬2 ^ (52 - max 1 (exponentField bits)) ∣ fractionField bits →
        a.toBinary64.toBits = 0) := by
  obtain ⟨a, hread, -⟩ := exists_ofBinary64 ((isFinite_ofBits bits).2 hfinite)
  have hplus : (ofBits 0).toBits = 0 := toBits_ofBits (by decide)
  have hrange : (a.den : ℚ) < 2 ^ (1024 : ℤ) ↔
      2 ^ (52 - max 1 (exponentField bits)) ∣ fractionField bits :=
    (den_lt_two_pow_iff hread 1023).trans (two_pow_dvd_significand_iff bits)
  refine ⟨a, hread, ?_⟩
  rw [← hrange]
  by_cases hden : (a.den : ℚ) < 2 ^ (1024 : ℤ)
  · have hback : a.toBinary64.toBits = if value bits = 0 then 0 else bits.toNat := by
      rw [toBinary64_of_den_lt hread hden, apply_ite toBits, hplus, toBits_ofBits bits.isLt]
      simp only [value_eq_zero_iff]
    exact ⟨iff_of_true hback hden, fun hlarge => absurd hden hlarge⟩
  · have hlost : a.toBinary64.toBits = 0 := by
      rw [toBinary64_of_le_den hread (not_lt.1 hden), hplus]
    -- What is lost is not zero, since zero has no denominator out of range.
    have hsome : (ofBits bits.toNat).magnitude ≠ 0 := by
      intro hnone
      apply hden
      rw [hrange, ← two_pow_dvd_significand_iff, significand_eq_zero hnone]
      exact dvd_zero _
    refine ⟨iff_of_false ?_ hden, fun _ => hlost⟩
    rw [hlost, if_neg (mt value_eq_zero_iff.1 hsome)]
    intro hbits
    exact hsome (hbits ▸ rfl)

/-- A tenth comes back. -/
theorem toBinary64_ofBinary64_iff_of_tenth :
    exponentField 0x3fb999999999999a#64 ≠ 2047 ∧ value 0x3fb999999999999a#64 ≠ 0 ∧
      ∃ a, ofBinary64 (.ofBits (0x3fb999999999999a#64).toNat) = .ok a ∧
        a.toBinary64.toBits = (0x3fb999999999999a#64).toNat := by
  have hfinite : exponentField 0x3fb999999999999a#64 ≠ 2047 := by decide
  have hvalue : value 0x3fb999999999999a#64 ≠ 0 := mt value_eq_zero_iff.1 (by decide)
  obtain ⟨a, hread, hback, -⟩ := toBinary64_ofBinary64_iff 0x3fb999999999999a#64 hfinite
  refine ⟨hfinite, hvalue, a, hread, ?_⟩
  have hbits := hback.2 (by decide)
  rwa [if_neg hvalue] at hbits

/-- The smallest positive number is finite and not zero, but is written as zero. -/
theorem toBinary64_loses_least :
    exponentField 1#64 ≠ 2047 ∧ value 1#64 ≠ 0 ∧
      ∃ a, ofBinary64 (.ofBits (1#64).toNat) = .ok a ∧ a.toBinary64.toBits = 0 ∧
        a.toBinary64.toBits ≠ (1#64).toNat := by
  have hvalue : value 1#64 ≠ 0 := mt value_eq_zero_iff.1 (by decide)
  have hfinite : (ofBits (1#64).toNat).isFinite = true := by decide
  obtain ⟨a, hread, -⟩ := exists_ofBinary64 hfinite
  have hden : ¬(a.den : ℚ) < 2 ^ (1024 : ℤ) :=
    mt (den_lt_two_pow_iff hread 1023).1 (by decide)
  have hlost : a.toBinary64.toBits = 0 := by
    rw [toBinary64_of_le_den hread (not_lt.1 hden)]
    exact toBits_ofBits (by decide)
  refine ⟨by decide, hvalue, a, hread, hlost, ?_⟩
  rw [hlost]
  decide

end ExactCalc.Rational
