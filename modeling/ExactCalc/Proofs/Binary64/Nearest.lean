import ExactCalc.Proofs.Binary64
import ExactCalc.Proofs.Rounding

/-!
Rounding is exact where there is nothing to round. A quotient is rounded to a whole number of units,
the unit being a power of two that its size decides. A number with few enough binary digits is a
whole number of these units already, so the nearest pattern stands for the number itself, unless the
number is out of range. The same holds of the quotient of two patterns.
-/

namespace ExactCalc.Binary64

open Numeral

variable {x y : Binary64} {num den : ℕ} {q : ℚ}

/-! ### Numbers of so many digits -/

/-- The number has a significand that fits a pattern and an exponent that is not too small for one.
The exponent may be too great. -/
def Representable (q : ℚ) : Prop :=
  ∃ (n : ℕ) (e : ℤ), n < 2 * bandSize ∧ -1074 ≤ e ∧ q = n * 2 ^ e

theorem significand_lt (x : Binary64) : x.significand < 2 * bandSize := by
  have hplace := Nat.mod_lt x.magnitude bandSize_pos
  rw [significand]
  split <;> omega

theorem significand_eq_zero (h : x.magnitude = 0) : x.significand = 0 := by
  rw [significand, h, if_pos bandSize_pos]

theorem le_exponent (x : Binary64) : -1074 ≤ x.exponent := by
  have h := x.neg_exponent_le
  omega

theorem abs_toRat (x : Binary64) : |x.toRat| = x.significand * 2 ^ x.exponent := by
  have hpow : (0 : ℚ) < 2 ^ x.exponent := zpow_pos two_pos _
  rw [toRat, cast_signed, abs_mul, abs_mul, abs_neg_one_pow, one_mul, Nat.abs_cast,
    abs_of_pos hpow]

theorem toRat_eq_sign_mul_abs (x : Binary64) :
    x.toRat = (-1) ^ x.negative.toNat * |x.toRat| := by
  rw [abs_toRat, toRat, cast_signed, mul_assoc]

theorem representable_abs_toRat (x : Binary64) : Representable |x.toRat| :=
  ⟨x.significand, x.exponent, x.significand_lt, x.le_exponent, x.abs_toRat⟩

/-- Scaling up by a power of two keeps the digits. -/
theorem Representable.mul_two_pow (h : Representable q) (k : ℕ) : Representable (q * 2 ^ k) := by
  obtain ⟨n, e, hn, he, rfl⟩ := h
  refine ⟨n, e + k, hn, by omega, ?_⟩
  rw [zpow_add₀ two_ne_zero, zpow_natCast, mul_assoc]

theorem representable_one : Representable 1 :=
  ⟨1, 0, by decide, by decide, by rw [Nat.cast_one, zpow_zero, mul_one]⟩

/-! ### The unit of a quotient -/

/-- Scaling to whole numbers compares a quotient with a power of two. -/
theorem scaled_le_scaled_iff (hden : den ≠ 0) (e : ℤ) :
    den * 2 ^ e.toNat ≤ num * 2 ^ (-e).toNat ↔ (2 : ℚ) ^ e ≤ num / den := by
  have hpos : (0 : ℚ) < den := Nat.cast_pos.2 (Nat.pos_of_ne_zero hden)
  have hpow : (0 : ℚ) < 2 ^ (-e).toNat := pow_pos two_pos _
  rw [← two_pow_div_two_pow, div_le_div_iff₀ hpow hpos, mul_comm]
  exact_mod_cast Iff.rfl

/-- The lengths of numerator and denominator give the size of a quotient up to a factor of two. -/
theorem log2_sub_log2_bounds (hnum : num ≠ 0) (hden : den ≠ 0) :
    (2 : ℚ) ^ ((num.log2 : ℤ) - den.log2 - 1) ≤ num / den ∧
      (num / den : ℚ) < 2 ^ ((num.log2 : ℤ) - den.log2 + 1) := by
  have hpos : (0 : ℚ) < den := Nat.cast_pos.2 (Nat.pos_of_ne_zero hden)
  have hpow (e : ℤ) : (0 : ℚ) < 2 ^ e := zpow_pos two_pos e
  have hnumLow : (2 : ℚ) ^ (num.log2 : ℤ) ≤ num := by
    exact_mod_cast Nat.log2_self_le hnum
  have hnumHigh : (num : ℚ) < 2 ^ ((num.log2 : ℤ) + 1) := by
    exact_mod_cast Nat.lt_log2_self
  have hdenLow : (2 : ℚ) ^ (den.log2 : ℤ) ≤ den := by
    exact_mod_cast Nat.log2_self_le hden
  have hdenHigh : (den : ℚ) < 2 ^ ((den.log2 : ℤ) + 1) := by
    exact_mod_cast Nat.lt_log2_self
  rw [le_div_iff₀ hpos, div_lt_iff₀ hpos]
  constructor
  · calc (2 : ℚ) ^ ((num.log2 : ℤ) - den.log2 - 1) * den
        ≤ 2 ^ ((num.log2 : ℤ) - den.log2 - 1) * 2 ^ ((den.log2 : ℤ) + 1) :=
          mul_le_mul_of_nonneg_left hdenHigh.le (hpow _).le
      _ = 2 ^ (num.log2 : ℤ) := by
          rw [← zpow_add₀ two_ne_zero]
          congr 1
          ring
      _ ≤ num := hnumLow
  · calc (num : ℚ) < 2 ^ ((num.log2 : ℤ) + 1) := hnumHigh
      _ = 2 ^ ((num.log2 : ℤ) - den.log2 + 1) * 2 ^ (den.log2 : ℤ) := by
          rw [← zpow_add₀ two_ne_zero]
          congr 1
          ring
      _ ≤ 2 ^ ((num.log2 : ℤ) - den.log2 + 1) * den :=
          mul_le_mul_of_nonneg_left hdenLow (hpow _).le

theorem floorLog2_bounds (hnum : num ≠ 0) (hden : den ≠ 0) :
    (2 : ℚ) ^ floorLog2 num den ≤ num / den ∧
      (num / den : ℚ) < 2 ^ (floorLog2 num den + 1) := by
  obtain ⟨hlow, hhigh⟩ := log2_sub_log2_bounds hnum hden
  rw [floorLog2]
  generalize (num.log2 : ℤ) - den.log2 = guess at hlow hhigh ⊢
  split
  · next h => exact ⟨(scaled_le_scaled_iff hden guess).1 h, hhigh⟩
  · next h =>
    rw [sub_add_cancel]
    exact ⟨hlow, lt_of_not_ge (mt (scaled_le_scaled_iff hden guess).2 h)⟩

/-- The exponent of the unit in which a quotient is rounded: small enough that a quotient of this
size has a full band of units, unless the smallest number is already the unit. -/
def unitExponent (num den : ℕ) : ℤ :=
  max (floorLog2 num den - 52) (-1074)

def unitCount (negative : Bool) (num den : ℕ) : ℕ :=
  TieRule.toEven.quotient negative (num * 2 ^ (-unitExponent num den).toNat)
    (den * 2 ^ (unitExponent num den).toNat)

/-- The pattern of a magnitude, or infinity when it is out of range. -/
def capped (negative : Bool) (magnitude : ℕ) : Binary64 :=
  if h : magnitude < infinity then ⟨negative, magnitude, h.trans infinity_lt⟩
  else ⟨negative, infinity, infinity_lt⟩

@[simp] theorem negative_capped (negative : Bool) (magnitude : ℕ) :
    (capped negative magnitude).negative = negative := by
  rw [capped]
  split <;> rfl

@[simp] theorem magnitude_capped (negative : Bool) (magnitude : ℕ) :
    (capped negative magnitude).magnitude = min magnitude infinity := by
  rw [capped]
  split
  · next h => exact (min_eq_left h.le).symm
  · next h => exact (min_eq_right (not_lt.1 h)).symm

theorem nearest_zero (negative : Bool) (den : ℕ) :
    nearest negative 0 den = capped negative 0 := by
  rw [nearest, if_pos rfl]
  rfl

/-- The bands below the unit, and then the units. -/
theorem nearest_of_ne_zero (negative : Bool) (hnum : num ≠ 0) (den : ℕ) :
    nearest negative num den =
      capped negative
        ((unitExponent num den + 1074).toNat * bandSize + unitCount negative num den) := by
  rw [nearest, if_neg hnum]
  rfl

theorem negative_nearest (negative : Bool) (num den : ℕ) :
    (nearest negative num den).negative = negative := by
  by_cases hnum : num = 0
  · rw [hnum, nearest_zero, negative_capped]
  · rw [nearest_of_ne_zero negative hnum, negative_capped]

/-! ### Exact quotients -/

/-- A quotient with few enough digits is a whole number of its units. -/
theorem eq_unitCount_mul (negative : Bool) (hnum : num ≠ 0) (hden : den ≠ 0)
    (h : Representable (num / den)) :
    (num / den : ℚ) = unitCount negative num den * 2 ^ unitExponent num den := by
  obtain ⟨n, e, hn, he, hq⟩ := h
  have hpow (i : ℤ) : (0 : ℚ) < 2 ^ i := zpow_pos two_pos i
  -- The size of the quotient bounds its unit by the unit of the significand.
  have hunit : unitExponent num den ≤ e := by
    have hsize : (2 : ℚ) ^ floorLog2 num den < 2 ^ (53 + e) := by
      calc (2 : ℚ) ^ floorLog2 num den ≤ num / den := (floorLog2_bounds hnum hden).1
        _ = n * 2 ^ e := hq
        _ < 2 ^ (53 : ℤ) * 2 ^ e := by
          refine mul_lt_mul_of_pos_right ?_ (hpow e)
          exact_mod_cast hn
        _ = 2 ^ (53 + e) := (zpow_add₀ two_ne_zero _ _).symm
    have hlog := (zpow_lt_zpow_iff_right₀ one_lt_two).1 hsize
    rw [unitExponent]
    omega
  obtain ⟨k, rfl⟩ := Int.le.dest hunit
  have hcount : unitCount negative num den = n * 2 ^ k := by
    apply TieRule.quotient_of_div_eq
    · exact Nat.mul_pos (Nat.pos_of_ne_zero hden) (Nat.two_pow_pos _)
    · calc ((num * 2 ^ (-unitExponent num den).toNat : ℕ) : ℚ) /
            (den * 2 ^ (unitExponent num den).toNat : ℕ)
          = num / den / 2 ^ unitExponent num den := by
            rw [← two_pow_div_two_pow, div_div_eq_mul_div, div_mul_eq_mul_div, div_div]
            push_cast
            rfl
        _ = (n * 2 ^ k : ℕ) := by
            rw [hq, zpow_add₀ two_ne_zero, zpow_natCast]
            push_cast
            field_simp
  rw [hcount, hq, Nat.cast_mul, Nat.cast_pow, Nat.cast_ofNat, zpow_add₀ two_ne_zero, zpow_natCast]
  ring

/-- There are not more units than two bands have places, and a full band of them unless the smallest
number is the unit. -/
theorem unitCount_bounds (negative : Bool) (hnum : num ≠ 0) (hden : den ≠ 0)
    (h : Representable (num / den)) :
    unitCount negative num den < 2 * bandSize ∧
      ((unitExponent num den + 1074).toNat = 0 ∨ bandSize ≤ unitCount negative num den) := by
  have hcount := eq_unitCount_mul negative hnum hden h
  obtain ⟨hlow, hhigh⟩ := floorLog2_bounds hnum hden
  have hpow : (0 : ℚ) < 2 ^ unitExponent num den := zpow_pos two_pos _
  rw [hcount] at hlow hhigh
  constructor
  · have hsize : (2 : ℚ) ^ (floorLog2 num den + 1) ≤ 2 ^ (53 : ℤ) * 2 ^ unitExponent num den := by
      rw [← zpow_add₀ two_ne_zero]
      refine zpow_le_zpow_right₀ one_le_two ?_
      rw [unitExponent]
      omega
    have hlt := lt_of_mul_lt_mul_right (hhigh.trans_le hsize) hpow.le
    rw [bandSize]
    exact_mod_cast hlt
  · rw [or_iff_not_imp_left]
    intro hunit
    have hsize : (2 : ℚ) ^ (52 : ℤ) * 2 ^ unitExponent num den = 2 ^ floorLog2 num den := by
      rw [← zpow_add₀ two_ne_zero]
      congr 1
      rw [unitExponent] at hunit ⊢
      omega
    have hle := le_of_mul_le_mul_right (hsize.trans_le hlow) hpow
    rw [bandSize]
    exact_mod_cast hle

/-- Rounding a quotient with few enough digits finds the magnitude of the number itself, unless that
is out of range. -/
theorem exists_steps (negative : Bool) (hden : den ≠ 0) (h : Representable (num / den)) :
    ∃ magnitude : ℕ, (num / den : ℚ) = steps magnitude * 2 ^ (-1074 : ℤ) ∧
      nearest negative num den = capped negative magnitude := by
  by_cases hnum : num = 0
  · refine ⟨0, ?_, hnum ▸ nearest_zero negative den⟩
    rw [hnum, steps_of_lt bandSize_pos, Nat.cast_zero, zero_div, zero_mul]
  · refine ⟨_, ?_, nearest_of_ne_zero negative hnum den⟩
    have hband : unitExponent num den = ((unitExponent num den + 1074).toNat : ℤ) + -1074 := by
      rw [unitExponent]
      omega
    obtain ⟨hcount, hunit⟩ := unitCount_bounds negative hnum hden h
    rw [steps_add hcount hunit, Nat.cast_mul, Nat.cast_pow, Nat.cast_ofNat, mul_assoc,
      ← zpow_natCast, ← zpow_add₀ two_ne_zero, ← hband]
    exact eq_unitCount_mul negative hnum hden h

theorem steps_band_start_mul (band : ℕ) :
    (steps (bandSize * (band + 1)) : ℚ) * 2 ^ (-1074 : ℤ) = 2 ^ ((band : ℤ) - 1022) := by
  rw [steps_band_start, bandSize, Nat.cast_mul, Nat.cast_pow, Nat.cast_pow, Nat.cast_ofNat,
    ← zpow_natCast, ← zpow_natCast, ← zpow_add₀ two_ne_zero, ← zpow_add₀ two_ne_zero]
  congr 1
  omega

/-- The least number that is out of range. -/
theorem steps_infinity : (steps infinity : ℚ) * 2 ^ (-1074 : ℤ) = 2 ^ (1024 : ℤ) := by
  rw [infinity, Nat.mul_comm]
  exact steps_band_start_mul 2046

theorem steps_lt_infinity_iff {magnitude : ℕ} :
    (steps magnitude * 2 ^ (-1074 : ℤ) : ℚ) < 2 ^ (1024 : ℤ) ↔ magnitude < infinity := by
  have hunit : (0 : ℚ) < 2 ^ (-1074 : ℤ) := zpow_pos two_pos _
  rw [← steps_infinity, mul_lt_mul_iff_left₀ hunit, Nat.cast_lt, strictMono_steps.lt_iff_lt]

theorem isFinite_nearest (negative : Bool) (hden : den ≠ 0) (h : Representable (num / den)) :
    (nearest negative num den).isFinite = true ↔ (num / den : ℚ) < 2 ^ (1024 : ℤ) := by
  obtain ⟨magnitude, hsteps, hnearest⟩ := exists_steps negative hden h
  rw [hsteps, steps_lt_infinity_iff, hnearest, isFinite, decide_eq_true_iff, magnitude_capped,
    min_lt_iff, or_iff_left (lt_irrefl _)]

/-- Nothing is lost where the quotient has few enough digits and is in range. -/
theorem toRat_nearest (negative : Bool) (hden : den ≠ 0) (h : Representable (num / den))
    (hrange : (num / den : ℚ) < 2 ^ (1024 : ℤ)) :
    (nearest negative num den).toRat = (-1) ^ negative.toNat * (num / den) := by
  obtain ⟨magnitude, hsteps, hnearest⟩ := exists_steps negative hden h
  have hlt : magnitude < infinity := steps_lt_infinity_iff.1 (hsteps ▸ hrange)
  rw [hnearest, toRat_eq_steps, negative_capped, magnitude_capped, min_eq_left hlt.le, cast_signed,
    mul_assoc, ← hsteps]

theorem isFinite_nearest_natCast (negative : Bool) {n : ℕ} (h : Representable n) :
    (nearest negative n 1).isFinite = true ↔ (n : ℚ) < 2 ^ (1024 : ℤ) := by
  have hone : (n / (1 : ℕ) : ℚ) = n := by rw [Nat.cast_one, div_one]
  rw [isFinite_nearest negative Nat.one_ne_zero (hone.symm ▸ h), hone]

theorem toRat_nearest_natCast (negative : Bool) {n : ℕ} (h : Representable n)
    (hrange : (n : ℚ) < 2 ^ (1024 : ℤ)) :
    (nearest negative n 1).toRat = signed negative n := by
  have hone : (n / (1 : ℕ) : ℚ) = n := by rw [Nat.cast_one, div_one]
  rw [toRat_nearest negative Nat.one_ne_zero (hone.symm ▸ h) (hone.symm ▸ hrange), hone,
    cast_signed]

/-- A finite number is less than the least one out of range. -/
theorem abs_toRat_lt (hfinite : x.isFinite = true) : |x.toRat| < 2 ^ (1024 : ℤ) := by
  have hunit : (0 : ℚ) < 2 ^ (-1074 : ℤ) := zpow_pos two_pos _
  rw [toRat_eq_steps, cast_signed, abs_mul, abs_mul, abs_neg_one_pow, one_mul, Nat.abs_cast,
    abs_of_pos hunit, steps_lt_infinity_iff]
  exact of_decide_eq_true hfinite

/-! ### Exact division -/

/-- The quotient that a division rounds is that of the numbers without their signs. -/
theorem scaled_div_scaled (x y : Binary64) :
    ((x.significand * 2 ^ (x.exponent - y.exponent).toNat : ℕ) : ℚ) /
        (y.significand * 2 ^ (-(x.exponent - y.exponent)).toNat : ℕ) =
      |x.toRat / y.toRat| := by
  rw [abs_div, abs_toRat, abs_toRat]
  push_cast
  rw [mul_div_mul_comm, two_pow_div_two_pow, zpow_sub₀ two_ne_zero, mul_div_mul_comm]

theorem significand_ne_zero (h : x.toRat ≠ 0) : x.significand ≠ 0 := by
  intro hzero
  have habs := x.abs_toRat
  rw [hzero, Nat.cast_zero, zero_mul, abs_eq_zero] at habs
  exact h habs

theorem negative_divide (x y : Binary64) :
    (x.divide y).negative = (x.negative != y.negative) := by
  rw [divide, negative_nearest]

/-- The quotient of two numbers is exact where it has few enough digits and is in range. -/
theorem toRat_divide (hy : y.toRat ≠ 0) (h : Representable |x.toRat / y.toRat|)
    (hrange : |x.toRat / y.toRat| < 2 ^ (1024 : ℤ)) :
    (x.divide y).toRat = x.toRat / y.toRat := by
  have hden : y.significand * 2 ^ (-(x.exponent - y.exponent)).toNat ≠ 0 :=
    Nat.mul_ne_zero (significand_ne_zero hy) (Nat.two_pow_pos _).ne'
  rw [← scaled_div_scaled] at h hrange
  rw [divide, toRat_nearest _ hden h hrange, scaled_div_scaled, abs_div]
  conv_rhs => rw [toRat_eq_sign_mul_abs x, toRat_eq_sign_mul_abs y]
  cases x.negative <;> cases y.negative <;> simp [neg_div, div_neg]

end ExactCalc.Binary64
