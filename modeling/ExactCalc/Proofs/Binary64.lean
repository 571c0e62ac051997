import ExactCalc.Binary64
import ExactCalc.Text.Numeral
import Mathlib.Algebra.Order.Field.Power
import Mathlib.Algebra.Order.Ring.Rat
import Mathlib.Data.Int.CharZero
import Mathlib.Order.Monotone.Basic

/-!
The numbers of 64-bit patterns. A pattern has a sign, a biased exponent and a fraction, and its
number is a power of two times the fraction with a leading bit, which only the patterns of exponent
zero lack. All numbers are multiples of the smallest positive one. How many of it there are grows
with the pattern without its sign, so no two patterns but the two zeros have one number.
-/

namespace ExactCalc.Binary64

open Numeral

variable {x y : Binary64} {bits : BitVec 64} {band place : ℕ}

/-! ### Bands -/

theorem bandSize_pos : 0 < bandSize := by decide

theorem div_bandSize (hplace : place < bandSize) : (bandSize * band + place) / bandSize = band := by
  rw [Nat.mul_add_div bandSize_pos, Nat.div_eq_of_lt hplace, Nat.add_zero]

theorem mod_bandSize (hplace : place < bandSize) :
    (bandSize * band + place) % bandSize = place := by
  rw [Nat.mul_add_mod, Nat.mod_eq_of_lt hplace]

theorem lt_bandSize_iff (hplace : place < bandSize) :
    bandSize * band + place < bandSize ↔ band = 0 := by
  rw [← Nat.div_eq_zero_iff_lt bandSize_pos, div_bandSize hplace]

theorem one_le_div_bandSize {magnitude : ℕ} (h : ¬magnitude < bandSize) :
    1 ≤ magnitude / bandSize :=
  Nat.div_pos (not_lt.1 h) bandSize_pos

/-! ### Fields of a pattern -/

def exponentField (bits : BitVec 64) : ℕ :=
  (bits.extractLsb' 52 11).toNat

def fractionField (bits : BitVec 64) : ℕ :=
  (bits.extractLsb' 0 52).toNat

/-- The number of a pattern, unless its exponent is the greatest one. -/
def value (bits : BitVec 64) : ℚ :=
  (-1) ^ bits.msb.toNat *
    if exponentField bits = 0 then (fractionField bits : ℚ) * 2 ^ (-1074 : ℤ)
    else (2 ^ 52 + fractionField bits : ℚ) * 2 ^ ((exponentField bits : ℤ) - 1075)

theorem exponentField_lt (bits : BitVec 64) : exponentField bits < 2048 :=
  (bits.extractLsb' 52 11).isLt

theorem fractionField_lt (bits : BitVec 64) : fractionField bits < bandSize :=
  (bits.extractLsb' 0 52).isLt

theorem negative_ofBits (bits : BitVec 64) : (ofBits bits.toNat).negative = bits.msb := by
  have hlt := bits.isLt
  rw [BitVec.msb_eq_decide, Bool.eq_iff_iff, ofBits, beq_iff_eq, decide_eq_true_iff]
  omega

/-- The exponent counts the bands below, and the fraction is the place in the band. -/
theorem magnitude_ofBits (bits : BitVec 64) :
    (ofBits bits.toNat).magnitude = bandSize * exponentField bits + fractionField bits := by
  simp only [ofBits, exponentField, fractionField, BitVec.extractLsb'_toNat,
    Nat.shiftRight_eq_div_pow, bandSize]
  omega

theorem isFinite_ofBits (bits : BitVec 64) :
    (ofBits bits.toNat).isFinite = true ↔ exponentField bits ≠ 2047 := by
  have hexponent := exponentField_lt bits
  have hfraction := fractionField_lt bits
  rw [isFinite, decide_eq_true_iff, magnitude_ofBits, infinity]
  rw [bandSize] at hfraction ⊢
  omega

theorem magnitude_ofBits_eq_zero_iff :
    (ofBits bits.toNat).magnitude = 0 ↔ exponentField bits = 0 ∧ fractionField bits = 0 := by
  rw [magnitude_ofBits, bandSize]
  omega

theorem ofBits_toNat_injective : Function.Injective fun bits : BitVec 64 => ofBits bits.toNat := by
  intro bits bits' h
  apply BitVec.eq_of_toNat_eq
  rw [← toBits_ofBits bits.isLt, ← toBits_ofBits bits'.isLt]
  exact congrArg toBits h

theorem eq_of_fields (hsign : x.negative = y.negative) (hmagnitude : x.magnitude = y.magnitude) :
    x = y := by
  cases x
  cases y
  simp_all

/-! ### Numbers -/

def toRat (x : Binary64) : ℚ :=
  signed x.negative x.significand * 2 ^ x.exponent

/-- In the lowest band there is no leading bit. -/
theorem significand_of_band (hplace : place < bandSize)
    (h : x.magnitude = bandSize * band + place) :
    x.significand = if band = 0 then place else bandSize + place := by
  rw [significand, h, mod_bandSize hplace]
  simp only [lt_bandSize_iff hplace]
  refine ite_congr rfl (fun hband => ?_) fun _ => rfl
  rw [hband, Nat.mul_zero, Nat.zero_add]

/-- The lowest two bands have one exponent. -/
theorem exponent_of_band (hplace : place < bandSize)
    (h : x.magnitude = bandSize * band + place) :
    x.exponent = if band = 0 then -1074 else (band : ℤ) - 1075 := by
  rw [exponent, h, div_bandSize hplace]
  simp only [lt_bandSize_iff hplace]

/-- No exponent is less than that of the smallest positive number. -/
theorem neg_exponent_le (x : Binary64) : (-x.exponent).toNat ≤ 1074 := by
  rw [exponent]
  split
  · decide
  · next hband =>
    have hpos := one_le_div_bandSize hband
    omega

theorem cast_signed (negative : Bool) (n : ℕ) :
    (signed negative n : ℚ) = (-1) ^ negative.toNat * n := by
  cases negative <;> simp [signed]

/-- A power of two is above or below the line by the sign of its exponent. -/
theorem two_pow_div_two_pow (exponent : ℤ) :
    (2 : ℚ) ^ exponent.toNat / 2 ^ (-exponent).toNat = 2 ^ exponent := by
  obtain ⟨n, rfl | rfl⟩ := exponent.eq_nat_or_neg
  · rw [Int.toNat_natCast, Int.toNat_neg_natCast, pow_zero, div_one, zpow_natCast]
  · rw [neg_neg, Int.toNat_natCast, Int.toNat_neg_natCast, pow_zero, one_div, zpow_neg,
      zpow_natCast]

theorem toRat_ofBits (bits : BitVec 64) : (ofBits bits.toNat).toRat = value bits := by
  have hplace := fractionField_lt bits
  have hmagnitude := magnitude_ofBits bits
  rw [toRat, value, significand_of_band hplace hmagnitude, exponent_of_band hplace hmagnitude,
    negative_ofBits, cast_signed, mul_assoc]
  congr 1
  split
  · rfl
  · rw [Nat.cast_add, bandSize, Nat.cast_pow, Nat.cast_ofNat]

/-! ### Steps -/

/-- How many times the smallest positive number makes up the number of a magnitude. -/
def steps (magnitude : ℕ) : ℕ :=
  if magnitude < bandSize then magnitude
  else (bandSize + magnitude % bandSize) * 2 ^ (magnitude / bandSize - 1)

theorem toRat_eq_steps (x : Binary64) :
    x.toRat = signed x.negative (steps x.magnitude) * 2 ^ (-1074 : ℤ) := by
  rw [toRat, significand, exponent, steps]
  split
  · rfl
  · next hband =>
    have hpos := one_le_div_bandSize hband
    have hexponent : ((x.magnitude / bandSize : ℕ) : ℤ) - 1075 =
        ((x.magnitude / bandSize - 1 : ℕ) : ℤ) + -1074 := by omega
    rw [hexponent, zpow_add₀ two_ne_zero, zpow_natCast, signed_mul, Int.cast_mul, Int.cast_natCast,
      Nat.cast_pow, Nat.cast_ofNat, mul_assoc]

theorem steps_of_lt (hplace : place < bandSize) : steps place = place :=
  if_pos hplace

theorem steps_band_succ (band : ℕ) (hplace : place < bandSize) :
    steps (bandSize * (band + 1) + place) = (bandSize + place) * 2 ^ band := by
  have hband : ¬bandSize * (band + 1) + place < bandSize :=
    mt (lt_bandSize_iff hplace).1 band.succ_ne_zero
  rw [steps, if_neg hband, mod_bandSize hplace, div_bandSize hplace, Nat.add_sub_cancel]

theorem steps_band_start (band : ℕ) : steps (bandSize * (band + 1)) = bandSize * 2 ^ band := by
  have hstart := steps_band_succ band bandSize_pos
  rwa [Nat.add_zero, Nat.add_zero] at hstart

/-- The magnitude of so many units of `2 ^ band` steps. Only of the smallest unit there may be fewer
than a band has places. -/
theorem steps_add {count : ℕ} (hcount : count < 2 * bandSize)
    (hband : band = 0 ∨ bandSize ≤ count) :
    steps (band * bandSize + count) = count * 2 ^ band := by
  rcases lt_or_ge count bandSize with hlow | hhigh
  · obtain rfl : band = 0 := hband.resolve_right (not_le.2 hlow)
    rw [Nat.zero_mul, Nat.zero_add, steps_of_lt hlow, pow_zero, Nat.mul_one]
  · obtain ⟨place, rfl⟩ := Nat.exists_eq_add_of_le hhigh
    have hplace : place < bandSize := by omega
    rw [← Nat.add_assoc, ← Nat.succ_mul, Nat.mul_comm, Nat.succ_eq_add_one,
      steps_band_succ band hplace]

/-- The number grows from each place to the next and from the last place of a band to the first one
of the next band. -/
theorem steps_lt_succ (magnitude : ℕ) : steps magnitude < steps (magnitude + 1) := by
  have hplace := Nat.mod_lt magnitude bandSize_pos
  rw [← Nat.div_add_mod magnitude bandSize]
  generalize magnitude / bandSize = band, magnitude % bandSize = place at hplace
  rw [Nat.add_assoc]
  rcases Nat.lt_or_eq_of_le (Nat.succ_le_of_lt hplace) with hnext | hlast
  · cases band with
    | zero =>
        rw [Nat.mul_zero, Nat.zero_add, Nat.zero_add, steps_of_lt hplace, steps_of_lt hnext]
        exact Nat.lt_succ_self place
    | succ band =>
        rw [steps_band_succ band hplace, steps_band_succ band hnext]
        exact Nat.mul_lt_mul_of_pos_right (by omega) (Nat.two_pow_pos band)
  -- At the end of a band the significand falls back to its least value, but the unit doubles.
  · rw [← Nat.succ_eq_add_one place, hlast, ← Nat.mul_succ, steps_band_start]
    cases band with
    | zero =>
        rw [Nat.mul_zero, Nat.zero_add, steps_of_lt hplace, pow_zero, Nat.mul_one]
        exact hplace
    | succ band =>
        rw [steps_band_succ band hplace, pow_succ', ← Nat.mul_assoc]
        exact Nat.mul_lt_mul_of_pos_right (by omega) (Nat.two_pow_pos band)

theorem strictMono_steps : StrictMono steps :=
  strictMono_nat_of_lt_succ steps_lt_succ

theorem signed_eq_signed_iff {negative negative' : Bool} {m n : ℕ} :
    signed negative m = signed negative' n ↔ m = n ∧ (m = 0 ∨ negative = negative') := by
  cases negative <;> cases negative' <;> simp [signed] <;> omega

theorem steps_eq_zero_iff {magnitude : ℕ} : steps magnitude = 0 ↔ magnitude = 0 :=
  strictMono_steps.injective.eq_iff' rfl

theorem toRat_eq_zero_iff : x.toRat = 0 ↔ x.magnitude = 0 := by
  have hunit : (2 : ℚ) ^ (-1074 : ℤ) ≠ 0 := zpow_ne_zero _ two_ne_zero
  have hsign : ((-1) ^ x.negative.toNat : ℚ) ≠ 0 := pow_ne_zero _ (by decide)
  rw [toRat_eq_steps, cast_signed, mul_eq_zero_iff_right hunit, mul_eq_zero_iff_left hsign,
    Nat.cast_eq_zero, steps_eq_zero_iff]

theorem value_eq_zero_iff : value bits = 0 ↔ (ofBits bits.toNat).magnitude = 0 := by
  rw [← toRat_ofBits, toRat_eq_zero_iff]

/-- Only the two zeros have one number. -/
theorem toRat_eq_toRat_iff :
    x.toRat = y.toRat ↔ x = y ∨ x.magnitude = 0 ∧ y.magnitude = 0 := by
  have hunit : (2 : ℚ) ^ (-1074 : ℤ) ≠ 0 := zpow_ne_zero _ two_ne_zero
  rw [toRat_eq_steps, toRat_eq_steps, mul_left_inj' hunit, Int.cast_inj, signed_eq_signed_iff,
    strictMono_steps.injective.eq_iff, steps_eq_zero_iff]
  constructor
  · rintro ⟨hmagnitude, hzeros | hsign⟩
    · exact .inr ⟨hzeros, hmagnitude ▸ hzeros⟩
    · exact .inl (eq_of_fields hsign hmagnitude)
  · rintro (rfl | ⟨hx, hy⟩)
    · exact ⟨rfl, .inr rfl⟩
    · exact ⟨hx.trans hy.symm, .inl hx⟩

end ExactCalc.Binary64
