import ExactCalc.Proofs.Rational.Field
import ExactCalc.Rational.Round

/-!
The number that a decimal stands for, and its shortest form. Zeros at the end change the form of a
number and not the number. Stripping them leaves a last digit that is not zero, unless nothing is
left after the point, and a zero loses its sign.
-/

namespace ExactCalc

namespace Decimal

def toRat (d : Decimal) : ℚ :=
  d.coefficient / 10 ^ d.scale

/-- No trailing zero after the point, and no sign on a zero. -/
structure Normal (d : Decimal) : Prop where
  last_digit : d.scale = 0 ∨ d.mantissa % 10 ≠ 0
  sign : d.isNegative = true → d.mantissa ≠ 0

theorem eq_of_parts {a b : Decimal} (hsign : a.isNegative = b.isNegative)
    (hmantissa : a.mantissa = b.mantissa) (hscale : a.scale = b.scale) : a = b := by
  obtain ⟨⟨_, _⟩, _⟩ := a
  obtain ⟨⟨_, _⟩, _⟩ := b
  simp_all

@[simp] theorem mantissa_ofParts (negative : Bool) (mantissa scale : Nat) :
    (ofParts negative mantissa scale).mantissa = mantissa := rfl

@[simp] theorem scale_ofParts (negative : Bool) (mantissa scale : Nat) :
    (ofParts negative mantissa scale).scale = scale := rfl

theorem isNegative_ofParts {negative : Bool} {mantissa scale : Nat} :
    (ofParts negative mantissa scale).isNegative = true ↔ negative = true ∧ mantissa ≠ 0 := by
  simp [ofParts]

/-- A sign may be checked against another mantissa first that is zero only where this one is. -/
theorem ofParts_isNegative_ofParts (negative : Bool) {m n : Nat} (h : n ≠ 0 → m ≠ 0)
    (s t : Nat) : ofParts (ofParts negative m s).isNegative n t = ofParts negative n t := by
  refine eq_of_parts (Bool.eq_iff_iff.2 ?_) rfl rfl
  rw [isNegative_ofParts, isNegative_ofParts, isNegative_ofParts, and_assoc, and_iff_right_of_imp h]

/-- The sign that a zero loses makes no difference to the number. -/
@[simp] theorem coefficient_ofParts (negative : Bool) (mantissa scale : Nat) :
    (ofParts negative mantissa scale).coefficient = Numeral.signed negative mantissa := by
  cases mantissa with
  | zero => cases negative <;> rfl
  | succ mantissa => cases negative <;> rfl

theorem toRat_ofParts (negative : Bool) (mantissa scale : Nat) :
    (ofParts negative mantissa scale).toRat =
      if negative then -((mantissa : ℚ) / 10 ^ scale) else (mantissa : ℚ) / 10 ^ scale := by
  rw [toRat, coefficient_ofParts, scale_ofParts]
  cases negative
  · rfl
  · show ((-(mantissa : Int) : Int) : ℚ) / 10 ^ scale = -((mantissa : ℚ) / 10 ^ scale)
    rw [Int.cast_neg, Int.cast_natCast, neg_div]

@[simp] theorem coefficient_ofInt (i : Int) : (ofInt i).coefficient = i := by
  rw [ofInt, coefficient_ofParts, Numeral.signed_natAbs]

@[simp] theorem toRat_ofInt (i : Int) : (ofInt i).toRat = i := by
  rw [toRat, coefficient_ofInt]
  exact div_one _

end Decimal

@[simp] theorem Rational.toRat_ofDecimal (d : Decimal) : (ofDecimal d).toRat = d.toRat := by
  rw [ofDecimal, toRat_reduce, Decimal.toRat, Nat.cast_pow, Nat.cast_ofNat]

namespace Decimal

/-! ### Zeros at the end -/

def lengthened (d : Decimal) (zeros : Nat) : Decimal :=
  ofParts d.isNegative (d.mantissa * 10 ^ zeros) (d.scale + zeros)

@[simp] theorem toRat_lengthened (d : Decimal) (zeros : Nat) :
    (d.lengthened zeros).toRat = d.toRat := by
  rw [lengthened, toRat, coefficient_ofParts, scale_ofParts, Numeral.signed_mul, pow_add,
    Int.cast_mul, Int.cast_natCast, Nat.cast_pow, Nat.cast_ofNat,
    mul_div_mul_right _ _ (pow_ne_zero _ (by decide))]
  rfl

/-! ### The shortest form -/

/-- The shortcut for zero gives what stripping a zero gives. -/
theorem normalized_eq (d : Decimal) :
    d.normalized =
      ofParts d.isNegative (strip d.mantissa d.scale).1 (strip d.mantissa d.scale).2 := by
  have hstrip (scale : Nat) : strip 0 scale = (0, 0) := by
    induction scale with
    | zero => rfl
    | succ scale ih => exact ih
  rw [normalized]
  split
  · next h =>
    have hzero : d.mantissa = 0 := by simpa [isZero] using h
    rw [hzero, hstrip, ofParts_zero]
    rfl
  · rfl

theorem strip_last_digit (mantissa scale : Nat) :
    (strip mantissa scale).2 = 0 ∨ (strip mantissa scale).1 % 10 ≠ 0 := by
  induction scale generalizing mantissa with
  | zero => exact .inl rfl
  | succ scale ih =>
      rw [strip]
      split
      · exact ih _
      · next h => exact .inr h

theorem normal_normalized (d : Decimal) : d.normalized.Normal := by
  rw [normalized_eq]
  exact ⟨strip_last_digit _ _, fun h => (isNegative_ofParts.1 h).2⟩

theorem scale_normalized_le (d : Decimal) : d.normalized.scale ≤ d.scale := by
  rw [normalized_eq]
  exact strip_scale_le _ _

/-- The zeros that are stripped can be put back. -/
theorem lengthened_normalized (d : Decimal) :
    d.normalized.lengthened (d.scale - d.normalized.scale) =
      ofParts d.isNegative d.mantissa d.scale := by
  have hscale := Nat.add_sub_cancel' (strip_scale_le d.mantissa d.scale)
  have hvalue := strip_value d.mantissa d.scale
  -- A mantissa that is not zero has digits left.
  have hleft : d.mantissa ≠ 0 → (strip d.mantissa d.scale).1 ≠ 0 := by
    intro hne
    rw [← hvalue] at hne
    exact left_ne_zero_of_mul hne
  rw [normalized_eq, lengthened, mantissa_ofParts, scale_ofParts, hvalue, hscale,
    ofParts_isNegative_ofParts _ hleft]

@[simp] theorem toRat_normalized (d : Decimal) : d.normalized.toRat = d.toRat := by
  rw [← toRat_lengthened d.normalized (d.scale - d.normalized.scale), lengthened_normalized, toRat,
    coefficient_ofParts]
  rfl

end Decimal

end ExactCalc
