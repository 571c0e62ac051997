import ExactCalc.Rational.Arith
import Mathlib.Algebra.BigOperators.Group.List.Basic
import Mathlib.Algebra.Order.Field.Basic
import Mathlib.Algebra.Order.Ring.Rat
import Mathlib.Data.Rat.Lemmas
import Mathlib.Tactic.FieldSimp
import Mathlib.Tactic.Ring

/-!
The number that a rational stands for. Different structures stand for different numbers, since both
are in lowest terms, so an equation between numbers is an equation between structures. Every
operation is exact: it gives the structure of the number that it is named after, and the two that
divide refuse zero and nothing else.
-/

namespace ExactCalc.Rational

def toRat (a : Rational) : ℚ :=
  a.num / a.den

theorem den_ne_zero (a : Rational) : (a.den : ℚ) ≠ 0 :=
  Nat.cast_ne_zero.2 (Nat.pos_iff_ne_zero.1 a.den_pos)

theorem toRat_injective : Function.Injective toRat := by
  intro a b h
  have hcross : (a.num : ℚ) * b.den = b.num * a.den :=
    (div_eq_div_iff a.den_ne_zero b.den_ne_zero).1 h
  apply eq_of_num_mul_den
  exact_mod_cast hcross

/-- The structure holds the numerator and the denominator of its number in lowest terms. -/
theorem toRat_eq_mk (a : Rational) :
    a.toRat = ⟨a.num, a.den, Nat.pos_iff_ne_zero.1 a.den_pos, a.coprime⟩ := by
  rw [Rat.mk_eq_divInt, Rat.divInt_eq_div, Int.cast_natCast]
  rfl

@[simp] theorem num_toRat (a : Rational) : a.toRat.num = a.num := by
  rw [toRat_eq_mk]

@[simp] theorem den_toRat (a : Rational) : a.toRat.den = a.den := by
  rw [toRat_eq_mk]

theorem natAbs_num_eq (a : Rational) : (a.num.natAbs : ℚ) = |a.toRat| * a.den := by
  rw [toRat, abs_div, Nat.abs_cast, div_mul_cancel₀ _ a.den_ne_zero, Nat.cast_natAbs, Int.cast_abs]

/-- The denominator divides those numbers below which the number is a fraction. -/
theorem den_dvd_iff {a : Rational} {n : ℕ} (hn : n ≠ 0) :
    a.den ∣ n ↔ ∃ k : ℤ, a.toRat = k / n := by
  constructor
  · rintro ⟨c, rfl⟩
    have hc : (c : ℚ) ≠ 0 := Nat.cast_ne_zero.2 (Nat.ne_zero_of_mul_ne_zero_right hn)
    refine ⟨a.num * c, ?_⟩
    rw [Nat.cast_mul, Int.cast_mul, Int.cast_natCast, mul_div_mul_right _ _ hc, toRat]
  · rintro ⟨k, hk⟩
    have hdvd := Rat.den_dvd k n
    rw [Rat.divInt_eq_div, Int.cast_natCast, ← hk, den_toRat] at hdvd
    exact_mod_cast hdvd

/-! ### Reduction -/

@[simp] theorem toRat_reduce (num : Int) (den : Nat) (hden : 0 < den) :
    (reduce num den hden).toRat = num / den := by
  have hne : (den : ℚ) ≠ 0 := Nat.cast_ne_zero.2 (Nat.pos_iff_ne_zero.1 hden)
  rw [toRat, div_eq_div_iff (den_ne_zero _) hne]
  exact_mod_cast reduce_num_mul num den hden

/-- A negative denominator passes its sign to the numerator. -/
@[simp] theorem toRat_ofFraction (num den : Int) (hden : den ≠ 0) :
    (ofFraction num den hden).toRat = num / den := by
  rw [ofFraction, toRat_reduce]
  by_cases hneg : den < 0
  · have habs : ((den.natAbs : Int) : ℚ) = -den := by
      rw [Int.ofNat_natAbs_of_nonpos hneg.le, Int.cast_neg]
    rw [if_pos hneg, ← Int.cast_natCast, habs, Int.cast_neg, neg_div_neg_eq]
  · have habs : ((den.natAbs : Int) : ℚ) = den := by
      rw [Int.natAbs_of_nonneg (not_lt.1 hneg)]
    rw [if_neg hneg, ← Int.cast_natCast, habs]

@[simp] theorem toRat_ofInt (i : Int) : (ofInt i).toRat = i := by
  rw [toRat, num_ofInt, den_ofInt, Nat.cast_one, div_one]

@[simp] theorem toRat_zero : zero.toRat = 0 := toRat_ofInt 0

@[simp] theorem toRat_one : one.toRat = 1 := toRat_ofInt 1

theorem num_eq_zero_iff {a : Rational} : a.num = 0 ↔ a = zero := by
  rw [← toRat_injective.eq_iff, toRat_zero, ← Rat.num_eq_zero, num_toRat]

theorem toRat_eq_zero_iff {a : Rational} : a.toRat = 0 ↔ a = zero := by
  rw [← toRat_injective.eq_iff, toRat_zero]

/-! ### Operations -/

@[simp] theorem toRat_add (a b : Rational) : (a + b).toRat = a.toRat + b.toRat := by
  rw [add_def, toRat_reduce, toRat, toRat, div_add_div _ _ a.den_ne_zero b.den_ne_zero]
  push_cast
  ring

@[simp] theorem toRat_sub (a b : Rational) : (a - b).toRat = a.toRat - b.toRat := by
  rw [sub_def, toRat_reduce, toRat, toRat, div_sub_div _ _ a.den_ne_zero b.den_ne_zero]
  push_cast
  ring

@[simp] theorem toRat_mul (a b : Rational) : (a * b).toRat = a.toRat * b.toRat := by
  rw [mul_def, toRat_reduce, toRat, toRat, div_mul_div_comm]
  push_cast
  rfl

@[simp] theorem toRat_neg (a : Rational) : (-a).toRat = -a.toRat := by
  rw [toRat, num_neg, den_neg, Int.cast_neg, neg_div]
  rfl

theorem toRat_neg_iff {a : Rational} : a.toRat < 0 ↔ a.num < 0 := by
  rw [← Rat.num_neg, num_toRat]

@[simp] theorem toRat_abs (a : Rational) : a.abs.toRat = |a.toRat| := by
  rw [abs, isNegative]
  by_cases hneg : a.num < 0
  · rw [if_pos (decide_eq_true hneg), abs_of_neg (toRat_neg_iff.2 hneg)]
    exact toRat_neg a
  · rw [if_neg (by simpa using hneg), abs_of_nonneg (not_lt.1 (mt toRat_neg_iff.1 hneg))]

/-! ### Division -/

theorem map_toRat_div (a b : Rational) :
    (a.div b).map toRat = if b = zero then .error .zeroDivisor else .ok (a.toRat / b.toRat) := by
  rw [div]
  by_cases hzero : b.num = 0
  · rw [dif_pos hzero, if_pos (num_eq_zero_iff.1 hzero)]
    rfl
  · rw [dif_neg hzero, if_neg (mt num_eq_zero_iff.2 hzero), Except.map, toRat_ofFraction, toRat,
      toRat, div_div_div_eq]
    push_cast
    rfl

theorem map_toRat_reciprocal (a : Rational) :
    a.reciprocal.map toRat =
      if a = zero then .error .reciprocalOfZero else .ok (1 / a.toRat) := by
  rw [reciprocal]
  by_cases hzero : a.num = 0
  · rw [dif_pos hzero, if_pos (num_eq_zero_iff.1 hzero)]
    rfl
  · rw [dif_neg hzero, if_neg (mt num_eq_zero_iff.2 hzero), Except.map, toRat_ofFraction, toRat,
      one_div_div]
    push_cast
    rfl

theorem map_toRat_eq_ok_iff {result : Except Fault Rational} {q : ℚ} :
    result.map toRat = .ok q ↔ ∃ a, result = .ok a ∧ a.toRat = q := by
  cases result <;> simp [Except.map]

theorem map_toRat_eq_error_iff {result : Except Fault Rational} {fault : Fault} :
    result.map toRat = .error fault ↔ result = .error fault := by
  cases result <;> simp [Except.map]

/-- Numbers tell results apart. -/
theorem eq_ok_of_map_toRat {result : Except Fault Rational} {a : Rational}
    (h : result.map toRat = .ok a.toRat) : result = .ok a := by
  cases result with
  | error fault => contradiction
  | ok b => rw [toRat_injective (Except.ok.inj h)]

theorem mul_div_cancel_right (a : Rational) {b : Rational} (hb : b ≠ zero) :
    (a * b).div b = .ok a := by
  apply eq_ok_of_map_toRat
  rw [map_toRat_div, if_neg hb, toRat_mul, mul_div_cancel_right₀ _ (mt toRat_eq_zero_iff.1 hb)]

/-! ### Sums and products of lists -/

theorem toRat_foldl {step : Rational → Rational → Rational} {step' : ℚ → ℚ → ℚ}
    (hstep : ∀ a b, (step a b).toRat = step' a.toRat b.toRat) (items : List Rational)
    (start : Rational) :
    (items.foldl step start).toRat = (items.map toRat).foldl step' start.toRat := by
  induction items generalizing start with
  | nil => rfl
  | cons a items ih => rw [List.foldl_cons, ih, hstep, List.map_cons, List.foldl_cons]

@[simp] theorem toRat_sum (terms : List Rational) :
    (sum terms).toRat = (terms.map toRat).sum := by
  rw [sum, toRat_foldl toRat_add, toRat_zero, List.sum_eq_foldl]

@[simp] theorem toRat_product (factors : List Rational) :
    (product factors).toRat = (factors.map toRat).prod := by
  rw [product, toRat_foldl toRat_mul, toRat_one, List.prod_eq_foldl]

theorem sum_perm {terms terms' : List Rational} (h : terms.Perm terms') :
    sum terms = sum terms' := by
  apply toRat_injective
  rw [toRat_sum, toRat_sum, (h.map toRat).sum_eq]

theorem product_perm {factors factors' : List Rational} (h : factors.Perm factors') :
    product factors = product factors' := by
  apply toRat_injective
  rw [toRat_product, toRat_product, (h.map toRat).prod_eq]

/-! ### The laws of a field -/

protected theorem add_comm (a b : Rational) : a + b = b + a := by
  apply toRat_injective
  rw [toRat_add, toRat_add, add_comm]

protected theorem add_assoc (a b c : Rational) : a + b + c = a + (b + c) := by
  apply toRat_injective
  rw [toRat_add, toRat_add, toRat_add, toRat_add, add_assoc]

protected theorem mul_comm (a b : Rational) : a * b = b * a := by
  apply toRat_injective
  rw [toRat_mul, toRat_mul, mul_comm]

protected theorem mul_assoc (a b c : Rational) : a * b * c = a * (b * c) := by
  apply toRat_injective
  rw [toRat_mul, toRat_mul, toRat_mul, toRat_mul, mul_assoc]

protected theorem mul_add (a b c : Rational) : a * (b + c) = a * b + a * c := by
  apply toRat_injective
  rw [toRat_mul, toRat_add, toRat_add, toRat_mul, toRat_mul, mul_add]

/-- The operations are those of the rational numbers, division refuses zero alone, sums and products
of lists do not depend on the order, and the laws of a field hold between structures. -/
theorem arithmetic_exact (a b c : Rational) (l l' : List Rational) :
    ((a + b).toRat = a.toRat + b.toRat ∧ (a - b).toRat = a.toRat - b.toRat ∧
      (a * b).toRat = a.toRat * b.toRat ∧ (-a).toRat = -a.toRat ∧ a.abs.toRat = |a.toRat|) ∧
    ((a.div b).map toRat =
        (if b = zero then .error .zeroDivisor else .ok (a.toRat / b.toRat)) ∧
      a.reciprocal.map toRat =
        (if a = zero then .error .reciprocalOfZero else .ok (1 / a.toRat)) ∧
      Fault.zeroDivisor.kind = .division ∧ Fault.reciprocalOfZero.kind = .division) ∧
    ((sum l).toRat = (l.map toRat).sum ∧ (product l).toRat = (l.map toRat).prod ∧
      sum [] = zero ∧ product [] = one ∧
      (l.Perm l' → sum l = sum l' ∧ product l = product l')) ∧
    a + b = b + a ∧ a + b + c = a + (b + c) ∧ a * b = b * a ∧ a * b * c = a * (b * c) ∧
      a * (b + c) = a * b + a * c ∧ (b ≠ zero → (a * b).div b = .ok a) := by
  refine ⟨⟨toRat_add a b, toRat_sub a b, toRat_mul a b, toRat_neg a, toRat_abs a⟩,
    ⟨map_toRat_div a b, map_toRat_reciprocal a, rfl, rfl⟩,
    ⟨toRat_sum l, toRat_product l, rfl, rfl, fun h => ⟨sum_perm h, product_perm h⟩⟩,
    Rational.add_comm a b, Rational.add_assoc a b c, Rational.mul_comm a b,
    Rational.mul_assoc a b c, Rational.mul_add a b c, mul_div_cancel_right a⟩

/-- The quotient of a product by its second factor, and a list of two numbers in both orders. -/
theorem arithmetic_exact_of_halves :
    let half := ofFraction 1 2 (by decide)
    let third := ofFraction (-1) (-3) (by decide)
    third ≠ zero ∧ (half * third).div third = .ok half ∧
      [half, third].Perm [third, half] ∧ sum [half, third] = sum [third, half] := by
  intro half third
  have hexact := arithmetic_exact half third half [half, third] [third, half]
  have hne : third ≠ zero := by decide
  have hperm : [half, third].Perm [third, half] := List.Perm.swap third half []
  exact ⟨hne, hexact.2.2.2.2.2.2.2.2 hne, hperm, (hexact.2.2.1.2.2.2.2 hperm).1⟩

end ExactCalc.Rational
