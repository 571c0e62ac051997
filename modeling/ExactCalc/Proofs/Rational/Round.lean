import ExactCalc.Proofs.Rational.Field
import ExactCalc.Proofs.Rounding
import ExactCalc.Rational.Round

/-!
Rounding a rational to an integer. The truncated quotient and the step away from zero have the
magnitude and the sign of a rounded quotient of natural numbers, so the result is the one integer to
which the tie rule rounds the number. What the result is halfway between two integers, and that the
rule makes no difference elsewhere, is read off there.
-/

namespace ExactCalc.Rational

open Numeral

/-- Truncation acts on the magnitude and keeps the sign. -/
theorem tdiv_eq_signed (i : Int) (n : Nat) :
    i.tdiv n = signed (decide (i < 0)) (i.natAbs / n) := by
  cases i with
  | ofNat m => rfl
  | negSucc m =>
      rw [decide_eq_true (Int.negSucc_lt_zero m)]
      rfl

/-- A step away from zero. -/
theorem signed_succ (negative : Bool) (n : Nat) :
    signed negative (n + 1) =
      if negative then signed negative n - 1 else signed negative n + 1 := by
  cases negative with
  | false => rfl
  | true =>
      show -((n + 1 : Nat) : Int) = -(n : Int) - 1
      omega

theorem natAbs_signed (negative : Bool) (n : Nat) : (signed negative n).natAbs = n := by
  cases negative with
  | false => exact Int.natAbs_natCast n
  | true => exact (Int.natAbs_neg _).trans (Int.natAbs_natCast n)

/-- Rounding by truncation and a step is rounding of the magnitude. -/
theorem round_eq_quotient (a : Rational) (rule : TieRule) :
    a.round rule = signed a.isNegative (rule.quotient a.isNegative a.num.natAbs a.den) := by
  by_cases hinteger : a.isInteger
  · have hone : a.den = 1 := beq_iff_eq.1 hinteger
    rw [round, if_pos hinteger, hone, TieRule.quotient_of_dvd rule _ Nat.one_pos (Nat.one_dvd _),
      Nat.div_one, isNegative, signed_natAbs]
  · have hwhole : a.num.tdiv a.den = signed a.isNegative (a.num.natAbs / a.den) :=
      tdiv_eq_signed a.num a.den
    have habs : (signed a.isNegative (a.num.natAbs / a.den)).natAbs = a.num.natAbs / a.den :=
      natAbs_signed _ _
    have hrest : (a.num.tmod a.den).natAbs = a.num.natAbs % a.den := by
      rw [Int.natAbs_tmod, Int.natAbs_natCast]
    rw [round, if_neg hinteger]
    simp only [hwhole, habs, hrest, ← signed_succ, TieRule.quotient]
    -- Both sides choose by the same comparison but each in a match of its own.
    cases compare (2 * (a.num.natAbs % a.den)) a.den with
    | lt | gt => rfl
    | eq => exact (apply_ite (signed a.isNegative) _ _ _).symm

theorem rounds_round (a : Rational) (rule : TieRule) : rule.Rounds a.toRat (a.round rule) := by
  have h := TieRule.rounds_quotient rule a.isNegative a.num.natAbs a.den_pos
  rwa [← round_eq_quotient, isNegative, signed_natAbs] at h

/-- The result is characterized by what rounding means. -/
theorem round_eq_iff {a : Rational} {rule : TieRule} {n : Int} :
    a.round rule = n ↔ rule.Rounds a.toRat n := by
  constructor
  · rintro rfl
    exact rounds_round a rule
  · exact (rounds_round a rule).unique

/-- A number is rounded to an integer at most one half away. Of the two integers around a number
halfway between them each rule takes its own, and for all other numbers the rules agree. -/
theorem round_nearest (a : Rational) :
    (∀ rule, |a.toRat - a.round rule| ≤ 1 / 2) ∧
    (∀ k : ℤ, a.toRat = k + 1 / 2 →
      (∀ rule, a.round rule = k ∨ a.round rule = k + 1) ∧
      Even (a.round .toEven) ∧
      |a.round .awayFromZero| = max |k| |k + 1| ∧
      |a.round .toZero| = min |k| |k + 1| ∧
      a.round .toNegativeInfinity = k ∧
      a.round .toPositiveInfinity = k + 1) ∧
    ((∀ k : ℤ, a.toRat ≠ k + 1 / 2) → ∀ rule rule', a.round rule = a.round rule') := by
  refine ⟨fun rule => (rounds_round a rule).near, fun k hk => ?_, fun h rule rule' =>
    round_eq_iff.2 ((rounds_round a rule').of_ne_half h)⟩
  have hrounds (rule : TieRule) : rule.Rounds (k + 1 / 2) (a.round rule) := hk ▸ rounds_round a rule
  exact ⟨fun rule => (hrounds rule).eq_or_eq_succ, (hrounds .toEven).takes_of_half,
    (hrounds .awayFromZero).abs_eq_max, (hrounds .toZero).abs_eq_min,
    (hrounds .toNegativeInfinity).eq_of_half, (hrounds .toPositiveInfinity).eq_succ_of_half⟩

/-- Minus one half lies between minus one and zero, and its truncated quotient has no sign. -/
theorem round_nearest_of_minus_half :
    let a := ofFraction (-1) 2 (by decide)
    a.toRat = ((-1 : ℤ) : ℚ) + 1 / 2 ∧
      Even (a.round .toEven) ∧
      |a.round .awayFromZero| = max |(-1 : ℤ)| |-1 + 1| ∧
      |a.round .toZero| = min |(-1 : ℤ)| |-1 + 1| ∧
      a.round .toNegativeInfinity = -1 ∧
      a.round .toPositiveInfinity = -1 + 1 := by
  intro a
  have hhalf : a.toRat = ((-1 : ℤ) : ℚ) + 1 / 2 := by
    rw [toRat_ofFraction]
    norm_num
  exact ⟨hhalf, ((round_nearest a).2.1 (-1) hhalf).2⟩

theorem round_neg (a : Rational) (rule : TieRule) :
    (-a).round rule = -(a.round rule.mirror) := by
  have h := (rounds_round a rule.mirror).neg
  rw [TieRule.mirror_mirror, ← toRat_neg] at h
  exact round_eq_iff.2 h

end ExactCalc.Rational
