import ExactCalc.Proofs.Rational.Order
import ExactCalc.Proofs.Rational.Round

/-!
Rounding beside the order, the sign and the translations of the rationals. The result of rounding is
characterized by what rounding means, so a law of that notion is a law of the program: rounding
keeps the order, negation exchanges the two directed rules and keeps the others, and moving a number
by an integer moves the result along exactly if the rule takes the same side there.
-/

namespace ExactCalc.Rational

variable {a b : Rational} {rule : TieRule} {k : ℤ}

theorem round_mono (rule : TieRule) (h : order a b ≠ .gt) : a.round rule ≤ b.round rule :=
  (rounds_round a rule).mono (order_ne_gt_iff.1 h) (rounds_round b rule)

theorem toRat_add_ofInt (a : Rational) (k : ℤ) : (a + ofInt k).toRat = a.toRat + k := by
  rw [toRat_add, toRat_ofInt]

theorem round_add_ofInt (hk : rule.Translates k) (a : Rational) :
    (a + ofInt k).round rule = a.round rule + k := by
  rw [round_eq_iff, toRat_add_ofInt]
  exact (rounds_round a rule).add hk

/-! ### Where a translation shows -/

/-- The least of the numbers that lie halfway between two natural numbers. -/
def half : Rational := ofFraction 1 2 (by decide)

theorem toRat_half_add (k : ℤ) : (half + ofInt k).toRat = k + 1 / 2 := by
  rw [toRat_add_ofInt, half, toRat_ofFraction, Int.cast_one, Int.cast_ofNat, add_comm]

theorem toRat_neg_half_add (k : ℤ) : (-half + ofInt k).toRat = (k - 1 : ℤ) + 1 / 2 := by
  rw [toRat_add_ofInt, toRat_neg, half, toRat_ofFraction]
  push_cast
  ring

/-- The results for the two numbers one half away from zero, moved along with them. -/
theorem rounds_of_round_add (h : ∀ a : Rational, (a + ofInt k).round rule = a.round rule + k) :
    rule.Rounds (k + 1 / 2) (half.round rule + k) ∧
      rule.Rounds ((k - 1 : ℤ) + 1 / 2) ((-half).round rule + k) := by
  rw [← h, ← h, ← toRat_half_add, ← toRat_neg_half_add]
  exact ⟨rounds_round _ rule, rounds_round _ rule⟩

theorem even_of_round_add (h : ∀ a : Rational, (a + ofInt k).round .toEven = a.round .toEven + k) :
    Even k := by
  have heven : Even (0 + k) := (rounds_of_round_add h).1.takes_of_half
  rwa [zero_add] at heven

/-- Only zero is at most as far from zero as both of its neighbours. -/
theorem eq_zero_of_abs_le (hup : |k| ≤ |k + 1|) (hdown : |k| ≤ |k - 1|) : k = 0 := by
  rw [Int.abs_eq_natAbs, Int.abs_eq_natAbs] at hup hdown
  omega

theorem eq_zero_of_round_add_awayFromZero
    (h : ∀ a : Rational, (a + ofInt k).round .awayFromZero = a.round .awayFromZero + k) :
    k = 0 := by
  obtain ⟨hup, hdown⟩ := rounds_of_round_add h
  have hup' : |1 + k| = max |k| |k + 1| := hup.abs_eq_max
  have hdown' : |-1 + k| = max |k - 1| |k - 1 + 1| := hdown.abs_eq_max
  rw [add_comm 1 k] at hup'
  rw [neg_add_eq_sub, sub_add_cancel] at hdown'
  exact eq_zero_of_abs_le (hup' ▸ le_max_left _ _) (hdown' ▸ le_max_right _ _)

theorem eq_zero_of_round_add_toZero
    (h : ∀ a : Rational, (a + ofInt k).round .toZero = a.round .toZero + k) : k = 0 := by
  obtain ⟨hup, hdown⟩ := rounds_of_round_add h
  have hup' : |0 + k| = min |k| |k + 1| := hup.abs_eq_min
  have hdown' : |0 + k| = min |k - 1| |k - 1 + 1| := hdown.abs_eq_min
  rw [zero_add] at hup'
  rw [zero_add, sub_add_cancel] at hdown'
  exact eq_zero_of_abs_le (hup'.trans_le (min_le_right _ _)) (hdown'.trans_le (min_le_left _ _))

/-- Translation commutes with rounding for no other distances. -/
theorem round_add_ofInt_iff (rule : TieRule) (k : ℤ) :
    (∀ a : Rational, (a + ofInt k).round rule = a.round rule + k) ↔ rule.Translates k := by
  refine ⟨fun h => ?_, round_add_ofInt⟩
  cases rule with
  | toEven => exact even_of_round_add h
  | awayFromZero => exact eq_zero_of_round_add_awayFromZero h
  | toZero => exact eq_zero_of_round_add_toZero h
  | toNegativeInfinity | toPositiveInfinity => trivial

/-- Rounding keeps the order under every rule. It commutes with negation, which exchanges the two
directed rules. The directed rules commute with moving by any integer, ties to even with moving by
the even ones alone, and the rules that look at zero with none but zero. -/
theorem round_mono_neg_add (k : ℤ) :
    (∀ (rule : TieRule) (a b : Rational), order a b ≠ .gt → a.round rule ≤ b.round rule) ∧
    (∀ a : Rational,
      (-a).round .toEven = -a.round .toEven ∧
      (-a).round .awayFromZero = -a.round .awayFromZero ∧
      (-a).round .toZero = -a.round .toZero ∧
      (-a).round .toNegativeInfinity = -a.round .toPositiveInfinity ∧
      (-a).round .toPositiveInfinity = -a.round .toNegativeInfinity) ∧
    (∀ a : Rational,
      (a + ofInt k).round .toNegativeInfinity = a.round .toNegativeInfinity + k ∧
      (a + ofInt k).round .toPositiveInfinity = a.round .toPositiveInfinity + k) ∧
    ((∀ a : Rational, (a + ofInt k).round .toEven = a.round .toEven + k) ↔ Even k) ∧
    ((∀ a : Rational, (a + ofInt k).round .awayFromZero = a.round .awayFromZero + k) ↔ k = 0) ∧
    ((∀ a : Rational, (a + ofInt k).round .toZero = a.round .toZero + k) ↔ k = 0) := by
  refine ⟨fun rule _ _ => round_mono rule, fun a => ?_, fun a => ?_,
    round_add_ofInt_iff .toEven k, round_add_ofInt_iff .awayFromZero k,
    round_add_ofInt_iff .toZero k⟩
  · exact ⟨round_neg a .toEven, round_neg a .awayFromZero, round_neg a .toZero,
      round_neg a .toNegativeInfinity, round_neg a .toPositiveInfinity⟩
  · exact ⟨(round_add_ofInt_iff .toNegativeInfinity k).2 trivial a,
      (round_add_ofInt_iff .toPositiveInfinity k).2 trivial a⟩

/-- Minus one half and five halves lie on both sides of zero, each halfway between two integers. -/
theorem round_mono_neg_add_of_halves :
    let a := ofFraction (-1) 2 (by decide)
    let b := ofFraction 5 2 (by decide)
    order a b ≠ .gt ∧ a.round .awayFromZero ≤ b.round .awayFromZero ∧
      (-b).round .toNegativeInfinity = -b.round .toPositiveInfinity ∧
      Even (2 : ℤ) ∧ (a + ofInt 2).round .toEven = a.round .toEven + 2 ∧
      ¬∀ c : Rational, (c + ofInt 2).round .toZero = c.round .toZero + 2 := by
  intro a b
  obtain ⟨hmono, hneg, -, heven, -, hzero⟩ := round_mono_neg_add 2
  have horder : order a b ≠ .gt := by decide
  have htwo : Even (2 : ℤ) := even_two
  exact ⟨horder, hmono .awayFromZero a b horder, (hneg b).2.2.2.1, htwo, heven.2 htwo a,
    fun h => absurd (hzero.1 h) (by decide)⟩

end ExactCalc.Rational
