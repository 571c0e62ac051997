import ExactCalc.Proofs.Word.Division
import ExactCalc.Proofs.Word.Logic

/-!
Signed division by way of unsigned division. The magnitude of a word is the word itself or, under a
set sign bit, its negation, and its value is the magnitude of the signed reading even for the least
number, which is its own negation. So a signed division can divide the magnitudes without signs and
put the sign on afterwards, all of it in wrapping arithmetic.
-/

namespace ExactCalc.Word

variable {a b : Word} {width : Nat} {hwidth : 0 < width}

/-- The word, or its negation if the condition holds. -/
def negatedIf (a : Word) (condition : Bool) : Word :=
  if condition then a.neg else a

def magnitude (a : Word) : Word :=
  a.negatedIf a.isNegative

/-! ### Quotients and remainders of magnitudes -/

/-- An integer is its magnitude with or without a sign. -/
theorem exists_magnitude (x : Int) :
    ∃ (m : Nat) (negative : Bool), x.natAbs = m ∧ decide (x < 0) = negative ∧
      x = if negative then -(m : Int) else m := by
  refine ⟨x.natAbs, decide (x < 0), rfl, rfl, ?_⟩
  simp only [decide_eq_true_eq]
  omega

theorem tdiv_eq_natAbs (x y : Int) :
    x.tdiv y = if (decide (x < 0) != decide (y < 0)) = true then
        -((x.natAbs / y.natAbs : Nat) : Int)
      else (x.natAbs / y.natAbs : Nat) := by
  obtain ⟨m, negative, hm, hx, rfl⟩ := exists_magnitude x
  obtain ⟨n, negative', hn, hy, rfl⟩ := exists_magnitude y
  rw [hm, hn, hx, hy]
  have hnonneg : (m : Int).tdiv n = (m / n : Nat) := rfl
  cases negative <;> cases negative' <;> simp [hnonneg]

theorem tmod_eq_natAbs (x y : Int) :
    x.tmod y = if decide (x < 0) = true then -((x.natAbs % y.natAbs : Nat) : Int)
      else (x.natAbs % y.natAbs : Nat) := by
  obtain ⟨m, negative, hm, hx, rfl⟩ := exists_magnitude x
  obtain ⟨n, negative', hn, hy, rfl⟩ := exists_magnitude y
  rw [hm, hn, hx]
  have hnonneg : (m : Int).tmod n = (m % n : Nat) := rfl
  cases negative <;> cases negative' <;> simp [hnonneg]

/-- The remainder of division to the floor from the remainder of the magnitudes: the divisor is
added where the signs differ, unless there is nothing left. -/
theorem fmod_eq_natAbs (x y : Int) :
    x.fmod y =
      if x.natAbs % y.natAbs = 0 then 0
      else match decide (x < 0), decide (y < 0) with
        | false, false => ((x.natAbs % y.natAbs : Nat) : Int)
        | true, false => -((x.natAbs % y.natAbs : Nat) : Int) + y
        | false, true => ((x.natAbs % y.natAbs : Nat) : Int) + y
        | true, true => -((x.natAbs % y.natAbs : Nat) : Int) := by
  rw [← floorRemainder_eq_fmod, floorRemainder, tmod_eq_natAbs]
  generalize x.natAbs % y.natAbs = rest
  by_cases hx : x < 0 <;> by_cases hy : y < 0 <;> by_cases hrest : rest = 0 <;>
    simp [hx, hy, hrest]

/-! ### Magnitudes -/

theorem isNegative_eq (a : Word) : a.isNegative = decide (a.toInt < 0) := by
  have hlt := value_lt_two_pow a
  rw [toInt]
  split
  · next h => exact h.trans (decide_eq_true (by omega)).symm
  · next h => exact (Bool.eq_false_of_not_eq_true h).trans (decide_eq_false (by omega)).symm

theorem negatedIf_wrap (i : Int) (condition : Bool) :
    (wrap width hwidth i).negatedIf condition =
      wrap width hwidth (if condition then -i else i) := by
  cases condition with
  | false => rfl
  | true => exact neg_wrap i

theorem magnitude_eq_wrap (a : Word) :
    a.magnitude = wrap a.width a.width_pos a.toInt.natAbs := by
  have habs : (if decide (a.toInt < 0) = true then -a.toInt else a.toInt) = a.toInt.natAbs := by
    simp only [decide_eq_true_eq]
    omega
  calc a.magnitude
      = (wrap a.width a.width_pos a.toInt).negatedIf a.isNegative := by
        rw [wrap_toInt, magnitude]
    _ = wrap a.width a.width_pos a.toInt.natAbs := by
        rw [negatedIf_wrap, isNegative_eq, habs]

theorem natAbs_toInt_lt (a : Word) : a.toInt.natAbs < 2 ^ a.width := by
  obtain ⟨hlow, hhigh⟩ := toInt_bounds a
  have hpow := two_pow_pred a.width_pos
  rw [← natCast_two_pow a.width] at hpow
  omega

theorem value_magnitude (a : Word) : a.magnitude.value = a.toInt.natAbs := by
  rw [magnitude_eq_wrap]
  exact value_wrap_of_lt a.width_pos (natAbs_toInt_lt a)

/-! ### Division -/

/-- Unsigned division of the magnitudes leaves nothing to cut off. -/
theorem divide_magnitudes (hwidth : a.width = b.width) (hdivisor : b.value ≠ 0) :
    a.magnitude.udiv b.magnitude =
        .ok (wrap a.width a.width_pos (a.toInt.natAbs / b.toInt.natAbs : Nat)) ∧
      a.magnitude.urem b.magnitude =
        .ok (wrap a.width a.width_pos (a.toInt.natAbs % b.toInt.natAbs : Nat)) := by
  have hvalue (c : Word) : (wrap c.width c.width_pos c.toInt.natAbs).value = c.toInt.natAbs := by
    rw [← magnitude_eq_wrap, value_magnitude]
  have hsame : (wrap a.width a.width_pos a.toInt.natAbs).width =
      (wrap b.width b.width_pos b.toInt.natAbs).width := hwidth
  have hne : (wrap b.width b.width_pos b.toInt.natAbs).value ≠ 0 := by
    rw [hvalue]
    exact Int.natAbs_ne_zero.2 (toInt_ne_zero hdivisor)
  rw [magnitude_eq_wrap a, magnitude_eq_wrap b]
  constructor
  · refine (Division.udiv.apply_eq_wrap hsame hne).trans ?_
    rw [Division.number, value_stored, value_stored, hvalue, hvalue]
    rfl
  · refine (Division.urem.apply_eq_wrap hsame hne).trans ?_
    rw [Division.number, value_stored, value_stored, hvalue, hvalue]
    rfl

/-- The divisor is added to the remainder, or to its negation, as the integers are added. -/
theorem add_divisor (hwidth : a.width = b.width) (i : Int) :
    (wrap a.width a.width_pos i).add b = .ok (wrap a.width a.width_pos (i + b.toInt)) := by
  have hsame : (wrap a.width a.width_pos i).width = b.width := hwidth
  have hb : (b.value : Int) ≡ b.toInt [ZMOD 2 ^ a.width] := by
    rw [hwidth]
    exact (toInt_modEq_value b).symm
  exact add_eq_wrap hsame (value_wrap_modEq i) hb

/-- Signed division is unsigned division of the magnitudes with the signs put on afterwards. The
quotient is negated if the signs differ, the truncated remainder under the sign of the dividend, and
for the other remainder the divisor is added where the signs differ and something is left. -/
theorem division_by_magnitudes (hwidth : a.width = b.width) (hdivisor : b.value ≠ 0) :
    ∃ q r : Word, a.magnitude.udiv b.magnitude = .ok q ∧ a.magnitude.urem b.magnitude = .ok r ∧
      a.sdiv b = .ok (q.negatedIf (a.isNegative != b.isNegative)) ∧
      a.srem b = .ok (r.negatedIf a.isNegative) ∧
      a.smod b =
        if r.isZero then .ok r
        else match a.isNegative, b.isNegative with
          | false, false => .ok r
          | true, false => r.neg.add b
          | false, true => r.add b
          | true, true => .ok r.neg := by
  obtain ⟨hudiv, hurem⟩ := divide_magnitudes hwidth hdivisor
  refine ⟨_, _, hudiv, hurem, ?_, ?_, ?_⟩
  · rw [sdiv_eq_wrap hwidth hdivisor, negatedIf_wrap, isNegative_eq, isNegative_eq,
      tdiv_eq_natAbs]
  · rw [srem_eq_wrap hwidth hdivisor, negatedIf_wrap, isNegative_eq, tmod_eq_natAbs]
  · have hle := Nat.mod_le a.toInt.natAbs b.toInt.natAbs
    have hvalue := value_wrap_of_lt a.width_pos (Nat.lt_of_le_of_lt hle (natAbs_toInt_lt a))
    rw [smod_eq_wrap hwidth hdivisor, fmod_eq_natAbs, isNegative_eq, isNegative_eq, isZero, hvalue]
    generalize a.toInt.natAbs % b.toInt.natAbs = rest
    by_cases hrest : rest = 0
    · subst hrest
      rfl
    · rw [if_neg hrest, if_neg (by simpa using hrest), neg_wrap, add_divisor hwidth,
        add_divisor hwidth]
      cases decide (a.toInt < 0) <;> cases decide (b.toInt < 0) <;> rfl

/-- The least number of four bits by `3`: its magnitude leaves `2`, of which `-2 + 3` is made. -/
theorem division_by_magnitudes_of_least :
    let a := wrap 4 (by decide) (-8)
    let b := wrap 4 (by decide) 3
    a.width = b.width ∧ b.value ≠ 0 ∧ a.magnitude = a ∧
      ∃ q r : Word, a.magnitude.udiv b.magnitude = .ok q ∧ a.magnitude.urem b.magnitude = .ok r ∧
        a.sdiv b = .ok q.neg ∧ a.srem b = .ok r.neg ∧ a.smod b = r.neg.add b := by
  intro a b
  have hdivisor : b.value ≠ 0 := by decide
  have ha : a.isNegative = true := by decide
  have hb : b.isNegative = false := by decide
  obtain ⟨q, r, hudiv, hurem, hsdiv, hsrem, hsmod⟩ :=
    division_by_magnitudes (a := a) (b := b) rfl hdivisor
  have hrest : a.magnitude.urem b.magnitude = .ok (wrap 4 (by decide) 2) := by decide
  have hr : r = wrap 4 (by decide) 2 := Except.ok.inj (hurem.symm.trans hrest)
  rw [ha, hb] at hsdiv hsmod
  rw [ha] at hsrem
  subst hr
  exact ⟨rfl, hdivisor, by decide, q, _, hudiv, hurem, hsdiv, hsrem, hsmod⟩

end ExactCalc.Word
