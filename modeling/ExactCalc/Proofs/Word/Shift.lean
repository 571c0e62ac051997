import ExactCalc.Proofs.Word.Extension

/-!
Shifts as arithmetic with powers of two. A shift to the left is the product by a power of two, a
shift to the right the quotient by it, rounded down in the reading that the shift takes. A distance
of the width or more is no exception, although the program takes another way there. Signed division
truncates, so it is a shift only where nothing is left over or the dividend is not negative.
-/

namespace ExactCalc.Word

variable {a : Word} {width count : Nat} {hwidth : 0 < width}

/-! ### Shifts by natural numbers -/

theorem shiftLeft_natCast (a : Word) (count : Nat) :
    a.shiftLeft count = .ok (wrap a.width a.width_pos (a.value * 2 ^ count)) :=
  shiftLeft_eq_wrap (Int.natCast_nonneg count) a

theorem shiftRight_natCast (a : Word) (count : Nat) (signed : Bool) :
    a.shiftRight count signed =
      .ok (wrap a.width a.width_pos (a.reading signed / 2 ^ count)) :=
  shiftRight_eq_wrap (Int.natCast_nonneg count) a signed

theorem value_shiftedLeft (a : Word) (count : Nat) :
    (wrap a.width a.width_pos (a.value * 2 ^ count)).value =
      a.value * 2 ^ count % 2 ^ a.width := by
  rw [← natCast_two_pow, ← Int.natCast_mul, value_wrap_natCast]

/-- Nothing of the quotient is cut off. -/
theorem reading_shiftedRight (a : Word) (count : Nat) (signed : Bool) :
    (wrap a.width a.width_pos (a.reading signed / 2 ^ count)).reading signed =
      a.reading signed / 2 ^ count :=
  reading_wrap_of_between signed (ediv_between _ (Int.pow_pos (by decide)))

theorem value_shiftedRight (a : Word) (count : Nat) :
    (wrap a.width a.width_pos (a.reading false / 2 ^ count)).value = a.value / 2 ^ count := by
  have hreading := reading_shiftedRight a count false
  rw [reading_false, reading_false, ← natCast_two_pow] at hreading
  exact_mod_cast hreading

/-! ### Powers of two as words -/

theorem value_wrap_two_pow (h : count < width) :
    (wrap width hwidth (2 ^ count)).value = 2 ^ count := by
  rw [← natCast_two_pow]
  exact value_wrap_of_lt hwidth (Nat.pow_lt_pow_right (by decide) h)

theorem value_wrap_two_pow_ne_zero (h : count < width) :
    (wrap width hwidth (2 ^ count)).value ≠ 0 := by
  rw [value_wrap_two_pow h]
  exact (Nat.two_pow_pos count).ne'

/-- The highest power reads as the least number, the others as they are. -/
theorem toInt_wrap_two_pow (h : count < width - 1) :
    (wrap width hwidth (2 ^ count)).toInt = 2 ^ count := by
  have hpos : (0 : Int) < 2 ^ count := Int.pow_pos (by decide)
  have hpos' : (0 : Int) < 2 ^ (width - 1) := Int.pow_pos (by decide)
  exact toInt_wrap_eq_iff.2 ⟨by omega, pow_lt_pow_right₀ (by decide) h⟩

/-- A power beyond the width is a zero word, and so is the shifted one. -/
theorem shiftLeft_eq_mul (a : Word) (count : Nat) :
    a.shiftLeft count = a.mul (wrap a.width a.width_pos (2 ^ count)) := by
  have hsame : a.width = (wrap a.width a.width_pos (2 ^ count)).width := rfl
  rw [shiftLeft_natCast, mul_eq_wrap hsame (.refl _) (value_wrap_modEq _)]

theorem shiftRight_eq_udiv (h : count < a.width) :
    a.shiftRight count false = a.udiv (wrap a.width a.width_pos (2 ^ count)) := by
  have hudiv := Division.udiv.apply_eq_wrap (a := a) (b := wrap a.width a.width_pos (2 ^ count)) rfl
    (value_wrap_two_pow_ne_zero h)
  rw [Division.number, value_stored, value_stored, value_wrap_two_pow h, natCast_two_pow] at hudiv
  rw [shiftRight_natCast]
  exact hudiv.symm

/-! ### Rounding down and truncating -/

theorem ediv_ne_tdiv_iff (x : Int) {y : Int} (hy : 0 < y) :
    x / y ≠ x.tdiv y ↔ x < 0 ∧ ¬y ∣ x := by
  rw [Int.tdiv_eq_ediv, Int.sign_eq_one_of_pos hy]
  by_cases hx : 0 ≤ x ∨ y ∣ x
  · rw [if_pos hx, Int.add_zero]
    refine iff_of_false (fun h => h rfl) fun h => ?_
    exact hx.elim (not_le.2 h.1) h.2
  · rw [if_neg hx]
    rw [not_or, not_le] at hx
    exact iff_of_true (by omega) hx

theorem shiftedRight_ne_sdiv_iff (h : count < a.width - 1) :
    wrap a.width a.width_pos (a.toInt / 2 ^ count) ≠
        wrap a.width a.width_pos (a.toInt.tdiv (wrap a.width a.width_pos (2 ^ count)).toInt) ↔
      a.toInt < 0 ∧ ¬2 ^ count ∣ a.toInt := by
  have hpos : (0 : Int) < 2 ^ count := Int.pow_pos (by decide)
  have hdivisor : (wrap a.width a.width_pos (2 ^ count)).value ≠ 0 :=
    value_wrap_two_pow_ne_zero (by omega)
  have hquotient := toInt_sdiv (a := a) hdivisor
  rw [toInt_wrap_two_pow h, if_neg (by omega)] at hquotient
  rw [← ediv_ne_tdiv_iff _ hpos, toInt_wrap_two_pow h, not_iff_not]
  constructor
  · intro hsame
    have hshifted := reading_shiftedRight a count true
    rw [reading_true, reading_true, hsame, hquotient] at hshifted
    exact hshifted.symm
  · exact fun hsame => by rw [hsame]

theorem floor_div_two_pow (x : Int) (count : Nat) : ⌊(x : ℚ) / 2 ^ count⌋ = x / 2 ^ count := by
  have hfloor := Rat.floor_intCast_div_natCast x (2 ^ count)
  rw [natCast_two_pow] at hfloor
  rw [← hfloor, Nat.cast_pow, Nat.cast_ofNat]

/-- A shift to the left is the product by a power of two modulo that of the width, and a shift to
the right is the quotient rounded down, in the reading that it takes. They are the product and the
unsigned quotient by the word of that power. The signed quotient by it is another one exactly for
the negative dividends that it does not divide. -/
theorem shifts_scale (a : Word) (count : Nat) :
    (∃ l r s : Word, a.shiftLeft count = .ok l ∧ a.shiftRight count false = .ok r ∧
      a.shiftRight count true = .ok s ∧
      (l.width = a.width ∧ r.width = a.width ∧ s.width = a.width) ∧
      l.value = a.value * 2 ^ count % 2 ^ a.width ∧ r.value = a.value / 2 ^ count ∧
      s.toInt = ⌊(a.toInt : ℚ) / 2 ^ count⌋) ∧
    ∃ p : Word, ofInt a.width (2 ^ count) = .ok p ∧ a.shiftLeft count = a.mul p ∧
      (count < a.width → a.shiftRight count false = a.udiv p) ∧
      (count < a.width - 1 → ∃ s q, a.shiftRight count true = .ok s ∧ a.sdiv p = .ok q ∧
        (s ≠ q ↔ a.toInt < 0 ∧ ¬2 ^ count ∣ a.toInt)) := by
  refine ⟨⟨_, _, _, shiftLeft_natCast a count, shiftRight_natCast a count false,
    shiftRight_natCast a count true, ⟨rfl, rfl, rfl⟩, value_shiftedLeft a count,
    value_shiftedRight a count, ?_⟩, _, ofInt_of_pos a.width_pos _, shiftLeft_eq_mul a count,
    shiftRight_eq_udiv, fun h => ?_⟩
  · rw [floor_div_two_pow]
    exact reading_shiftedRight a count true
  · exact ⟨_, _, shiftRight_natCast a count true,
      sdiv_eq_wrap rfl (value_wrap_two_pow_ne_zero (by omega)), shiftedRight_ne_sdiv_iff h⟩

/-- Minus five in eight bits, where a shift by one rounds down to minus three. -/
theorem shifts_scale_of_minus_five :
    let a := wrap 8 (by decide) (-5)
    1 < a.width ∧ 1 < a.width - 1 ∧
      ∃ p s q : Word, ofInt a.width (2 ^ 1) = .ok p ∧ a.shiftRight 1 false = a.udiv p ∧
        a.shiftRight 1 true = .ok s ∧ a.sdiv p = .ok q ∧ s ≠ q := by
  intro a
  have hwidth : 1 < a.width := by decide
  have hwidth' : 1 < a.width - 1 := by decide
  obtain ⟨-, p, hp, -, hudiv, hsdiv⟩ := shifts_scale a 1
  obtain ⟨s, q, hs, hq, hne⟩ := hsdiv hwidth'
  exact ⟨hwidth, hwidth', p, s, q, hp, hudiv hwidth, hs, hq, hne.2 (by decide)⟩

end ExactCalc.Word
