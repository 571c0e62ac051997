import ExactCalc.Proofs.Word.Operations
import Mathlib.Data.Rat.Floor

/-!
Division of words. The signed divisions take the signed readings of both words, so their quotient
truncates and each of their remainders has the sign of one operand. A remainder lies between zero
and an operand and fits the width as it is. So does a quotient, with one exception: the least number
divided by `-1` is one too large and wraps to itself. The remainder of that division is zero, so a
quotient times the divisor plus the remainder is the dividend there as well.
-/

namespace ExactCalc.Word

variable {a b : Word}

/-- Zero is the only word that reads as zero. -/
theorem toInt_ne_zero (h : a.value ≠ 0) : a.toInt ≠ 0 := by
  have hlt := value_lt_two_pow a
  rw [toInt]
  split <;> omega

/-! ### Quotients and remainders of integers -/

/-- Among the numbers from `-half` on and below `half`, one quotient alone is too large. -/
theorem tdiv_fits_iff {half x y : Int} (hlow : -half ≤ x) (hhigh : x < half) (hy : y ≠ 0) :
    (-half ≤ x.tdiv y ∧ x.tdiv y < half) ↔ ¬(x = -half ∧ y = -1) := by
  constructor
  · rintro ⟨-, hlt⟩ ⟨rfl, rfl⟩
    rw [Int.tdiv_neg, Int.tdiv_one] at hlt
    omega
  · intro hordinary
    by_cases hunit : y.natAbs = 1
    · rcases Int.natAbs_eq_iff.1 hunit with rfl | rfl
      · rw [Int.natCast_one, Int.tdiv_one]
        exact ⟨hlow, hhigh⟩
      · rw [Int.natCast_one, Int.tdiv_neg, Int.tdiv_one]
        omega
    -- Any other divisor at least halves the magnitude.
    · have hquot : (x.tdiv y).natAbs ≤ x.natAbs / 2 := by
        rw [Int.natAbs_tdiv]
        exact Nat.div_le_div_left (by omega) (by decide)
      omega

/-- A truncated remainder lies between zero and the dividend. -/
theorem tmod_between (x y : Int) :
    (0 ≤ x → 0 ≤ x.tmod y ∧ x.tmod y ≤ x) ∧ (x ≤ 0 → x ≤ x.tmod y ∧ x.tmod y ≤ 0) := by
  have habs : (x.tmod y).natAbs ≤ x.natAbs := by
    rw [Int.natAbs_tmod]
    exact Nat.mod_le _ _
  constructor
  · intro hx
    have hrest := Int.tmod_nonneg y hx
    omega
  · intro hx
    have hrest := Int.tmod_nonneg y (Int.neg_nonneg_of_nonpos hx)
    rw [Int.neg_tmod] at hrest
    omega

/-- The remainder of division to the floor lies between zero and the divisor. -/
theorem fmod_between (x y : Int) :
    (0 < y → 0 ≤ x.fmod y ∧ x.fmod y < y) ∧ (y < 0 → y < x.fmod y ∧ x.fmod y ≤ 0) := by
  constructor
  · intro hpos
    exact ⟨Int.fmod_nonneg_of_pos x hpos, Int.fmod_lt_of_pos x hpos⟩
  · intro hneg
    have hpos : 0 < -y := Int.neg_pos_of_neg hneg
    have hlow := Int.fmod_nonneg_of_pos (-x) hpos
    have hhigh := Int.fmod_lt_of_pos (-x) hpos
    rw [Int.neg_fmod_neg] at hlow hhigh
    omega

/-- Division to the floor leaves nothing or a remainder of the sign of the divisor, less than the
divisor in magnitude. -/
theorem fmod_sign (x : Int) {y : Int} (hy : y ≠ 0) :
    (x.fmod y = 0 ∨ (x.fmod y).sign = y.sign) ∧ |x.fmod y| < |y| := by
  obtain ⟨hpos, hneg⟩ := fmod_between x y
  rcases Int.lt_or_gt_of_ne hy with h | h
  · obtain ⟨hlow, hhigh⟩ := hneg h
    rw [abs_of_nonpos hhigh, abs_of_neg h, Int.sign_eq_neg_one_of_neg h]
    refine ⟨?_, by omega⟩
    rcases Int.lt_or_eq_of_le hhigh with hrest | hrest
    · exact .inr (Int.sign_eq_neg_one_of_neg hrest)
    · exact .inl hrest
  · obtain ⟨hlow, hhigh⟩ := hpos h
    rw [abs_of_nonneg hlow, abs_of_pos h, Int.sign_eq_one_of_pos h]
    refine ⟨?_, hhigh⟩
    rcases Int.lt_or_eq_of_le hlow with hrest | hrest
    · exact .inr (Int.sign_eq_one_of_pos hrest)
    · exact .inl hrest.symm

/-- Truncating division leaves nothing or a remainder of the sign of the dividend. -/
theorem tmod_sign (x y : Int) : x.tmod y = 0 ∨ (x.tmod y).sign = x.sign := by
  rw [Int.sign_tmod]
  split
  · next hdvd => exact .inl (Int.tmod_eq_zero_of_dvd hdvd)
  · exact .inr rfl

/-! ### Quotients of rationals -/

/-- A rational number without what it has after the point. -/
def integerPart (q : ℚ) : Int :=
  if 0 ≤ q then ⌊q⌋ else ⌈q⌉

theorem div_eq_add_div {x y quotient rest : Int} (hy : y ≠ 0) (h : y * quotient + rest = x) :
    (x : ℚ) / y = quotient + (rest : ℚ) / y := by
  have hy' : (y : ℚ) ≠ 0 := Int.cast_ne_zero.2 hy
  rw [← h, Int.cast_add, Int.cast_mul, add_div, mul_div_cancel_left₀ _ hy']

theorem fdiv_eq_floor (x : Int) {y : Int} (hy : y ≠ 0) : x.fdiv y = ⌊(x : ℚ) / y⌋ := by
  obtain ⟨hpos, hneg⟩ := fmod_between x y
  rw [div_eq_add_div hy (Int.mul_fdiv_add_fmod x y), Int.floor_intCast_add, left_eq_add,
    Int.floor_eq_zero_iff, Set.mem_Ico]
  rcases Int.lt_or_gt_of_ne hy with h | h
  · obtain ⟨hlow, hhigh⟩ := hneg h
    have h' : (y : ℚ) < 0 := Int.cast_lt_zero.2 h
    exact ⟨div_nonneg_of_nonpos (Int.cast_nonpos.2 hhigh) h'.le,
      (div_lt_one_of_neg h').2 (Int.cast_lt.2 hlow)⟩
  · obtain ⟨hlow, hhigh⟩ := hpos h
    have h' : (0 : ℚ) < y := Int.cast_pos.2 h
    exact ⟨div_nonneg (Int.cast_nonneg hlow) h'.le, (div_lt_one h').2 (Int.cast_lt.2 hhigh)⟩

/-- What truncating division leaves has the sign of the dividend, so the quotient is cut off. -/
theorem tdiv_eq_integerPart (x : Int) {y : Int} (hy : y ≠ 0) :
    x.tdiv y = integerPart ((x : ℚ) / y) := by
  obtain ⟨hnonneg, hnonpos⟩ := tmod_between x y
  have hsmall : |((x.tmod y : Int) : ℚ) / y| < 1 := by
    have habs : |x.tmod y| < |y| := by
      rw [Int.abs_eq_natAbs, Int.abs_eq_natAbs, Int.natAbs_tmod]
      exact Int.ofNat_lt.2 (Nat.mod_lt _ (Int.natAbs_pos.2 hy))
    rw [abs_div, div_lt_one (abs_pos.2 (Int.cast_ne_zero.2 hy))]
    exact_mod_cast habs
  obtain ⟨hlow, hhigh⟩ := abs_lt.1 hsmall
  have hsplit := div_eq_add_div hy (Int.mul_tdiv_add_tmod x y)
  rw [integerPart]
  split
  · next h =>
    have hrest : 0 ≤ ((x.tmod y : Int) : ℚ) / y := by
      rw [div_nonneg_iff] at h ⊢
      exact_mod_cast h.imp (And.imp_left fun hx => (hnonneg (by exact_mod_cast hx)).1)
        (And.imp_left fun hx => (hnonpos (by exact_mod_cast hx)).2)
    rw [hsplit, Int.floor_intCast_add, left_eq_add, Int.floor_eq_zero_iff, Set.mem_Ico]
    exact ⟨hrest, hhigh⟩
  · next h =>
    have hrest : ((x.tmod y : Int) : ℚ) / y ≤ 0 := by
      have h := le_of_not_ge h
      rw [div_nonpos_iff] at h ⊢
      exact_mod_cast h.imp (And.imp_left fun hx => (hnonneg (by exact_mod_cast hx)).1)
        (And.imp_left fun hx => (hnonpos (by exact_mod_cast hx)).2)
    rw [hsplit, Int.ceil_intCast_add, left_eq_add, Int.ceil_eq_zero_iff, Set.mem_Ioc]
    exact ⟨hlow, hrest⟩

/-! ### Signed division -/

theorem sdiv_eq_wrap (hwidth : a.width = b.width) (hdivisor : b.value ≠ 0) :
    a.sdiv b = .ok (wrap a.width a.width_pos (a.toInt.tdiv b.toInt)) := by
  rw [sdiv, bind_divisible hwidth hdivisor]
  rfl

theorem srem_eq_wrap (hwidth : a.width = b.width) (hdivisor : b.value ≠ 0) :
    a.srem b = .ok (wrap a.width a.width_pos (a.toInt.tmod b.toInt)) := by
  rw [srem, bind_divisible hwidth hdivisor]
  rfl

theorem smod_eq_wrap (hwidth : a.width = b.width) (hdivisor : b.value ≠ 0) :
    a.smod b = .ok (wrap a.width a.width_pos (a.toInt.fmod b.toInt)) := by
  rw [smod, bind_divisible hwidth hdivisor, floorRemainder_eq_fmod]
  rfl

/-- One more than the greatest number reads as the least. -/
theorem toInt_wrap_half {width : Nat} (hwidth : 0 < width) :
    (wrap width hwidth (2 ^ (width - 1))).toInt = -2 ^ (width - 1) := by
  have hpow := two_pow_pred hwidth
  have hpos : (0 : Int) < 2 ^ (width - 1) := Int.pow_pos (by decide)
  refine toInt_eq_of_bounds ((toInt_wrap_modEq _).trans ?_) (Int.le_refl _) ?_
  · exact Int.modEq_iff_dvd.2 ⟨-1, by rw [width_wrap]; omega⟩
  · rw [width_wrap]
    omega

theorem toInt_sdiv (hdivisor : b.value ≠ 0) :
    (wrap a.width a.width_pos (a.toInt.tdiv b.toInt)).toInt =
      if a.toInt = -2 ^ (a.width - 1) ∧ b.toInt = -1 then -2 ^ (a.width - 1)
      else a.toInt.tdiv b.toInt := by
  obtain ⟨hlow, hhigh⟩ := toInt_bounds a
  split
  · next h =>
    rw [h.1, h.2, Int.tdiv_neg, Int.tdiv_one, Int.neg_neg]
    exact toInt_wrap_half a.width_pos
  · next h => exact toInt_wrap_eq_iff.2 ((tdiv_fits_iff hlow hhigh (toInt_ne_zero hdivisor)).2 h)

theorem toInt_srem (a b : Word) :
    (wrap a.width a.width_pos (a.toInt.tmod b.toInt)).toInt = a.toInt.tmod b.toInt := by
  obtain ⟨hlow, hhigh⟩ := toInt_bounds a
  obtain ⟨hnonneg, hnonpos⟩ := tmod_between a.toInt b.toInt
  refine toInt_wrap_eq_iff.2 ?_
  rcases Int.le_total 0 a.toInt with h | h
  · have := hnonneg h
    omega
  · have := hnonpos h
    omega

theorem toInt_smod (hwidth : a.width = b.width) (hdivisor : b.value ≠ 0) :
    (wrap a.width a.width_pos (a.toInt.fmod b.toInt)).toInt = a.toInt.fmod b.toInt := by
  obtain ⟨hlow, hhigh⟩ := toInt_bounds b
  obtain ⟨hpos, hneg⟩ := fmod_between a.toInt b.toInt
  refine toInt_wrap_eq_iff.2 ?_
  rw [hwidth]
  rcases Int.lt_or_gt_of_ne (toInt_ne_zero hdivisor) with h | h
  · have := hneg h
    omega
  · have := hpos h
    omega

/-- Multiplication and addition depend on nothing but the classes of the operands. -/
theorem mul_eq_wrap {x y : Int} (hwidth : a.width = b.width)
    (hx : a.value ≡ x [ZMOD 2 ^ a.width]) (hy : b.value ≡ y [ZMOD 2 ^ a.width]) :
    a.mul b = .ok (wrap a.width a.width_pos (x * y)) := by
  rw [mul_of_width_eq hwidth, wrap_eq_wrap_iff.2 (hx.mul hy)]

/-- The wrapped quotient and remainder make up the dividend, whether the quotient fits or not. -/
theorem quotient_mul_add_remainder (hwidth : a.width = b.width) :
    ((wrap a.width a.width_pos (a.toInt.tdiv b.toInt)).mul b >>= fun product =>
      product.add (wrap a.width a.width_pos (a.toInt.tmod b.toInt))) = .ok a := by
  have hb : (b.value : Int) ≡ b.toInt [ZMOD 2 ^ a.width] := by
    rw [hwidth]
    exact (toInt_modEq_value b).symm
  have hproduct := mul_eq_wrap (a := wrap a.width a.width_pos (a.toInt.tdiv b.toInt)) hwidth
    (value_wrap_modEq _) hb
  calc _ = (wrap a.width a.width_pos (a.toInt.tdiv b.toInt * b.toInt)).add
        (wrap a.width a.width_pos (a.toInt.tmod b.toInt)) := by rw [hproduct]; rfl
    _ = .ok (wrap a.width a.width_pos a.toInt) := by rw [add_wrap, Int.tdiv_mul_add_tmod]
    _ = .ok a := by rw [wrap_toInt]

/-! ### Unsigned division -/

theorem withValue_of_le {n : Nat} (h : n ≤ a.value) : (a.withValue n).value = n := by
  rw [withValue, value_truncate]
  exact Nat.mod_eq_of_lt (Nat.lt_of_le_of_lt h a.value_lt)

theorem udivRem_of_divisible (hwidth : a.width = b.width) (hdivisor : b.value ≠ 0) :
    ∃ q r : Word, a.udivRem b = .ok (q, r) ∧ a.udiv b = .ok q ∧ a.urem b = .ok r ∧
      q.width = a.width ∧ r.width = a.width ∧
      a.value = b.value * q.value + r.value ∧ r.value < b.value := by
  refine ⟨a.withValue (a.value / b.value), a.withValue (a.value % b.value), ?_, ?_, ?_, rfl, rfl,
    ?_, ?_⟩
  · rw [udivRem, bind_divisible hwidth hdivisor]
    rfl
  · rw [udiv, bind_divisible hwidth hdivisor]
    rfl
  · rw [urem, bind_divisible hwidth hdivisor]
    rfl
  · rw [withValue_of_le (Nat.div_le_self _ _), withValue_of_le (Nat.mod_le _ _), Nat.div_add_mod]
  · rw [withValue_of_le (Nat.mod_le _ _)]
    exact Nat.mod_lt _ (Nat.pos_of_ne_zero hdivisor)

/-- Division by a word that is not zero always has a result. The signed quotient is cut off after
the point, but for the one that does not fit; `srem` and `smod` are exact, the first of the sign of
the dividend and the second of the sign of the divisor; a quotient times the divisor plus its
remainder is the dividend; unsigned division is that of the magnitudes, taken together or one at a
time. -/
theorem division_exact (hwidth : a.width = b.width) (hdivisor : b.value ≠ 0) :
    (∃ q r m : Word, a.sdiv b = .ok q ∧ a.srem b = .ok r ∧ a.smod b = .ok m ∧
      (q.width = a.width ∧ r.width = a.width ∧ m.width = a.width) ∧
      q.toInt = (if a.toInt = -2 ^ (a.width - 1) ∧ b.toInt = -1 then -2 ^ (a.width - 1)
        else integerPart ((a.toInt : ℚ) / b.toInt)) ∧
      r.toInt = a.toInt - b.toInt * integerPart ((a.toInt : ℚ) / b.toInt) ∧
      (r.toInt = 0 ∨ r.toInt.sign = a.toInt.sign) ∧
      m.toInt = a.toInt - b.toInt * ⌊(a.toInt : ℚ) / b.toInt⌋ ∧
      (m.toInt = 0 ∨ m.toInt.sign = b.toInt.sign) ∧ |m.toInt| < |b.toInt| ∧
      (q.mul b >>= fun product => product.add r) = .ok a) ∧
    ∃ q r : Word, a.udivRem b = .ok (q, r) ∧ a.udiv b = .ok q ∧ a.urem b = .ok r ∧
      q.width = a.width ∧ r.width = a.width ∧
      a.value = b.value * q.value + r.value ∧ r.value < b.value := by
  have hne := toInt_ne_zero hdivisor
  refine ⟨⟨_, _, _, sdiv_eq_wrap hwidth hdivisor, srem_eq_wrap hwidth hdivisor,
    smod_eq_wrap hwidth hdivisor, ⟨rfl, rfl, rfl⟩, ?_, ?_, ?_, ?_, ?_, ?_,
    quotient_mul_add_remainder hwidth⟩, udivRem_of_divisible hwidth hdivisor⟩
  · rw [toInt_sdiv hdivisor, tdiv_eq_integerPart _ hne]
  · rw [toInt_srem, Int.tmod_def, tdiv_eq_integerPart _ hne]
  · rw [toInt_srem]
    exact tmod_sign _ _
  · rw [toInt_smod hwidth hdivisor, Int.fmod_def, fdiv_eq_floor _ hne]
  · rw [toInt_smod hwidth hdivisor]
    exact (fmod_sign _ hne).1
  · rw [toInt_smod hwidth hdivisor]
    exact (fmod_sign _ hne).2

/-- In one bit `-1` is the least number, and `-1` divided by itself does not fit. -/
theorem division_exact_of_one_bit :
    let a := wrap 1 (by decide) (-1)
    a.width = a.width ∧ a.value ≠ 0 ∧
      ∃ q r : Word, a.sdiv a = .ok q ∧ a.srem a = .ok r ∧ q.toInt = -1 ∧
        (r.toInt = 0 ∨ r.toInt.sign = -1) ∧
        (q.mul a >>= fun product => product.add r) = .ok a := by
  intro a
  have hdivisor : a.value ≠ 0 := by decide
  obtain ⟨⟨q, r, -, hq, hr, -, -, hquot, -, hsign, -, -, -, hback⟩, -⟩ :=
    division_exact (a := a) rfl hdivisor
  have hread : a.toInt = -1 := by decide
  refine ⟨rfl, hdivisor, q, r, hq, hr, ?_, ?_, hback⟩
  · rw [hquot, if_pos ⟨hread, hread⟩]
    rfl
  · rw [hread] at hsign
    exact hsign

end ExactCalc.Word
