import ExactCalc.Proofs.Word.Slices
import Mathlib.Data.Nat.Count

/-!
How many ones a word has and how many zeros it begins and ends with. The program counts on the value
alone, by halving it or by its length, and the zeros in front are what the width leaves over. All of
these are properties of the set of the places that hold a one: its size, its greatest and its least
member. So what moves, inverts or joins bits is counted by what it does to that set.
-/

namespace ExactCalc.Word

variable {a : Word} {n width : Nat}

/-! ### Halves of a number -/

theorem onesIn_eq (n : Nat) : onesIn n = onesIn (n / 2) + n % 2 := by
  rw [onesIn]
  split
  · next h => rw [h, onesIn, if_pos rfl]
  · exact Nat.add_comm _ _

/-- The lowest bit is counted, and then the bits of the half, which stand one place lower. -/
theorem onesIn_eq_count (h : n < 2 ^ width) :
    onesIn n = Nat.count (fun i => n.testBit i = true) width := by
  induction width generalizing n with
  | zero =>
      obtain rfl : n = 0 := Nat.lt_one_iff.1 h
      rw [onesIn, if_pos rfl]
      rfl
  | succ width ih =>
      have hhalf : n / 2 < 2 ^ width := Nat.div_lt_of_lt_mul (by rwa [← Nat.pow_succ'])
      have hlowest : n % 2 = if n.testBit 0 = true then 1 else 0 := by
        rcases Nat.mod_two_eq_zero_or_one n with hn | hn <;> simp [hn]
      rw [Nat.count_succ', onesIn_eq, ih hhalf, hlowest]
      simp only [Nat.testBit_succ]

theorem count_congr {p q : Nat → Prop} [DecidablePred p] [DecidablePred q]
    (h : ∀ i < n, p i ↔ q i) : Nat.count p n = Nat.count q n :=
  (Nat.count_mono_left fun i hi => (h i hi).1).antisymm
    (Nat.count_mono_left fun i hi => (h i hi).2)

/-- The zeros at the end are the factors of two. -/
theorem exists_eq_odd_mul (hn : n ≠ 0) : ∃ m, n = (2 * m + 1) * 2 ^ zerosEnding n := by
  induction n using zerosEnding.induct with
  | case1 => contradiction
  | case2 n _ hodd =>
      rw [zerosEnding, if_neg hn, if_pos hodd]
      exact ⟨n / 2, by omega⟩
  | case3 n _ heven ih =>
      obtain ⟨m, hm⟩ := ih (by omega)
      rw [zerosEnding, if_neg hn, if_neg heven]
      refine ⟨m, ?_⟩
      rw [Nat.pow_succ, ← Nat.mul_assoc, ← hm]
      omega

/-! ### The places of the ones -/

def ones (a : Word) : Finset Nat :=
  (Finset.range a.width).filter fun i => a.bit i = true

/-- There are no ones above the width. -/
@[simp] theorem mem_ones {i : Nat} : i ∈ a.ones ↔ a.bit i = true := by
  rw [ones, Finset.mem_filter, Finset.mem_range, and_iff_right_iff_imp]
  intro h
  by_contra hi
  rw [bit_of_width_le (not_lt.1 hi)] at h
  contradiction

theorem onesCount_eq_count (a : Word) :
    a.onesCount = Nat.count (fun i => a.bit i = true) a.width := by
  simp only [bit_eq_testBit]
  exact onesIn_eq_count a.value_lt

theorem onesCount_eq_card (a : Word) : a.onesCount = a.ones.card := by
  rw [onesCount_eq_count, Nat.count_eq_card_filter_range]
  rfl

theorem isGreatest_bit (h : a.value ≠ 0) : IsGreatest {i | a.bit i = true} a.value.log2 := by
  simp only [bit_eq_testBit]
  exact ⟨Nat.testBit_log2 h, fun i hi => (Nat.le_log2 h).2 (Nat.ge_two_pow_of_testBit hi)⟩

theorem isLeast_bit (h : a.value ≠ 0) : IsLeast {i | a.bit i = true} (zerosEnding a.value) := by
  obtain ⟨m, hm⟩ := exists_eq_odd_mul h
  have hbit (i : Nat) : a.bit i =
      (decide (zerosEnding a.value ≤ i) && (2 * m + 1).testBit (i - zerosEnding a.value)) := by
    rw [bit_eq_testBit, ← Nat.testBit_mul_two_pow, ← hm]
  simp only [hbit]
  refine ⟨by simp, fun i hi => ?_⟩
  exact of_decide_eq_true (Bool.and_eq_true_iff.1 hi).1

/-! ### Zeros at the two ends -/

theorem leadingZeros_eq (h : a.value ≠ 0) : a.leadingZeros = a.width - 1 - a.value.log2 := by
  rw [leadingZeros, bitLength, if_neg h, Nat.add_comm, Nat.sub_sub]

theorem trailingZeros_eq (h : a.value ≠ 0) : a.trailingZeros = zerosEnding a.value := by
  rw [trailingZeros, isZero, beq_eq_false_iff_ne.2 h]
  rfl

/-- Without its leading zeros a word begins with its highest one. -/
theorem exists_shiftLeft_leadingZeros (h : a.value ≠ 0) :
    ∃ c, a.shiftLeft a.leadingZeros = .ok c ∧ c.isNegative = true := by
  have hhigh : a.value.log2 < a.width := (Nat.log2_lt h).2 a.value_lt
  have htop : a.width - 1 < a.width := Nat.sub_one_lt a.width_pos.ne'
  have hbit := bit_shiftedLeft a a.leadingZeros htop
  rw [leadingZeros_eq h, if_neg (by omega), Nat.sub_sub_self (by omega),
    (isGreatest_bit h).1, bit_eq_testBit] at hbit
  exact ⟨_, shiftLeft_natCast a _, leadingZeros_eq h ▸ hbit⟩

/-- Without its trailing zeros a word is odd, and nothing but zeros was dropped. -/
theorem exists_shiftRight_trailingZeros (h : a.value ≠ 0) :
    ∃ c, a.shiftRight a.trailingZeros false = .ok c ∧ c.value % 2 = 1 ∧
      c.shiftLeft a.trailingZeros = .ok a := by
  obtain ⟨m, hm⟩ := exists_eq_odd_mul h
  have hvalue := value_shiftedRight a a.trailingZeros
  rw [trailingZeros_eq h] at hvalue ⊢
  have hodd : a.value / 2 ^ zerosEnding a.value = 2 * m + 1 := by
    rw [Nat.div_eq_iff_eq_mul_left (Nat.two_pow_pos _) (Dvd.intro_left _ hm.symm)]
    exact hm
  refine ⟨_, shiftRight_natCast a _ false, by omega, ?_⟩
  have hback : ((2 * m + 1 : Nat) : Int) * 2 ^ zerosEnding a.value = a.value := by
    exact_mod_cast hm.symm
  rw [shiftLeft_natCast, hvalue, hodd, hback]
  exact congrArg _ (wrap_value a)

/-! ### Complements, rotations and concatenations -/

theorem bit_not (a : Word) {i : Nat} (hi : i < a.width) : a.not.bit i = !a.bit i := by
  rw [not, withValue_eq_wrap, bit_wrap_natCast _ hi, Nat.testBit_xor, Nat.testBit_two_pow_sub_one,
    decide_eq_true hi, Bool.xor_true, bit_eq_testBit]

theorem onesCount_add_onesCount_not (a : Word) : a.onesCount + a.not.onesCount = a.width := by
  have hnot : a.not.ones = (Finset.range a.width).filter fun i => ¬a.bit i = true := by
    refine Finset.filter_congr fun i hi => ?_
    rw [bit_not a (Finset.mem_range.1 hi), Bool.not_eq_true', Bool.not_eq_true]
  rw [onesCount_eq_card, onesCount_eq_card, hnot, ones, Finset.card_filter_add_card_filter_not,
    Finset.card_range]

theorem lt_width_of_mem_ones {i : Nat} (h : i ∈ a.ones) : i < a.width :=
  Finset.mem_range.1 (Finset.mem_filter.1 h).1

/-- The ones of a rotated word come from different ones of the word. -/
theorem onesCount_rotate_le (a : Word) (distance : Int) :
    (a.rotate distance).onesCount ≤ a.onesCount := by
  have hpos : (0 : Int) < a.width := Int.natCast_pos.2 a.width_pos
  have hplace : ∀ i ∈ (a.rotate distance).ones, i < a.width := fun i => lt_width_of_mem_ones
  rw [onesCount_eq_card, onesCount_eq_card]
  refine Finset.card_le_card_of_injOn (fun i => ((i - distance : Int) % a.width).toNat)
    (fun i hi => ?_) fun i hi j hj hsame => ?_
  · have hbit := mem_ones.1 hi
    rw [bit_rotate a distance (hplace i hi)] at hbit
    exact mem_ones.2 hbit
  · have hsource : (i - distance : Int) % a.width = (j - distance : Int) % a.width := by
      have hi' := Int.emod_nonneg (i - distance) hpos.ne'
      have hj' := Int.emod_nonneg (j - distance) hpos.ne'
      have hsame' : ((i - distance : Int) % a.width).toNat =
          ((j - distance : Int) % a.width).toNat := hsame
      omega
    have hclass : (i : Int) ≡ j [ZMOD a.width] := Int.ModEq.add_right_cancel' (-distance) hsource
    exact (Int.natCast_modEq_iff.1 hclass).eq_of_lt_of_lt (hplace i hi) (hplace j hj)

/-- What one rotation lost the rotation back would gain. -/
theorem onesCount_rotate (a : Word) (distance : Int) :
    (a.rotate distance).onesCount = a.onesCount := by
  refine (onesCount_rotate_le a distance).antisymm ?_
  have hback := onesCount_rotate_le (a.rotate distance) (-distance)
  rwa [rotate_rotate, add_neg_cancel, rotate_zero] at hback

theorem onesCount_beside (x y : Word) :
    (x.beside y).onesCount = x.onesCount + y.onesCount := by
  have hlow : ∀ i < y.width, (x.beside y).bit i = true ↔ y.bit i = true := fun i hi => by
    rw [bit_beside x y (Nat.lt_add_left _ hi), if_pos hi]
  have hhigh : ∀ i < x.width, (x.beside y).bit (i + y.width) = true ↔ x.bit i = true :=
    fun i hi => by
      rw [bit_beside x y (Nat.add_lt_add_right hi _), if_neg (by omega), Nat.add_sub_cancel]
  rw [onesCount_eq_count, onesCount_eq_count, onesCount_eq_count, width_beside, Nat.count_add',
    count_congr hlow, count_congr hhigh]

/-- The ones of a word are counted in the places that hold them, its zeros in front and at the end
up to the greatest and the least of these. What the complement, a rotation or a concatenation
makes of these places is found in the counts. Shifting out the zeros at one end brings the one
next to them to the end. -/
theorem bits_counted (a b : Word) :
    (a.onesCount = ((Finset.range a.width).filter fun i => a.bit i = true).card ∧
      a.onesCount + a.not.onesCount = a.width ∧
      (∀ k : Nat, (a.rotateLeft k).map onesCount = .ok a.onesCount ∧
        (a.rotateRight k).map onesCount = .ok a.onesCount) ∧
      ∀ c, a.concat b = .ok c → c.onesCount = a.onesCount + b.onesCount) ∧
    (a.isZero = true → a.leadingZeros = a.width ∧ a.trailingZeros = a.width) ∧
    (a.isZero = false →
      (∃ high low, IsGreatest {i | a.bit i = true} high ∧ IsLeast {i | a.bit i = true} low ∧
        a.leadingZeros = a.width - 1 - high ∧ a.trailingZeros = low) ∧
      (∃ c, a.shiftLeft a.leadingZeros = .ok c ∧ c.isNegative = true) ∧
      ∃ c, a.shiftRight a.trailingZeros false = .ok c ∧ c.value % 2 = 1 ∧
        c.shiftLeft a.trailingZeros = .ok a) := by
  refine ⟨⟨onesCount_eq_card a, onesCount_add_onesCount_not a, fun k => ?_, fun c hc => ?_⟩,
    fun h => ?_, fun h => ?_⟩
  · rw [rotateLeft_natCast, rotateRight_natCast, Except.map, Except.map, onesCount_rotate,
      onesCount_rotate]
    exact ⟨rfl, rfl⟩
  · obtain ⟨-, rfl⟩ := concat_eq_ok_iff.1 hc
    exact onesCount_beside a b
  · rw [trailingZeros, if_pos h, leadingZeros, beq_iff_eq.1 h]
    exact ⟨rfl, rfl⟩
  · have hvalue : a.value ≠ 0 := beq_eq_false_iff_ne.1 h
    exact ⟨⟨_, _, isGreatest_bit hvalue, isLeast_bit hvalue, leadingZeros_eq hvalue,
      trailingZeros_eq hvalue⟩, exists_shiftLeft_leadingZeros hvalue,
      exists_shiftRight_trailingZeros hvalue⟩

/-- Three ones between two zeros at either end, joined with zeros and turned by more than the whole
width. -/
theorem bits_counted_of_eight_bits :
    let a := wrap 8 (by decide) 0b00101100
    let zero := wrap 5 (by decide) 0
    a.concat zero = .ok (a.beside zero) ∧ zero.isZero = true ∧ a.isZero = false ∧
      a.onesCount = 3 ∧ 3 + a.not.onesCount = 8 ∧ (a.rotateLeft (11 : Nat)).map onesCount = .ok 3 ∧
      (a.beside zero).onesCount = 3 + 0 ∧ zero.leadingZeros = 5 ∧ zero.trailingZeros = 5 ∧
      (∃ high, IsGreatest {i | a.bit i = true} high ∧ a.leadingZeros = 8 - 1 - high) ∧
      (∃ c, a.shiftLeft (2 : Nat) = .ok c ∧ c.isNegative = true) ∧
      ∃ c, a.shiftRight (2 : Nat) false = .ok c ∧ c.value % 2 = 1 ∧
        c.shiftLeft (2 : Nat) = .ok a := by
  intro a zero
  have hconcat : a.concat zero = .ok (a.beside zero) := by decide
  have hzero : zero.isZero = true := by decide
  have hne : a.isZero = false := by decide
  have hcount : a.onesCount = 3 := by cbv
  have hnone : zero.onesCount = 0 := by cbv
  have hleading : a.leadingZeros = 2 := by decide
  have htrailing : a.trailingZeros = 2 := by cbv
  obtain ⟨⟨-, hnot, hrotate, hjoined⟩, -, hends⟩ := bits_counted a zero
  obtain ⟨⟨high, _, hhigh, -, hfront, -⟩, hleft, hright⟩ := hends hne
  obtain ⟨hfull, hfull'⟩ := (bits_counted zero a).2.1 hzero
  have hsum := hjoined _ hconcat
  have hturned := (hrotate 11).1
  rw [hcount] at hnot hturned hsum
  rw [hnone] at hsum
  rw [hleading] at hleft
  rw [htrailing] at hright
  exact ⟨hconcat, hzero, hne, hcount, hnot, hturned, hsum, hfull, hfull', ⟨high, hhigh, hfront⟩,
    hleft, hright⟩

end ExactCalc.Word
