import ExactCalc.Word.Arith
import Mathlib.Data.Int.ModEq

/-!
Words as residues. A word of a width stands for the integers of one class modulo `2 ^ width`: its
value is the least natural number of the class and its signed reading the representative of the
class that is nearest to zero. Integers are wrapped by a ring homomorphism, whichever of the two
ways to fill a word an operation takes.
-/

namespace ExactCalc.Word

variable {width : Nat} {hwidth : 0 < width}

theorem two_pow_pred (hwidth : 0 < width) : (2 : Int) ^ width = 2 * 2 ^ (width - 1) := by
  obtain ⟨n, rfl⟩ := Nat.exists_eq_succ_of_ne_zero (Nat.pos_iff_ne_zero.1 hwidth)
  rw [Nat.succ_sub_one, Int.pow_succ, Int.mul_comm]

/-! ### One class for each word -/

theorem value_wrap_modEq (i : Int) :
    ((wrap width hwidth i).value : Int) ≡ i [ZMOD 2 ^ width] := by
  rw [value_wrap]
  exact Int.mod_modEq i _

theorem value_lt_two_pow (a : Word) : (a.value : Int) < 2 ^ a.width := by
  rw [← natCast_two_pow]
  exact Int.ofNat_lt.2 a.value_lt

/-- Two integers give the same word exactly if they are of one class. -/
theorem wrap_eq_wrap_iff {x y : Int} :
    wrap width hwidth x = wrap width hwidth y ↔ x ≡ y [ZMOD 2 ^ width] := by
  constructor
  · intro h
    have hvalue := congrArg (fun a : Word => (a.value : Int)) h
    simp only [value_wrap] at hvalue
    exact hvalue
  · intro h
    have hvalue : ((wrap width hwidth x).value : Int) = (wrap width hwidth y).value := by
      rw [value_wrap, value_wrap]
      exact h
    exact ext rfl (Int.ofNat_inj.1 hvalue)

/-- Filling a word by the magnitude or in two's complement makes no difference to a natural
number. -/
theorem truncate_eq_wrap (n : Nat) : truncate width hwidth n = wrap width hwidth n := by
  refine ext rfl (Int.ofNat_inj.1 ?_)
  rw [value_wrap, value_truncate, Int.natCast_emod, natCast_two_pow]

theorem value_wrap_natCast (n : Nat) : (wrap width hwidth n).value = n % 2 ^ width := by
  rw [← truncate_eq_wrap, value_truncate]

/-- A number that fits is kept. -/
theorem value_wrap_of_lt {width n : Nat} (hwidth : 0 < width) (h : n < 2 ^ width) :
    (wrap width hwidth n).value = n := by
  rw [value_wrap_natCast]
  exact Nat.mod_eq_of_lt h

theorem eq_wrap_of_modEq {a : Word} {i : Int} (h : (a.value : Int) ≡ i [ZMOD 2 ^ a.width]) :
    a = wrap a.width a.width_pos i := by
  refine ext rfl (Int.ofNat_inj.1 ?_)
  have hvalue : (a.value : Int) % 2 ^ a.width = a.value :=
    Int.emod_eq_of_lt (Int.natCast_nonneg _) (value_lt_two_pow a)
  rw [value_wrap, ← hvalue]
  exact h

theorem eq_wrap_iff {a : Word} {i : Int} :
    a = wrap width hwidth i ↔ a.width = width ∧ (a.value : Int) = i % 2 ^ width := by
  constructor
  · rintro rfl
    exact ⟨rfl, value_wrap width hwidth i⟩
  · rintro ⟨rfl, hvalue⟩
    refine eq_wrap_of_modEq ?_
    rw [hvalue]
    exact Int.mod_modEq i _

@[simp] theorem wrap_value (a : Word) : wrap a.width a.width_pos a.value = a :=
  (eq_wrap_of_modEq rfl).symm

theorem withValue_eq_wrap (a : Word) (n : Nat) :
    a.withValue n = wrap a.width a.width_pos n :=
  truncate_eq_wrap n

/-! ### The signed reading -/

theorem isNegative_iff (a : Word) : a.isNegative = true ↔ (2 : Int) ^ (a.width - 1) ≤ a.value := by
  have hlt : a.value < 2 * 2 ^ (a.width - 1) := by
    have h := value_lt_two_pow a
    rw [two_pow_pred a.width_pos, ← natCast_two_pow] at h
    omega
  rw [isNegative, Nat.testBit_eq_decide_div_mod_eq, decide_eq_true_iff, ← natCast_two_pow,
    Int.ofNat_le]
  have hpos := Nat.two_pow_pos (a.width - 1)
  constructor
  · intro h
    by_contra hsmall
    rw [Nat.div_eq_of_lt (Nat.lt_of_not_le hsmall)] at h
    simp at h
  · intro h
    have hquot : a.value / 2 ^ (a.width - 1) = 1 :=
      Nat.div_eq_of_lt_le (by omega) (by omega)
    rw [hquot]

theorem toInt_modEq_value (a : Word) : a.toInt ≡ a.value [ZMOD 2 ^ a.width] := by
  rw [toInt]
  split
  · exact Int.modEq_iff_dvd.2 ⟨1, by omega⟩
  · rfl

/-- The signed reading lies between minus half the modulus and half of it. -/
theorem toInt_bounds (a : Word) :
    -2 ^ (a.width - 1) ≤ a.toInt ∧ a.toInt < 2 ^ (a.width - 1) := by
  have hpow := two_pow_pred a.width_pos
  have hlt := value_lt_two_pow a
  have hsign := isNegative_iff a
  rw [toInt]
  split
  · next h =>
    have := hsign.1 h
    omega
  · next h =>
    have := mt hsign.2 h
    omega

@[simp] theorem wrap_toInt (a : Word) : wrap a.width a.width_pos a.toInt = a :=
  (eq_wrap_of_modEq (toInt_modEq_value a).symm).symm

theorem wrap_reading (a : Word) (signed : Bool) :
    wrap a.width a.width_pos (a.reading signed) = a := by
  cases signed
  · exact wrap_value a
  · exact wrap_toInt a

/-- The bounds determine the signed reading within its class. -/
theorem toInt_eq_of_bounds {a : Word} {i : Int} (hclass : a.toInt ≡ i [ZMOD 2 ^ a.width])
    (hlow : -2 ^ (a.width - 1) ≤ i) (hhigh : i < 2 ^ (a.width - 1)) : a.toInt = i := by
  obtain ⟨hlow', hhigh'⟩ := toInt_bounds a
  have hpow := two_pow_pred a.width_pos
  obtain ⟨k, hk⟩ := hclass.dvd
  -- Both lie in one range as long as the modulus, so they cannot be a multiple of it apart.
  have hsmall : k = 0 := by
    by_contra hne
    rcases Int.lt_or_gt_of_ne hne with hneg | hpos
    · have : (2 : Int) ^ a.width * k ≤ 2 ^ a.width * (-1) :=
        Int.mul_le_mul_of_nonneg_left (by omega) (by omega)
      omega
    · have : (2 : Int) ^ a.width * 1 ≤ 2 ^ a.width * k :=
        Int.mul_le_mul_of_nonneg_left (by omega) (by omega)
      omega
  subst hsmall
  omega

theorem toInt_wrap_modEq (i : Int) : (wrap width hwidth i).toInt ≡ i [ZMOD 2 ^ width] :=
  (toInt_modEq_value (wrap width hwidth i)).trans (value_wrap_modEq i)

theorem reading_wrap_modEq (i : Int) (signed : Bool) :
    (wrap width hwidth i).reading signed ≡ i [ZMOD 2 ^ width] := by
  cases signed
  · exact value_wrap_modEq i
  · exact toInt_wrap_modEq i

theorem toInt_wrap_eq_iff {i : Int} :
    (wrap width hwidth i).toInt = i ↔ -2 ^ (width - 1) ≤ i ∧ i < 2 ^ (width - 1) := by
  constructor
  · intro h
    have hbounds := toInt_bounds (wrap width hwidth i)
    rwa [h] at hbounds
  · rintro ⟨hlow, hhigh⟩
    exact toInt_eq_of_bounds (toInt_wrap_modEq i) hlow hhigh

theorem toInt_eq_bmod (a : Word) : a.toInt = Int.bmod a.value (2 ^ a.width) := by
  have hpow := two_pow_pred a.width_pos
  have hpos : (0 : Int) < 2 ^ (a.width - 1) := Int.pow_pos (by decide)
  refine toInt_eq_of_bounds ?_ ?_ ?_
  · refine (toInt_modEq_value a).trans ?_
    rw [← natCast_two_pow]
    exact Int.bmod_emod.symm
  · have := Int.le_bmod (x := a.value) (m := 2 ^ a.width) (Nat.two_pow_pos _)
    rw [natCast_two_pow] at this
    omega
  · have := Int.bmod_lt (x := a.value) (m := 2 ^ a.width) (Nat.two_pow_pos _)
    rw [natCast_two_pow] at this
    omega

/-! ### The ring of residues -/

theorem bind_matching {α : Type} {a b : Word} (h : a.width = b.width)
    (next : Unit → Except Fault α) : (matching a b >>= next) = next () := by
  rw [matching_eq_ok_iff.2 h]
  rfl

theorem bind_divisible {α : Type} {a b : Word} (hwidth : a.width = b.width)
    (hdivisor : b.value ≠ 0) (next : Unit → Except Fault α) :
    (divisible a b >>= next) = next () := by
  rw [divisible_eq_ok_iff.2 ⟨hwidth, hdivisor⟩]
  rfl

theorem ofInt_of_pos (hwidth : 0 < width) (i : Int) :
    ofInt width i = .ok (wrap width hwidth i) :=
  dif_pos hwidth

theorem ofNat_of_pos (hwidth : 0 < width) (n : Nat) :
    ofNat width n = .ok (truncate width hwidth n) :=
  dif_pos hwidth

/-- Addition masks the sum of two magnitudes. -/
theorem add_of_width_eq {a b : Word} (h : a.width = b.width) :
    a.add b = .ok (wrap a.width a.width_pos (a.value + b.value)) := by
  rw [add, bind_matching h, withValue_eq_wrap, Int.natCast_add]
  rfl

/-- Subtraction goes through a difference that may be negative. -/
theorem sub_of_width_eq {a b : Word} (h : a.width = b.width) :
    a.sub b = .ok (wrap a.width a.width_pos (a.value - b.value)) := by
  rw [sub, bind_matching h]
  rfl

theorem mul_of_width_eq {a b : Word} (h : a.width = b.width) :
    a.mul b = .ok (wrap a.width a.width_pos (a.value * b.value)) := by
  rw [mul, bind_matching h, withValue_eq_wrap, Int.natCast_mul]
  rfl

theorem add_wrap (x y : Int) :
    (wrap width hwidth x).add (wrap width hwidth y) = .ok (wrap width hwidth (x + y)) := by
  have hsame : (wrap width hwidth x).width = (wrap width hwidth y).width := rfl
  rw [add_of_width_eq hsame]
  exact congrArg _ (wrap_eq_wrap_iff.2 ((value_wrap_modEq x).add (value_wrap_modEq y)))

theorem sub_wrap (x y : Int) :
    (wrap width hwidth x).sub (wrap width hwidth y) = .ok (wrap width hwidth (x - y)) := by
  have hsame : (wrap width hwidth x).width = (wrap width hwidth y).width := rfl
  rw [sub_of_width_eq hsame]
  exact congrArg _ (wrap_eq_wrap_iff.2 ((value_wrap_modEq x).sub (value_wrap_modEq y)))

theorem mul_wrap (x y : Int) :
    (wrap width hwidth x).mul (wrap width hwidth y) = .ok (wrap width hwidth (x * y)) := by
  have hsame : (wrap width hwidth x).width = (wrap width hwidth y).width := rfl
  rw [mul_of_width_eq hsame]
  exact congrArg _ (wrap_eq_wrap_iff.2 ((value_wrap_modEq x).mul (value_wrap_modEq y)))

theorem neg_wrap (x : Int) : (wrap width hwidth x).neg = wrap width hwidth (-x) :=
  wrap_eq_wrap_iff.2 (value_wrap_modEq x).neg

/-- Making words from integers is a ring homomorphism onto the residues modulo `2 ^ width`, and
each reading of a word makes the word again. -/
theorem ofInt_residues (hwidth : 0 < width) (x y : Int) :
    ∃ a b : Word, ofInt width x = .ok a ∧ ofInt width y = .ok b ∧
      a.width = width ∧ (a.value : Int) = x % 2 ^ width ∧
      (a = b ↔ x ≡ y [ZMOD 2 ^ width]) ∧
      a.add b = ofInt width (x + y) ∧ a.sub b = ofInt width (x - y) ∧
      a.mul b = ofInt width (x * y) ∧ ofInt width (-x) = .ok a.neg ∧
      (a.toInt = x ↔ -2 ^ (width - 1) ≤ x ∧ x < 2 ^ (width - 1)) ∧
      ∀ c : Word, ofInt c.width c.toInt = .ok c ∧ ofInt c.width c.value = .ok c := by
  refine ⟨wrap width hwidth x, wrap width hwidth y, ofInt_of_pos hwidth x, ofInt_of_pos hwidth y,
    rfl, value_wrap width hwidth x, wrap_eq_wrap_iff, ?_, ?_, ?_, ?_, toInt_wrap_eq_iff, ?_⟩
  · rw [add_wrap, ofInt_of_pos hwidth]
  · rw [sub_wrap, ofInt_of_pos hwidth]
  · rw [mul_wrap, ofInt_of_pos hwidth]
  · rw [neg_wrap, ofInt_of_pos hwidth]
  · intro c
    rw [ofInt_of_pos c.width_pos, ofInt_of_pos c.width_pos, wrap_toInt, wrap_value]
    exact ⟨rfl, rfl⟩

/-- One bit holds `-1` but not `1`, and `1 + 1` is zero there. -/
theorem ofInt_residues_of_one_bit :
    0 < 1 ∧ ∃ a b : Word, ofInt 1 (-1) = .ok a ∧ ofInt 1 1 = .ok b ∧
      a = b ∧ a.toInt = -1 ∧ a.add b = ofInt 1 0 := by
  obtain ⟨a, b, ha, hb, -, -, heq, hadd, -, -, -, htoInt, -⟩ :=
    ofInt_residues (show 0 < 1 by decide) (-1) 1
  exact ⟨by decide, a, b, ha, hb, heq.2 (by decide), htoInt.2 (by decide), hadd⟩

end ExactCalc.Word
