import ExactCalc.Proofs.Word.Operations
import Mathlib.Data.Nat.Bitwise

/-!
Logic beside arithmetic. A connective forms each bit from the two bits at its place, and a sum forms
it from those and a carry. So a sum is made of the bits without their carries and of the carries one
place up, and what two words have in common and what they have at all add up to it as well. The
complement counts down from `-1`.
-/

namespace ExactCalc.Word

variable {a b : Word} {x y : Int}

/-! ### Bits of natural numbers -/

/-- The bits that two numbers do not share, with a carry one place up for each bit that they do,
make up the sum. -/
theorem xor_add_two_mul_and (m n : Nat) : (m ^^^ n) + 2 * (m &&& n) = m + n := by
  induction m using Nat.binaryRec generalizing n with
  | zero => simp
  | bit bit m ih =>
      cases n using Nat.bitCasesOn with
      | bit bit' n =>
        have hrest := ih n
        rw [Nat.xor_bit, Nat.land_bit]
        simp only [Nat.bit_val]
        -- One place is a half adder, and the places above are those of the rest.
        have hplace : (bit != bit').toNat + 2 * (bit && bit').toNat = bit.toNat + bit'.toNat := by
          cases bit <;> cases bit' <;> rfl
        omega

/-- A bit that one of two numbers has is shared by both or not. -/
theorem xor_add_and (m n : Nat) : (m ^^^ n) + (m &&& n) = m ||| n := by
  induction m using Nat.binaryRec generalizing n with
  | zero => simp
  | bit bit m ih =>
      cases n using Nat.bitCasesOn with
      | bit bit' n =>
        have hrest := ih n
        rw [Nat.xor_bit, Nat.land_bit, Nat.lor_bit]
        simp only [Nat.bit_val]
        have hplace : (bit != bit').toNat + (bit && bit').toNat = (bit || bit').toNat := by
          cases bit <;> cases bit' <;> rfl
        omega

/-! ### Connectives -/

/-- The operations that form each bit from the two bits at its place. -/
inductive Connective where
  | and
  | or
  | xor

namespace Connective

def binary : Connective → Binary
  | and => .and
  | or => .or
  | xor => .xor

def truth : Connective → Bool → Bool → Bool
  | and => Bool.and
  | or => Bool.or
  | xor => Bool.xor

def onNat : Connective → Nat → Nat → Nat
  | and, m, n => m &&& n
  | or, m, n => m ||| n
  | xor, m, n => m ^^^ n

@[simp] theorem testBit_onNat (op : Connective) (m n i : Nat) :
    (op.onNat m n).testBit i = op.truth (m.testBit i) (n.testBit i) := by
  cases op with
  | and => exact Nat.testBit_and m n i
  | or => exact Nat.testBit_or m n i
  | xor => exact Nat.testBit_xor m n i

theorem onNat_lt_two_pow (op : Connective) {m n width : Nat} (hm : m < 2 ^ width)
    (hn : n < 2 ^ width) : op.onNat m n < 2 ^ width := by
  cases op with
  | and => exact Nat.and_lt_two_pow m hn
  | or => exact Nat.or_lt_two_pow hm hn
  | xor => exact Nat.xor_lt_two_pow hm hn

theorem apply_eq_wrap (op : Connective) (h : a.width = b.width) :
    op.binary.apply a b =
      .ok (wrap a.width a.width_pos (op.onNat a.value b.value : Nat)) := by
  rw [op.binary.apply_eq_wrap h]
  cases op <;> rfl

end Connective

/-- No bit of the result is cut off, so it is what the connective makes of the bits. -/
theorem Connective.value_apply (op : Connective) (h : a.width = b.width) :
    (wrap a.width a.width_pos (op.onNat a.value b.value : Nat)).value =
      op.onNat a.value b.value := by
  have hb : b.value < 2 ^ a.width := h ▸ b.value_lt
  exact value_wrap_of_lt a.width_pos (op.onNat_lt_two_pow a.value_lt hb)

/-! ### The complement -/

theorem not_eq_wrap (a : Word) : a.not = wrap a.width a.width_pos (-a.value - 1) :=
  stored_injective (Option.some.inj ((stored_not a).trans (stored_wrap a.width_pos _).symm))

/-- The complement mirrors the range of signed readings onto itself, so it is never cut off. -/
theorem toInt_not (a : Word) : a.not.toInt = -1 - a.toInt := by
  obtain ⟨hlow, hhigh⟩ := toInt_bounds a
  have hclass : a.not.toInt ≡ -1 - a.toInt [ZMOD 2 ^ a.width] := by
    have hvalue := (toInt_modEq_value a).symm.neg.sub_right 1
    rw [not_eq_wrap, show -1 - a.toInt = -a.toInt - 1 by omega]
    exact (toInt_wrap_modEq _).trans hvalue
  have hwidth : a.not.width = a.width := rfl
  refine toInt_eq_of_bounds hclass ?_ ?_ <;> rw [hwidth] <;> omega

/-! ### Sums of classes -/

theorem add_eq_wrap (hwidth : a.width = b.width) (hx : a.value ≡ x [ZMOD 2 ^ a.width])
    (hy : b.value ≡ y [ZMOD 2 ^ a.width]) :
    a.add b = .ok (wrap a.width a.width_pos (x + y)) := by
  rw [add_of_width_eq hwidth, wrap_eq_wrap_iff.2 (hx.add hy)]

/-- The word whose value is one. -/
theorem one_eq_wrap {width : Nat} (hwidth : 0 < width) :
    one width = .ok (wrap width hwidth 1) := by
  rw [one, ofNat_of_pos hwidth, truncate_eq_wrap]
  rfl

theorem shiftLeft_one_wrap {width : Nat} (hwidth : 0 < width) (i : Int) :
    (wrap width hwidth i).shiftLeft 1 = .ok (wrap width hwidth (2 * i)) := by
  rw [shiftLeft_eq_wrap (by decide), Int.mul_comm 2 i]
  exact congrArg _ (wrap_eq_wrap_iff.2 ((value_wrap_modEq i).mul_right 2))

/-! ### Arithmetic by logic -/

theorem not_add_one (a : Word) : a.not.add (wrap a.width a.width_pos 1) = .ok a.neg := by
  rw [not_eq_wrap, add_wrap, Int.sub_add_cancel]
  rfl

theorem add_not_add_one (h : a.width = b.width) :
    (a.add b.not >>= fun c => c.add (wrap a.width a.width_pos 1)) =
      .ok (wrap a.width a.width_pos (a.value - b.value)) := by
  have hnot : (b.not.value : Int) ≡ -b.value - 1 [ZMOD 2 ^ a.width] := by
    rw [not_eq_wrap, h]
    exact value_wrap_modEq _
  have hsame : a.width = b.not.width := h
  have hnumber : (a.value : Int) + (-b.value - 1) + 1 = a.value - b.value := by omega
  calc (a.add b.not >>= fun c => c.add (wrap a.width a.width_pos 1))
      = (wrap a.width a.width_pos (a.value + (-b.value - 1))).add (wrap a.width a.width_pos 1) := by
        rw [add_eq_wrap hsame (.refl _) hnot]
        rfl
    _ = .ok (wrap a.width a.width_pos (a.value - b.value)) := by rw [add_wrap, hnumber]

/-- The carry out of the highest place is lost on both sides. -/
theorem xor_add_carries {width : Nat} (hwidth : 0 < width) (m n : Nat) :
    ((wrap width hwidth (m &&& n : Nat)).shiftLeft 1 >>= fun carries =>
      (wrap width hwidth (m ^^^ n : Nat)).add carries) = .ok (wrap width hwidth (m + n)) := by
  have hnumber : ((m ^^^ n : Nat) : Int) + 2 * (m &&& n : Nat) = m + n := by
    exact_mod_cast xor_add_two_mul_and m n
  rw [shiftLeft_one_wrap, ← hnumber]
  exact add_wrap _ _

theorem and_add_or {width : Nat} (hwidth : 0 < width) (m n : Nat) :
    (wrap width hwidth (m &&& n : Nat)).add (wrap width hwidth (m ||| n : Nat)) =
      .ok (wrap width hwidth (m + n)) := by
  have hsum := xor_add_two_mul_and m n
  have hjoin := xor_add_and m n
  have hnumber : ((m &&& n : Nat) : Int) + (m ||| n : Nat) = m + n := by omega
  rw [add_wrap, hnumber]

theorem or_sub_and {width : Nat} (hwidth : 0 < width) (m n : Nat) :
    (wrap width hwidth (m ||| n : Nat)).sub (wrap width hwidth (m &&& n : Nat)) =
      .ok (wrap width hwidth (m ^^^ n : Nat)) := by
  have hjoin := xor_add_and m n
  have hnumber : ((m ||| n : Nat) : Int) - (m &&& n : Nat) = (m ^^^ n : Nat) := by omega
  rw [sub_wrap, hnumber]

/-- Negation and subtraction through the complement, the sum from the bits and their carries and
from what both words share and what either has, and the signed reading of the complement. -/
theorem logic_arithmetic (h : a.width = b.width) :
    ∃ unit meet join apart sum difference : Word,
      one a.width = .ok unit ∧ a.and b = .ok meet ∧ a.or b = .ok join ∧ a.xor b = .ok apart ∧
      a.add b = .ok sum ∧ a.sub b = .ok difference ∧
      a.not.add unit = .ok a.neg ∧
      (a.add b.not >>= fun c => c.add unit) = .ok difference ∧
      (meet.shiftLeft 1 >>= fun carries => apart.add carries) = .ok sum ∧
      meet.add join = .ok sum ∧ join.sub meet = .ok apart ∧
      a.not.toInt = -1 - a.toInt := by
  exact ⟨_, _, _, _, _, _, one_eq_wrap a.width_pos, Connective.and.apply_eq_wrap h,
    Connective.or.apply_eq_wrap h, Connective.xor.apply_eq_wrap h, add_of_width_eq h,
    sub_of_width_eq h, not_add_one a, add_not_add_one h, xor_add_carries a.width_pos _ _,
    and_add_or a.width_pos _ _, or_sub_and a.width_pos _ _, toInt_not a⟩

/-- In one bit the carry of `1 + 1` is shifted out, and nothing is left of the sum. -/
theorem logic_arithmetic_of_one_bit :
    let a := wrap 1 (by decide) 1
    a.width = a.width ∧
      ∃ meet apart sum : Word, a.and a = .ok meet ∧ a.xor a = .ok apart ∧ a.add a = .ok sum ∧
        meet.value = 1 ∧ sum.value = 0 ∧
        (meet.shiftLeft 1 >>= fun carries => apart.add carries) = .ok sum ∧
        a.not.toInt = -1 - a.toInt := by
  intro a
  obtain ⟨-, meet, -, apart, sum, -, -, hmeet, -, hapart, hsum, -, -, -, hcarries, -, -, hnot⟩ :=
    logic_arithmetic (a := a) (b := a) rfl
  refine ⟨rfl, meet, apart, sum, hmeet, hapart, hsum, ?_, ?_, hcarries, hnot⟩
  · rw [← Except.ok.inj hmeet]
    decide
  · rw [← Except.ok.inj hsum]
    decide

end ExactCalc.Word
