import ExactCalc.Proofs.Word.Residue

/-!
What a word stores, taken by itself: a width and a value, with no promise that the value fits the
width. Plain arithmetic forms a number from such pairs and reduces it once, when the result is
stored. This is the arithmetic that the operations on words are measured against.
-/

namespace ExactCalc.Word

/-- A width and a value that need not fit it. -/
structure Stored where
  width : Nat
  value : Nat

def stored (a : Word) : Stored := ⟨a.width, a.value⟩

namespace Stored

def InRange (s : Stored) : Prop :=
  0 < s.width ∧ s.value < 2 ^ s.width

/-- What is stored for a number: its least residue, provided that there are bits at all. -/
def ofNumber (width : Nat) (number : Int) : Option Stored :=
  if width = 0 then none else some ⟨width, (number % 2 ^ width).toNat⟩

/-- The signed reading is the residue nearest to zero. -/
def reading (s : Stored) (signed : Bool) : Int :=
  if signed then Int.bmod s.value (2 ^ s.width) else s.value

theorem width_of_ofNumber {width : Nat} {number : Int} {s : Stored}
    (h : ofNumber width number = some s) : s.width = width := by
  rw [ofNumber] at h
  split at h
  · contradiction
  · rw [← Option.some.inj h]

theorem inRange_of_ofNumber {width : Nat} {number : Int} {s : Stored}
    (h : ofNumber width number = some s) : s.InRange := by
  rw [ofNumber] at h
  split at h
  · contradiction
  · next hwidth =>
    obtain rfl := Option.some.inj h
    have hpow : (0 : Int) < 2 ^ width := Int.pow_pos (by decide)
    have hlow := Int.emod_nonneg number hpow.ne'
    have hhigh := Int.emod_lt_of_pos number hpow
    refine ⟨Nat.pos_of_ne_zero hwidth, Int.ofNat_lt.1 ?_⟩
    show ((number % 2 ^ width).toNat : Int) < ((2 ^ width : Nat) : Int)
    rw [Int.toNat_of_nonneg hlow, natCast_two_pow]
    exact hhigh

/-- Numbers of one class are stored alike. -/
theorem ofNumber_congr {width : Nat} {x y : Int} (h : x ≡ y [ZMOD 2 ^ width]) :
    ofNumber width x = ofNumber width y := by
  have hmod : x % 2 ^ width = y % 2 ^ width := h
  rw [ofNumber, ofNumber, hmod]

end Stored

open Stored

@[simp] theorem width_stored (a : Word) : a.stored.width = a.width := rfl

@[simp] theorem value_stored (a : Word) : a.stored.value = a.value := rfl

@[simp] theorem reading_stored (a : Word) (signed : Bool) :
    a.stored.reading signed = a.reading signed := by
  cases signed
  · rfl
  · exact (toInt_eq_bmod a).symm

theorem stored_wrap {width : Nat} (hwidth : 0 < width) (i : Int) :
    some (wrap width hwidth i).stored = ofNumber width i := by
  rw [ofNumber, if_neg (Nat.pos_iff_ne_zero.1 hwidth), ← value_wrap width hwidth]
  rfl

theorem stored_withInt (a : Word) (i : Int) : some (a.withInt i).stored = ofNumber a.width i :=
  stored_wrap a.width_pos i

theorem stored_withValue (a : Word) (n : Nat) :
    some (a.withValue n).stored = ofNumber a.width n := by
  rw [withValue_eq_wrap, stored_wrap]

/-- A word stores either of its readings. -/
theorem stored_eq_ofNumber (a : Word) (signed : Bool) :
    some a.stored = ofNumber a.width (a.reading signed) := by
  rw [← stored_wrap a.width_pos, wrap_reading]

theorem stored_ofInt (width : Nat) (i : Int) :
    (ofInt width i).toOption.map stored = ofNumber width i := by
  by_cases hwidth : 0 < width
  · rw [ofInt_of_pos hwidth, ← stored_wrap hwidth]
    rfl
  · obtain rfl : width = 0 := Nat.eq_zero_of_not_pos hwidth
    rfl

theorem stored_ofNat (width n : Nat) :
    (ofNat width n).toOption.map stored = ofNumber width n := by
  have hsame : ofNat width n = ofInt width n := by
    simp only [ofNat, ofInt, truncate_eq_wrap]
  rw [hsame, stored_ofInt]

theorem stored_injective : Function.Injective stored := by
  intro a b h
  exact ext (congrArg Stored.width h) (congrArg Stored.value h)

/-- A result that stores a number is the word of that number. -/
theorem eq_ok_wrap_of_stored {result : Except Fault Word} {width : Nat} {i : Int}
    (hwidth : 0 < width) (h : result.toOption.map stored = ofNumber width i) :
    result = .ok (wrap width hwidth i) := by
  rw [← stored_wrap hwidth] at h
  cases result with
  | error fault => contradiction
  | ok a => rw [stored_injective (Option.some.inj h)]

/-- An operation on two words of one width stores what it forms at that width. -/
theorem stored_matching {a b c : Word} {number : Int}
    (h : a.width = b.width → some c.stored = ofNumber a.width number) :
    (do matching a b; return c).toOption.map stored =
      if a.width = b.width then ofNumber a.width number else none := by
  rw [matching]
  split
  · next hwidth =>
    rw [← h hwidth]
    rfl
  · rfl

theorem stored_divisible {a b c : Word} {number : Int}
    (h : some c.stored = ofNumber a.width number) :
    (do divisible a b; return c).toOption.map stored =
      if a.width = b.width ∧ b.value ≠ 0 then ofNumber a.width number else none := by
  split
  · next hboth =>
    rw [divisible_eq_ok_iff.2 hboth, ← h]
    rfl
  · next hnot =>
    cases hres : divisible a b with
    | error fault => rfl
    | ok _ => exact absurd (divisible_eq_ok_iff.1 hres) hnot

end ExactCalc.Word
