import ExactCalc.Proofs.Word.Division
import ExactCalc.Proofs.Word.Operations

/-!
The operations on words as they are computed from what words store, with every step checked that
could leave its range: differences of natural numbers, divisors, and numbers that are kept in 32
bits. A stored pair may have any width and any value, so such a step can fail. On what words of at
most the greatest width store it never does, and each operation gives what it gives on the words
themselves, or refuses as it does there.
-/

namespace ExactCalc.Word

open Stored

variable {a b : Word} {width m n : Nat} {α β : Type}

/-- Why a run of checked steps ends early: a call refuses what it is given, something does not read
as a word, or a number leaves its range. -/
inductive Stop where
  | refused (fault : Fault)
  | unread
  | outOfRange

abbrev Checked (α : Type) := Except Stop α

/-- A run that ends early only where a call refuses. -/
def outcome (result : Except Fault α) : Checked α :=
  result.mapError .refused

/-! ### Steps -/

namespace Checked

def minus (m n : Nat) : Checked Nat :=
  if n ≤ m then .ok (m - n) else .error .outOfRange

def divisor [Zero α] [DecidableEq α] (d : α) : Checked α :=
  if d = 0 then .error .outOfRange else .ok d

/-- A number that is kept in 32 bits. -/
def narrow (n : Nat) : Checked Nat :=
  if n ≤ maxWidth then .ok n else .error .outOfRange

def mask (width : Nat) : Checked Nat :=
  minus (2 ^ width) 1

def lowBits (width n : Nat) : Checked Nat := do
  if bitLength n ≤ width then return n else return n &&& (← mask width)

def lowBitsInt (width : Nat) (i : Int) : Checked Nat := do
  let magnitude ← lowBits width i.natAbs
  if i < 0 ∧ magnitude ≠ 0 then minus (2 ^ width) magnitude else return magnitude

/-- What is stored for a natural number. -/
def fill (width n : Nat) : Checked Stored := do
  return ⟨width, ← lowBits width n⟩

def fillInt (width : Nat) (i : Int) : Checked Stored := do
  return ⟨width, ← lowBitsInt width i⟩

def isNegative (s : Stored) : Checked Bool := do
  return s.value.testBit (← minus s.width 1)

def toInt (s : Stored) : Checked Int := do
  if s.width = 0 then return s.value
  else if s.value.testBit (← minus s.width 1) then
    return -((← minus (2 ^ s.width) s.value : Nat) : Int)
  else return s.value

def reading (s : Stored) (signed : Bool) : Checked Int := do
  if signed then toInt s else return s.value

def onesCount (s : Stored) : Checked Nat :=
  narrow (onesIn s.value)

def leadingZeros (s : Stored) : Checked Nat := do
  minus s.width (← narrow (bitLength s.value))

def trailingZeros (s : Stored) : Checked Nat :=
  if s.value = 0 then .ok s.width else narrow (zerosEnding s.value)

def matching (s t : Stored) : Checked Unit :=
  if s.width = t.width then .ok () else .error (.refused (.widthMismatch s.width t.width))

def divisible (s t : Stored) : Checked Unit := do
  matching s t
  if t.value = 0 then throw (.refused (.zeroWordDivisor s.width))

def nonEmpty (width : Nat) : Checked Unit :=
  if width = 0 then .error (.refused .emptyWidth) else .ok ()

def ofNat (width n : Nat) : Checked Stored := do
  nonEmpty width
  fill width n

def ofInt (width : Nat) (i : Int) : Checked Stored := do
  nonEmpty width
  fillInt width i

def order (s t : Stored) (signed : Bool) : Checked Ordering := do
  matching s t
  return compare (← reading s signed) (← reading t signed)

def combine (s t : Stored) (n : Nat) : Checked Stored := do
  matching s t
  fill s.width n

def divide (s t : Stored) (f : Nat → Nat → Nat) : Checked Stored := do
  divisible s t
  fill s.width (f s.value (← divisor t.value))

def divideSigned (s t : Stored) (f : Int → Int → Int) : Checked Stored := do
  divisible s t
  fillInt s.width (f (← toInt s) (← divisor (← toInt t)))

def udivRem (s t : Stored) : Checked (Stored × Stored) := do
  divisible s t
  let d ← divisor t.value
  return (← fill s.width (s.value / d), ← fill s.width (s.value % d))

/-- A rotation, which joins what is moved by the amount and what is moved the other way by the rest
of the width. -/
def turn (s : Stored) (distance : Int) (join : Nat → Nat → Nat) : Checked Stored := do
  let count := (← outcome (amount .rotation distance)) % (← divisor s.width)
  if count = 0 then return s else fill s.width (join count (← minus s.width count))

def concat (high low : Stored) : Checked Stored := do
  let width ← outcome (widened high.width low.width)
  fill width (high.value <<< low.width ||| low.value)

def unary : Unary → Stored → Checked Stored
  | .neg, s => fillInt s.width (-s.value)
  | .not, s => do fill s.width (s.value ^^^ (← mask s.width))
  | .shiftLeft distance, s => do
      let count ← outcome (amount .shift distance)
      if s.width ≤ count then fill s.width 0 else fill s.width (s.value <<< count)
  | .shiftRight distance signed, s => do
      let count ← outcome (amount .shift distance)
      if signed then fillInt s.width ((← toInt s) >>> min count s.width)
      else if s.width ≤ count then fill s.width 0
      else fill s.width (s.value >>> count)
  | .rotateLeft distance, s =>
      turn s distance fun count rest => s.value <<< count ||| s.value >>> rest
  | .rotateRight distance, s =>
      turn s distance fun count rest => s.value >>> count ||| s.value <<< rest
  | .extract high low, s => do
      if s.width ≤ high then throw (.refused (.highBitOutOfRange high s.width))
      else if high < low then throw (.refused (.lowBitAboveHigh low high))
      else fill (← narrow ((← minus high low) + 1)) (s.value >>> low)
  | .extend extra false, s => do
      let width ← outcome (widened s.width extra)
      fill width s.value
  | .extend extra true, s => do
      let width ← outcome (widened s.width extra)
      fillInt width (← toInt s)
  | .resize width false, s => ofNat width s.value
  | .resize width true, s => do
      nonEmpty width
      if width ≤ s.width then fill width s.value else fillInt width (← toInt s)
  | .replicate count, s => do
      if count = 0 then throw (.refused .noRepeats)
      else if s.width * count ≤ maxWidth then
        fill (s.width * count) (repeated s.width s.value count)
      else throw (.refused (.widthProductTooLarge s.width count))

def binary : Binary → Stored → Stored → Checked Stored
  | .add, s, t => combine s t (s.value + t.value)
  | .sub, s, t => do
      matching s t
      fillInt s.width (s.value - t.value)
  | .mul, s, t => combine s t (s.value * t.value)
  | .and, s, t => combine s t (s.value &&& t.value)
  | .or, s, t => combine s t (s.value ||| t.value)
  | .xor, s, t => combine s t (s.value ^^^ t.value)
  | .least signed, s, t => do return if (← order s t signed).isLE then s else t
  | .greatest signed, s, t => do return if (← order s t signed).isGE then s else t

def division : Division → Stored → Stored → Checked Stored
  | .udiv, s, t => divide s t (· / ·)
  | .urem, s, t => divide s t (· % ·)
  | .quotient, s, t => do return (← udivRem s t).1
  | .remainder, s, t => do return (← udivRem s t).2
  | .sdiv, s, t => divideSigned s t Int.tdiv
  | .srem, s, t => divideSigned s t Int.tmod
  | .smod, s, t => divideSigned s t floorRemainder

/-! ### Steps that stay in their range -/

theorem bind_ok (x : α) (f : α → Checked β) : (.ok x >>= f) = f x := rfl

theorem minus_of_le (h : n ≤ m) : minus m n = .ok (m - n) :=
  if_pos h

theorem divisor_of_ne [Zero α] [DecidableEq α] {d : α} (h : d ≠ 0) : divisor d = .ok d :=
  if_neg h

theorem narrow_of_le (h : n ≤ maxWidth) : narrow n = .ok n :=
  if_pos h

theorem mask_eq (width : Nat) : mask width = .ok (2 ^ width - 1) :=
  minus_of_le (Nat.two_pow_pos width)

theorem bitLength_le_iff {width n : Nat} : bitLength n ≤ width ↔ n < 2 ^ width := by
  rw [bitLength]
  split
  · next h =>
    rw [h]
    exact iff_of_true (Nat.zero_le width) (Nat.two_pow_pos width)
  · next h => exact Nat.log2_lt h

theorem lowBits_eq (width n : Nat) : lowBits width n = .ok (n % 2 ^ width) := by
  rw [lowBits, mask_eq]
  split
  · next h =>
    rw [Nat.mod_eq_of_lt (bitLength_le_iff.1 h)]
    rfl
  · rw [← Nat.and_two_pow_sub_one_eq_mod]
    rfl

/-- The magnitude is reduced before it is taken away from the modulus. -/
theorem lowBitsInt_eq (width : Nat) (i : Int) :
    lowBitsInt width i = .ok (Word.lowBitsInt width i) := by
  have hle (n : Nat) : n % 2 ^ width ≤ 2 ^ width := (Nat.mod_lt n (Nat.two_pow_pos width)).le
  rw [lowBitsInt, lowBits_eq]
  cases i with
  | ofNat n => exact congrArg Except.ok (lowBits_eq_mod width n).symm
  | negSucc n =>
      have hneg : Int.negSucc n < 0 := Int.negSucc_lt_zero n
      simp only [Word.lowBitsInt, lowBits_eq_mod, minus_of_le (hle _), Int.natAbs_negSucc, hneg,
        true_and, ne_eq, ite_not, bind, Except.bind, pure, Except.pure]
      split
      · next h => rw [h]
      · rfl

theorem fill_eq (hwidth : 0 < width) (n : Nat) :
    fill width n = .ok (truncate width hwidth n).stored := by
  rw [fill, lowBits_eq, ← value_truncate width hwidth]
  rfl

theorem fillInt_eq (hwidth : 0 < width) (i : Int) :
    fillInt width i = .ok (wrap width hwidth i).stored := by
  rw [fillInt, lowBitsInt_eq]
  rfl

theorem outcome_ok (x : α) : outcome (.ok x) = .ok x := rfl

theorem outcome_ofNat (hwidth : 0 < width) (n : Nat) :
    outcome ((Word.ofNat width n).map stored) = .ok (truncate width hwidth n).stored := by
  rw [Word.ofNat, dif_pos hwidth]
  rfl

theorem outcome_ofInt (hwidth : 0 < width) (i : Int) :
    outcome ((Word.ofInt width i).map stored) = .ok (wrap width hwidth i).stored := by
  rw [Word.ofInt, dif_pos hwidth]
  rfl

theorem nonEmpty_of_pos (hwidth : 0 < width) : nonEmpty width = .ok () :=
  if_neg hwidth.ne'

theorem ofNat_eq (width n : Nat) :
    ofNat width n = outcome ((Word.ofNat width n).map stored) := by
  rcases Nat.eq_zero_or_pos width with rfl | hwidth
  · rfl
  · rw [ofNat, nonEmpty_of_pos hwidth, outcome_ofNat hwidth]
    exact fill_eq hwidth n

theorem ofInt_eq (width : Nat) (i : Int) :
    ofInt width i = outcome ((Word.ofInt width i).map stored) := by
  rcases Nat.eq_zero_or_pos width with rfl | hwidth
  · rfl
  · rw [ofInt, nonEmpty_of_pos hwidth, outcome_ofInt hwidth]
    exact fillInt_eq hwidth i

theorem isNegative_stored (a : Word) : isNegative a.stored = .ok a.isNegative := by
  rw [isNegative, width_stored, minus_of_le a.width_pos]
  rfl

theorem toInt_stored (a : Word) : toInt a.stored = .ok a.toInt := by
  have hvalue : a.value ≤ 2 ^ a.width := a.value_lt.le
  rw [toInt, width_stored, value_stored, if_neg a.width_pos.ne', minus_of_le a.width_pos,
    minus_of_le hvalue, Word.toInt]
  show (if a.isNegative = true then _ else _) = _
  rw [bind_ok, Nat.cast_sub hvalue, natCast_two_pow, neg_sub]
  split <;> rfl

theorem reading_stored (a : Word) (signed : Bool) :
    reading a.stored signed = .ok (a.reading signed) := by
  cases signed with
  | false => rfl
  | true => exact toInt_stored a

/-! ### Counts of bits -/

theorem half_lt {n : Nat} (h : n < 2 ^ (width + 1)) : n / 2 < 2 ^ width :=
  Nat.div_lt_of_lt_mul (by rwa [← Nat.pow_succ'])

theorem onesIn_le {n : Nat} (h : n < 2 ^ width) : onesIn n ≤ width := by
  induction width generalizing n with
  | zero =>
      obtain rfl : n = 0 := Nat.lt_one_iff.1 h
      rw [onesIn, if_pos rfl]
  | succ width ih =>
      rw [onesIn]
      split
      · exact Nat.zero_le _
      · have hrest := ih (half_lt h)
        omega

theorem zerosEnding_le {n : Nat} (h : n < 2 ^ width) : zerosEnding n ≤ width := by
  induction width generalizing n with
  | zero =>
      obtain rfl : n = 0 := Nat.lt_one_iff.1 h
      rw [zerosEnding, if_pos rfl]
  | succ width ih =>
      rw [zerosEnding]
      split_ifs
      · exact Nat.zero_le _
      · exact Nat.zero_le _
      · exact Nat.succ_le_succ (ih (half_lt h))

theorem onesCount_stored (hmax : a.width ≤ maxWidth) : onesCount a.stored = .ok a.onesCount :=
  narrow_of_le ((onesIn_le a.value_lt).trans hmax)

theorem leadingZeros_stored (hmax : a.width ≤ maxWidth) :
    leadingZeros a.stored = .ok a.leadingZeros := by
  have hle := bitLength_le a
  rw [leadingZeros, value_stored, narrow_of_le (hle.trans hmax), bind_ok, width_stored,
    minus_of_le hle]
  rfl

/-- A pair whose value has more bits than its width. -/
example : leadingZeros ⟨2, 4⟩ = .error .outOfRange := rfl

theorem trailingZeros_stored (hmax : a.width ≤ maxWidth) :
    trailingZeros a.stored = .ok a.trailingZeros := by
  have hle : zerosEnding a.value ≤ maxWidth := (zerosEnding_le a.value_lt).trans hmax
  rw [trailingZeros, Word.trailingZeros, value_stored, narrow_of_le hle, isZero]
  by_cases hzero : a.value = 0 <;> simp [hzero]

/-! ### Calls -/

theorem matching_stored (a b : Word) :
    matching a.stored b.stored = outcome (Word.matching a b) := by
  rw [matching, Word.matching, width_stored, width_stored]
  split <;> rfl

theorem divisible_stored (a b : Word) :
    divisible a.stored b.stored = outcome (Word.divisible a b) := by
  rw [divisible, Word.divisible, matching_stored, value_stored, width_stored]
  cases Word.matching a b with
  | error fault => rfl
  | ok _ =>
      by_cases hzero : b.value = 0
      · simp [hzero, isZero]
        rfl
      · simp [hzero, isZero]

theorem order_stored (a b : Word) (signed : Bool) :
    order a.stored b.stored signed = outcome (Word.order a b signed) := by
  rw [order, Word.order, matching_stored, reading_stored, reading_stored]
  cases Word.matching a b <;> rfl

theorem combine_stored (a b : Word) (n : Nat) :
    combine a.stored b.stored n =
      outcome ((do Word.matching a b; return a.withValue n).map stored) := by
  rw [combine, matching_stored, width_stored, fill_eq a.width_pos]
  cases Word.matching a b <;> rfl

theorem divide_stored (a b : Word) (f : Nat → Nat → Nat) :
    divide a.stored b.stored f =
      outcome ((do Word.divisible a b; return a.withValue (f a.value b.value)).map stored) := by
  rw [divide, divisible_stored]
  cases h : Word.divisible a b with
  | error fault => rfl
  | ok _ =>
      have hne : b.value ≠ 0 := (divisible_eq_ok_iff.1 h).2
      rw [value_stored, value_stored, divisor_of_ne hne, width_stored]
      exact fill_eq a.width_pos _

theorem divideSigned_stored (a b : Word) (f : Int → Int → Int) :
    divideSigned a.stored b.stored f =
      outcome ((do Word.divisible a b; return a.withInt (f a.toInt b.toInt)).map stored) := by
  rw [divideSigned, divisible_stored]
  cases h : Word.divisible a b with
  | error fault => rfl
  | ok _ =>
      have hne : b.toInt ≠ 0 := toInt_ne_zero (divisible_eq_ok_iff.1 h).2
      rw [toInt_stored, toInt_stored]
      simp only [bind_ok, divisor_of_ne hne, width_stored]
      exact fillInt_eq a.width_pos _

theorem udivRem_stored (a b : Word) :
    udivRem a.stored b.stored =
      outcome ((Word.udivRem a b).map (Prod.map stored stored)) := by
  rw [udivRem, Word.udivRem, divisible_stored]
  cases h : Word.divisible a b with
  | error fault => rfl
  | ok _ =>
      have hne : b.value ≠ 0 := (divisible_eq_ok_iff.1 h).2
      rw [value_stored, value_stored, divisor_of_ne hne, width_stored]
      simp only [fill_eq a.width_pos]
      rfl

theorem turn_stored (a : Word) (distance : Int) (join : Nat → Nat → Nat) :
    turn a.stored distance join =
      outcome ((do
        let count := (← amount .rotation distance) % a.width
        return if count = 0 then a
          else a.withValue (join count (a.width - count))).map stored) := by
  rw [turn]
  cases amount .rotation distance with
  | error fault => rfl
  | ok distance =>
      have hle : distance % a.width ≤ a.width := (Nat.mod_lt _ a.width_pos).le
      simp only [width_stored, outcome_ok, bind_ok, divisor_of_ne a.width_pos.ne', minus_of_le hle,
        fill_eq a.width_pos]
      exact (apply_ite (fun word => Except.ok (stored word)) _ _ _).symm

theorem concat_stored (high low : Word) :
    concat high.stored low.stored = outcome ((Word.concat high low).map stored) := by
  have hwidth : 0 < high.width + low.width := Nat.add_pos_left high.width_pos _
  rw [concat, Word.concat, width_stored, width_stored, widened]
  split
  · exact (fill_eq hwidth _).trans (outcome_ofNat hwidth _).symm
  · rfl

theorem shiftRight_stored (a : Word) (distance : Int) (signed : Bool) :
    unary (.shiftRight distance signed) a.stored =
      outcome ((a.shiftRight distance signed).map stored) := by
  rw [unary, shiftRight]
  cases amount .shift distance with
  | error fault => rfl
  | ok count =>
      rw [outcome_ok, bind_ok, width_stored, toInt_stored, bind_ok, fillInt_eq a.width_pos,
        fill_eq a.width_pos, fill_eq a.width_pos]
      cases signed with
      | true => rfl
      | false => exact (apply_ite (fun word => Except.ok (stored word)) _ _ _).symm

theorem extract_stored (high low : Nat) (hmax : a.width ≤ maxWidth) :
    unary (.extract high low) a.stored = outcome ((a.extract high low).map stored) := by
  rw [unary, extract, width_stored]
  split
  · rfl
  · next hhigh =>
    split
    · rfl
    · next hlow =>
      have hnarrow : high - low + 1 ≤ maxWidth := by omega
      rw [minus_of_le (Nat.le_of_not_lt hlow), bind_ok, narrow_of_le hnarrow, bind_ok]
      exact fill_eq (Nat.succ_pos _) _

theorem extend_stored (a : Word) (extra : Nat) (signed : Bool) :
    unary (.extend extra signed) a.stored =
      outcome (((Unary.extend extra signed).apply a).map stored) := by
  have hwidth : 0 < a.width + extra := Nat.add_pos_left a.width_pos extra
  cases signed with
  | false =>
      rw [unary, Unary.apply, extend, width_stored, widened]
      split
      · exact (fill_eq hwidth _).trans (outcome_ofNat hwidth _).symm
      · rfl
  | true =>
      rw [unary, Unary.apply, signExtend, width_stored, widened, toInt_stored]
      split
      · exact (fillInt_eq hwidth _).trans (outcome_ofInt hwidth _).symm
      · rfl

theorem signResize_stored (a : Word) (width : Nat) :
    unary (.resize width true) a.stored = outcome ((a.signResize width).map stored) := by
  rw [unary, signResize, width_stored, toInt_stored]
  rcases Nat.eq_zero_or_pos width with rfl | hwidth
  · rw [if_pos (Nat.zero_le _)]
    rfl
  · rw [nonEmpty_of_pos hwidth, bind_ok]
    split
    · exact (fill_eq hwidth _).trans (outcome_ofNat hwidth _).symm
    · exact (fillInt_eq hwidth _).trans (outcome_ofInt hwidth _).symm

theorem replicate_stored (a : Word) (count : Nat) :
    unary (.replicate count) a.stored = outcome ((a.replicate count).map stored) := by
  rw [unary, Word.replicate, width_stored]
  split
  · rfl
  · next hcount =>
    have hwidth : 0 < a.width * count := Nat.mul_pos a.width_pos (Nat.pos_of_ne_zero hcount)
    split
    · exact (fill_eq hwidth _).trans (outcome_ofNat hwidth _).symm
    · rfl

theorem unary_stored (op : Unary) (hmax : a.width ≤ maxWidth) :
    unary op a.stored = outcome ((op.apply a).map stored) := by
  cases op with
  | neg => exact fillInt_eq a.width_pos _
  | not =>
      rw [unary, width_stored, mask_eq, bind_ok]
      exact fill_eq a.width_pos _
  | shiftLeft distance =>
      rw [unary, Unary.apply, shiftLeft]
      cases amount .shift distance with
      | error fault => rfl
      | ok count =>
          rw [outcome_ok, bind_ok, width_stored, fill_eq a.width_pos, fill_eq a.width_pos]
          exact (apply_ite (fun word => Except.ok (stored word)) _ _ _).symm
  | shiftRight distance signed => exact shiftRight_stored a distance signed
  | rotateLeft distance =>
      exact turn_stored a distance fun count rest => a.value <<< count ||| a.value >>> rest
  | rotateRight distance =>
      exact turn_stored a distance fun count rest => a.value >>> count ||| a.value <<< rest
  | extract high low => exact extract_stored high low hmax
  | extend extra signed => exact extend_stored a extra signed
  | resize width signed =>
      cases signed with
      | false => exact ofNat_eq width a.value
      | true => exact signResize_stored a width
  | replicate count => exact replicate_stored a count

theorem binary_stored (op : Binary) (a b : Word) :
    binary op a.stored b.stored = outcome ((op.apply a b).map stored) := by
  cases op with
  | add | mul | and | or | xor => exact combine_stored a b _
  | sub =>
      rw [binary, Binary.apply, sub, matching_stored, width_stored, fillInt_eq a.width_pos]
      cases Word.matching a b <;> rfl
  | least signed =>
      rw [binary, Binary.apply, least, order_stored]
      cases Word.order a b signed with
      | error fault => rfl
      | ok ordering => exact congrArg Except.ok (apply_ite stored _ a b).symm
  | greatest signed =>
      rw [binary, Binary.apply, greatest, order_stored]
      cases Word.order a b signed with
      | error fault => rfl
      | ok ordering => exact congrArg Except.ok (apply_ite stored _ a b).symm

theorem division_stored (op : Division) (a b : Word) :
    division op a.stored b.stored = outcome ((op.apply a b).map stored) := by
  cases op with
  | udiv | urem => exact divide_stored a b _
  | quotient | remainder =>
      rw [division, udivRem_stored, Division.apply]
      cases Word.udivRem a b <;> rfl
  | sdiv | srem | smod => exact divideSigned_stored a b _

end Checked

end ExactCalc.Word
