import ExactCalc.Proofs.Word.Stored
import ExactCalc.Word.Bits
import ExactCalc.Word.Order
import ExactCalc.Word.Slice
import Mathlib.Algebra.BigOperators.Ring.Finset
import Mathlib.Algebra.Order.Ring.Int

/-!
The operations on words beside plain arithmetic on what words store. For each operation there is
the number that it forms from widths and values, the width at which that number is stored, and the
condition under which it is refused. Shifts are products and quotients by powers of two, slices are
quotients, a concatenation is a sum, and the remainders of signed division are those of truncation
and of the floor.
-/

namespace ExactCalc.Word

inductive Unary where
  | neg
  | not
  | shiftLeft (distance : Int)
  | shiftRight (distance : Int) (signed : Bool)
  | rotateLeft (distance : Int)
  | rotateRight (distance : Int)
  | extract (high low : Nat)
  | extend (extra : Nat) (signed : Bool)
  | resize (width : Nat) (signed : Bool)
  | replicate (count : Nat)

inductive Binary where
  | add
  | sub
  | mul
  | and
  | or
  | xor
  | least (signed : Bool)
  | greatest (signed : Bool)

/-- The divisions, the unsigned one also in the form that gives quotient and remainder together. -/
inductive Division where
  | udiv
  | urem
  | quotient
  | remainder
  | sdiv
  | srem
  | smod

def Unary.apply : Unary → Word → Except Fault Word
  | .neg, a => .ok a.neg
  | .not, a => .ok a.not
  | .shiftLeft distance, a => a.shiftLeft distance
  | .shiftRight distance signed, a => a.shiftRight distance signed
  | .rotateLeft distance, a => a.rotateLeft distance
  | .rotateRight distance, a => a.rotateRight distance
  | .extract high low, a => a.extract high low
  | .extend extra false, a => a.extend extra
  | .extend extra true, a => a.signExtend extra
  | .resize width false, a => a.resize width
  | .resize width true, a => a.signResize width
  | .replicate count, a => a.replicate count

def Binary.apply : Binary → Word → Word → Except Fault Word
  | .add, a, b => a.add b
  | .sub, a, b => a.sub b
  | .mul, a, b => a.mul b
  | .and, a, b => a.and b
  | .or, a, b => a.or b
  | .xor, a, b => a.xor b
  | .least signed, a, b => a.least b signed
  | .greatest signed, a, b => a.greatest b signed

def Division.apply : Division → Word → Word → Except Fault Word
  | .udiv, a, b => a.udiv b
  | .urem, a, b => a.urem b
  | .quotient, a, b => (a.udivRem b).map Prod.fst
  | .remainder, a, b => (a.udivRem b).map Prod.snd
  | .sdiv, a, b => a.sdiv b
  | .srem, a, b => a.srem b
  | .smod, a, b => a.smod b

namespace Stored

/-- The number whose lowest bits are the bits of `s`, the upper `count` of them moved below the
others. -/
def turned (s : Stored) (count : Nat) : Int :=
  s.value * 2 ^ count + s.value / 2 ^ (s.width - count)

/-- Rotation to the left by some of the bits. -/
def rotated (s : Stored) (count : Nat) : Option Stored :=
  ofNumber s.width (s.turned count)

def concat (high low : Stored) : Option Stored :=
  if high.width + low.width ≤ maxWidth then
    ofNumber (high.width + low.width) (high.value * 2 ^ low.width + low.value)
  else none

end Stored

open Stored

def Unary.stored : Unary → Stored → Option Stored
  | .neg, s => ofNumber s.width (-s.value)
  | .not, s => ofNumber s.width (-s.value - 1)
  | .shiftLeft distance, s =>
      if distance < 0 then none else ofNumber s.width (s.value * 2 ^ distance.toNat)
  | .shiftRight distance signed, s =>
      if distance < 0 then none else ofNumber s.width (s.reading signed / 2 ^ distance.toNat)
  | .rotateLeft distance, s =>
      if distance < 0 then none else s.rotated (distance.toNat % s.width)
  | .rotateRight distance, s =>
      if distance < 0 then none else s.rotated (s.width - distance.toNat % s.width)
  | .extract high low, s =>
      if low ≤ high ∧ high < s.width then ofNumber (high - low + 1) (s.value / 2 ^ low) else none
  | .extend extra signed, s =>
      if s.width + extra ≤ maxWidth then ofNumber (s.width + extra) (s.reading signed) else none
  | .resize width signed, s => ofNumber width (s.reading signed)
  | .replicate count, s =>
      if 0 < count ∧ s.width * count ≤ maxWidth then
        ofNumber (s.width * count) (∑ i ∈ Finset.range count, (s.value : Int) * 2 ^ (s.width * i))
      else none

def Binary.number : Binary → Stored → Stored → Int
  | .add, s, t => s.value + t.value
  | .sub, s, t => s.value - t.value
  | .mul, s, t => s.value * t.value
  | .and, s, t => (s.value &&& t.value : Nat)
  | .or, s, t => (s.value ||| t.value : Nat)
  | .xor, s, t => (s.value ^^^ t.value : Nat)
  | .least signed, s, t => min (s.reading signed) (t.reading signed)
  | .greatest signed, s, t => max (s.reading signed) (t.reading signed)

def Binary.stored (op : Binary) (s t : Stored) : Option Stored :=
  if s.width = t.width then ofNumber s.width (op.number s t) else none

def Division.number : Division → Stored → Stored → Int
  | .udiv, s, t | .quotient, s, t => s.value / t.value
  | .urem, s, t | .remainder, s, t => s.value % t.value
  | .sdiv, s, t => (s.reading true).tdiv (t.reading true)
  | .srem, s, t => (s.reading true).tmod (t.reading true)
  | .smod, s, t => (s.reading true).fmod (t.reading true)

def Division.stored (op : Division) (s t : Stored) : Option Stored :=
  if s.width = t.width ∧ t.value ≠ 0 then ofNumber s.width (op.number s t) else none

/-! ### Two words -/

/-- The adjusted remainder is that of division to the floor. -/
theorem floorRemainder_eq_fmod (x y : Int) : floorRemainder x y = x.fmod y := by
  rw [Int.fmod_eq_tmod, floorRemainder]
  by_cases hdvd : y ∣ x
  · have hrest : x.tmod y = 0 := Int.tmod_eq_zero_of_dvd hdvd
    simp [hrest, hdvd]
  · have hrest : x.tmod y ≠ 0 := fun h => hdvd (Int.dvd_of_tmod_eq_zero h)
    -- A truncated remainder has the sign of the dividend.
    have hsign : if 0 ≤ x then 0 ≤ x.tmod y else x.tmod y ≤ 0 := by
      split
      · next hx => exact Int.tmod_nonneg y hx
      · next hx =>
        have hneg := Int.tmod_nonneg y (show 0 ≤ -x by omega)
        rw [Int.neg_tmod] at hneg
        omega
    rw [if_neg hdvd]
    simp only [ne_eq, hrest, not_false_eq_true, true_and, eq_iff_iff]
    generalize x.tmod y = rest at hrest hsign
    split_ifs at hsign ⊢ <;> omega

theorem udivRem_eq (a b : Word) :
    (a.udivRem b).map Prod.fst = a.udiv b ∧ (a.udivRem b).map Prod.snd = a.urem b := by
  simp only [udivRem, udiv, urem]
  cases divisible a b <;> exact ⟨rfl, rfl⟩

theorem order_of_width_eq {a b : Word} (h : a.width = b.width) (signed : Bool) :
    a.order b signed = .ok (compare (a.reading signed) (b.reading signed)) := by
  rw [order, bind_matching h]
  rfl

theorem map_order (a b : Word) (signed : Bool) (choose : Ordering → Word) :
    (order a b signed).map choose =
      (do matching a b; return choose (compare (a.reading signed) (b.reading signed))) := by
  rw [order]
  cases matching a b <;> rfl

theorem stored_least (a b : Word) (signed : Bool) :
    (a.least b signed).toOption.map Word.stored =
      (Binary.least signed).stored a.stored b.stored := by
  rw [least, map_order]
  refine stored_matching fun hwidth => ?_
  rw [Binary.number, reading_stored, reading_stored]
  split
  · next h =>
    rw [min_eq_left (Int.isLE_compare.1 h)]
    exact stored_eq_ofNumber a signed
  · next h =>
    rw [min_eq_right (le_of_not_ge (mt Int.isLE_compare.2 h)), hwidth]
    exact stored_eq_ofNumber b signed

theorem stored_greatest (a b : Word) (signed : Bool) :
    (a.greatest b signed).toOption.map Word.stored =
      (Binary.greatest signed).stored a.stored b.stored := by
  rw [greatest, map_order]
  refine stored_matching fun hwidth => ?_
  rw [Binary.number, reading_stored, reading_stored]
  split
  · next h =>
    rw [max_eq_left (Int.isGE_compare.1 h)]
    exact stored_eq_ofNumber a signed
  · next h =>
    rw [max_eq_right (le_of_not_ge (mt Int.isGE_compare.2 h)), hwidth]
    exact stored_eq_ofNumber b signed

theorem Binary.stored_apply (op : Binary) (a b : Word) :
    (op.apply a b).toOption.map Word.stored = op.stored a.stored b.stored := by
  cases op with
  | add =>
      refine stored_matching fun _ => ?_
      rw [stored_withValue, Int.natCast_add]
      rfl
  | sub =>
      refine stored_matching fun _ => ?_
      rw [stored_withInt]
      rfl
  | mul =>
      refine stored_matching fun _ => ?_
      rw [stored_withValue, Int.natCast_mul]
      rfl
  | and | or | xor =>
      refine stored_matching fun _ => ?_
      rw [stored_withValue]
      rfl
  | least signed => exact stored_least a b signed
  | greatest signed => exact stored_greatest a b signed

theorem Division.stored_apply (op : Division) (a b : Word) :
    (op.apply a b).toOption.map Word.stored = op.stored a.stored b.stored := by
  have hudiv : (a.udiv b).toOption.map Word.stored = Division.udiv.stored a.stored b.stored := by
    refine stored_divisible ?_
    rw [stored_withValue, Int.natCast_ediv]
    rfl
  have hurem : (a.urem b).toOption.map Word.stored = Division.urem.stored a.stored b.stored := by
    refine stored_divisible ?_
    rw [stored_withValue, Int.natCast_emod]
    rfl
  cases op with
  | udiv => exact hudiv
  | urem => exact hurem
  | quotient =>
      rw [apply, (udivRem_eq a b).1]
      exact hudiv
  | remainder =>
      rw [apply, (udivRem_eq a b).2]
      exact hurem
  | sdiv | srem =>
      refine stored_divisible ?_
      rw [stored_withInt, number, reading_stored, reading_stored]
      rfl
  | smod =>
      refine stored_divisible ?_
      rw [stored_withInt, floorRemainder_eq_fmod, number, reading_stored, reading_stored]
      rfl

theorem Binary.apply_eq_wrap (op : Binary) {a b : Word} (h : a.width = b.width) :
    op.apply a b = .ok (wrap a.width a.width_pos (op.number a.stored b.stored)) := by
  refine eq_ok_wrap_of_stored a.width_pos ?_
  rw [op.stored_apply, Binary.stored]
  exact if_pos h

theorem Division.apply_eq_wrap (op : Division) {a b : Word} (hwidth : a.width = b.width)
    (hdivisor : b.value ≠ 0) :
    op.apply a b = .ok (wrap a.width a.width_pos (op.number a.stored b.stored)) := by
  refine eq_ok_wrap_of_stored a.width_pos ?_
  rw [op.stored_apply, Division.stored]
  exact if_pos ⟨hwidth, hdivisor⟩

/-! ### One word -/

/-- The complement counts down from the greatest value. -/
theorem xor_two_pow_sub_one {width n : Nat} (h : n < 2 ^ width) :
    n ^^^ (2 ^ width - 1) = 2 ^ width - (n + 1) := by
  refine Nat.eq_of_testBit_eq fun i => ?_
  rw [Nat.testBit_xor, Nat.testBit_two_pow_sub_one, Nat.testBit_two_pow_sub_succ h]
  by_cases hi : i < width
  · simp [hi]
  · have hzero : n.testBit i = false :=
      Nat.testBit_lt_two_pow (lt_two_pow_of_le h (Nat.le_of_not_lt hi))
    simp [hi, hzero]

theorem stored_not (a : Word) : some a.not.stored = ofNumber a.width (-a.value - 1) := by
  have hlt := a.value_lt
  rw [not, xor_two_pow_sub_one hlt, stored_withValue]
  refine ofNumber_congr (Int.modEq_iff_dvd.2 ⟨-1, ?_⟩)
  rw [← natCast_two_pow]
  omega

/-- A product by as many twos as there are bits, or more, leaves no bit. -/
theorem modEq_zero_of_width_le {width count : Nat} (h : width ≤ count) (x : Int) :
    x * 2 ^ count ≡ 0 [ZMOD 2 ^ width] := by
  refine Int.modEq_zero_iff_dvd.2 (Int.dvd_mul_of_dvd_right ?_)
  exact pow_dvd_pow 2 h

theorem stored_shiftedLeft (a : Word) (count : Nat) :
    some (if a.width ≤ count then a.withValue 0 else a.withValue (a.value <<< count)).stored =
      ofNumber a.width (a.value * 2 ^ count) := by
  split
  · next h =>
    rw [stored_withValue]
    exact ofNumber_congr (modEq_zero_of_width_le h _).symm
  · rw [stored_withValue, Nat.shiftLeft_eq, Int.natCast_mul, natCast_two_pow]

/-- Beyond the width a signed reading has nothing left but its sign. -/
theorem toInt_ediv_two_pow (a : Word) (count : Nat) :
    a.toInt / 2 ^ min count a.width = a.toInt / 2 ^ count := by
  rcases Nat.le_total count a.width with h | h
  · rw [Nat.min_eq_left h]
  · rw [Nat.min_eq_right h]
    obtain ⟨hlow, hhigh⟩ := toInt_bounds a
    have hpred := two_pow_pred a.width_pos
    have hpos : (0 : Int) < 2 ^ (a.width - 1) := Int.pow_pos (by decide)
    have hle : (2 : Int) ^ a.width ≤ 2 ^ count := pow_le_pow_right₀ (by decide) h
    by_cases hneg : a.toInt < 0
    · rw [Int.ediv_eq_neg_one_of_neg_of_le hneg (by omega),
        Int.ediv_eq_neg_one_of_neg_of_le hneg (by omega)]
    · rw [Int.ediv_eq_zero_of_lt (by omega) (by omega),
        Int.ediv_eq_zero_of_lt (by omega) (by omega)]

theorem stored_shiftedRight (a : Word) (count : Nat) (signed : Bool) :
    some (if signed then a.withInt (a.toInt >>> min count a.width)
      else if a.width ≤ count then a.withValue 0
      else a.withValue (a.value >>> count)).stored =
      ofNumber a.width (a.reading signed / 2 ^ count) := by
  cases signed with
  | true =>
      rw [if_pos rfl, stored_withInt, Int.shiftRight_eq_div_pow, natCast_two_pow,
        toInt_ediv_two_pow]
      rfl
  | false =>
      have hvalue : ((a.value >>> count : Nat) : Int) = a.value / 2 ^ count := by
        rw [Nat.shiftRight_eq_div_pow, Int.natCast_ediv, natCast_two_pow]
      rw [if_neg Bool.false_ne_true]
      split
      · next h =>
        have hlt : a.value < 2 ^ count := lt_two_pow_of_le a.value_lt h
        rw [Nat.shiftRight_eq_div_pow, Nat.div_eq_of_lt hlt] at hvalue
        rw [stored_withValue, hvalue]
        rfl
      · rw [stored_withValue, hvalue]
        rfl

/-- The two parts of a rotation do not overlap. -/
theorem shiftLeft_or_shiftRight {a : Word} {count : Nat} (h : count ≤ a.width) :
    ((a.value <<< count ||| a.value >>> (a.width - count) : Nat) : Int) =
      a.stored.turned count := by
  have hlow : a.value >>> (a.width - count) < 2 ^ count := by
    rw [Nat.shiftRight_eq_div_pow]
    refine Nat.div_lt_of_lt_mul ?_
    rw [← Nat.pow_add, Nat.sub_add_cancel h]
    exact a.value_lt
  rw [← Nat.shiftLeft_add_eq_or_of_lt hlow, Nat.shiftLeft_eq, Nat.shiftRight_eq_div_pow,
    Int.natCast_add, Int.natCast_mul, Int.natCast_ediv, natCast_two_pow, natCast_two_pow]
  rfl

theorem ediv_two_pow_width (a : Word) : (a.value : Int) / 2 ^ a.width = 0 := by
  rw [← natCast_two_pow, ← Int.natCast_ediv, Nat.div_eq_of_lt a.value_lt]
  rfl

theorem stored_rotatedLeft (a : Word) (count : Nat) :
    some (if count % a.width = 0 then a
      else a.withValue (a.value <<< (count % a.width) |||
        a.value >>> (a.width - count % a.width))).stored =
      a.stored.rotated (count % a.width) := by
  have hlt := Nat.mod_lt count a.width_pos
  generalize count % a.width = turns at hlt
  split
  · next h =>
    subst h
    rw [rotated, turned, stored_eq_ofNumber a false]
    simp [reading, ediv_two_pow_width]
  · rw [stored_withValue, shiftLeft_or_shiftRight hlt.le]
    rfl

theorem stored_rotatedRight (a : Word) (count : Nat) :
    some (if count % a.width = 0 then a
      else a.withValue (a.value >>> (count % a.width) |||
        a.value <<< (a.width - count % a.width))).stored =
      a.stored.rotated (a.width - count % a.width) := by
  have hlt := Nat.mod_lt count a.width_pos
  generalize count % a.width = turns at hlt
  split
  · next h =>
    subst h
    rw [rotated, turned, stored_eq_ofNumber a false]
    refine ofNumber_congr ?_
    simp [reading]
  -- Turning right by some of the bits is turning left by the others.
  · have hback : a.width - (a.width - turns) = turns := by omega
    have hor := shiftLeft_or_shiftRight (a := a) (Nat.sub_le a.width turns)
    rw [hback, Nat.or_comm] at hor
    rw [stored_withValue, hor]
    rfl

/-- An amount is refused exactly if it is negative. -/
theorem stored_amount (move : BitMove) (distance : Int) (f : Nat → Word) :
    (do let count ← amount move distance; return f count).toOption.map Word.stored =
      if distance < 0 then none else some (f distance.toNat).stored := by
  rw [amount]
  split <;> rfl

theorem stored_extract (a : Word) (high low : Nat) :
    (a.extract high low).toOption.map Word.stored =
      if low ≤ high ∧ high < a.width then
        ofNumber (high - low + 1) (a.value / 2 ^ low)
      else none := by
  rw [extract]
  by_cases hhigh : a.width ≤ high
  · rw [if_pos hhigh, if_neg (by omega)]
    rfl
  · by_cases hlow : high < low
    · rw [if_neg hhigh, if_pos hlow, if_neg (by omega)]
      rfl
    · rw [if_neg hhigh, if_neg hlow, if_pos (by omega), truncate_eq_wrap, Nat.shiftRight_eq_div_pow,
        Int.natCast_ediv, natCast_two_pow]
      exact stored_wrap _ _

theorem stored_widened (width extra : Nat) (f : Nat → Except Fault Word) :
    (do f (← widened width extra)).toOption.map Word.stored =
      if width + extra ≤ maxWidth then (f (width + extra)).toOption.map Word.stored else none := by
  rw [widened]
  split <;> rfl

/-- Below the width the high bits are cut off either way. -/
theorem stored_signResize (a : Word) (width : Nat) :
    (a.signResize width).toOption.map Word.stored = ofNumber width a.toInt := by
  rw [signResize]
  split
  · next h =>
    rw [stored_ofNat]
    refine ofNumber_congr ((toInt_modEq_value a).symm.of_dvd ?_)
    exact pow_dvd_pow 2 h
  · exact stored_ofInt width a.toInt

/-- A repeated word is its value in each of its places. -/
theorem repeated_eq_sum (width value count : Nat) (h : value < 2 ^ width) :
    ((repeated width value count : Nat) : Int) =
      ∑ i ∈ Finset.range count, (value : Int) * 2 ^ (width * i) := by
  induction count with
  | zero => rfl
  | succ count ih =>
      have hstep : repeated width value (count + 1) =
          repeated width value count <<< width ||| value := rfl
      rw [hstep, ← Nat.shiftLeft_add_eq_or_of_lt h, Nat.shiftLeft_eq, Int.natCast_add,
        Int.natCast_mul, natCast_two_pow, ih, Finset.sum_range_succ', Finset.sum_mul]
      simp [Nat.mul_add, Int.pow_add, Int.mul_assoc]

theorem stored_replicate (a : Word) (count : Nat) :
    (a.replicate count).toOption.map Word.stored =
      (Unary.replicate count).stored a.stored := by
  rw [replicate, Unary.stored]
  by_cases hzero : count = 0
  · subst hzero
    rfl
  · rw [if_neg hzero]
    by_cases hmax : a.width * count ≤ maxWidth
    · rw [if_pos hmax, stored_ofNat, repeated_eq_sum _ _ _ a.value_lt]
      exact (if_pos ⟨Nat.pos_of_ne_zero hzero, hmax⟩).symm
    · rw [if_neg hmax]
      exact (if_neg fun h => hmax h.2).symm

theorem Unary.stored_apply (op : Unary) (a : Word) :
    (op.apply a).toOption.map Word.stored = op.stored a.stored := by
  cases op with
  | neg => exact stored_withInt a _
  | not => exact stored_not a
  | shiftLeft distance =>
      refine (stored_amount .shift distance _).trans ?_
      rw [stored_shiftedLeft]
      rfl
  | shiftRight distance signed =>
      refine (stored_amount .shift distance _).trans ?_
      rw [stored_shiftedRight, Unary.stored, reading_stored]
      rfl
  | rotateLeft distance =>
      refine (stored_amount .rotation distance _).trans ?_
      rw [stored_rotatedLeft]
      rfl
  | rotateRight distance =>
      refine (stored_amount .rotation distance _).trans ?_
      rw [stored_rotatedRight]
      rfl
  | extract high low => exact stored_extract a high low
  | extend extra signed =>
      cases signed with
      | false =>
          refine (stored_widened a.width extra _).trans ?_
          rw [stored_ofNat]
          rfl
      | true =>
          refine (stored_widened a.width extra _).trans ?_
          rw [stored_ofInt, Unary.stored, reading_stored]
          rfl
  | resize width signed =>
      cases signed with
      | false => exact stored_ofNat width a.value
      | true =>
          rw [Unary.stored, reading_stored]
          exact stored_signResize a width
  | replicate count => exact stored_replicate a count

theorem Unary.stored_eq_some (op : Unary) {a b : Word} (h : op.apply a = .ok b) :
    op.stored a.stored = some b.stored := by
  rw [← op.stored_apply, h]
  rfl

theorem Unary.apply_eq_wrap (op : Unary) {a : Word} {width : Nat} {i : Int} (hwidth : 0 < width)
    (h : op.stored a.stored = ofNumber width i) : op.apply a = .ok (wrap width hwidth i) :=
  eq_ok_wrap_of_stored hwidth ((op.stored_apply a).trans h)

theorem shiftLeft_eq_wrap {distance : Int} (hdistance : 0 ≤ distance) (a : Word) :
    a.shiftLeft distance = .ok (wrap a.width a.width_pos (a.value * 2 ^ distance.toNat)) :=
  (Unary.shiftLeft distance).apply_eq_wrap a.width_pos (if_neg (not_lt.2 hdistance))

theorem shiftRight_eq_wrap {distance : Int} (hdistance : 0 ≤ distance) (a : Word)
    (signed : Bool) :
    a.shiftRight distance signed =
      .ok (wrap a.width a.width_pos (a.reading signed / 2 ^ distance.toNat)) := by
  refine (Unary.shiftRight distance signed).apply_eq_wrap a.width_pos ?_
  rw [Unary.stored, reading_stored]
  exact if_neg (not_lt.2 hdistance)

theorem rotateLeft_eq_wrap {distance : Int} (hdistance : 0 ≤ distance) (a : Word) :
    a.rotateLeft distance =
      .ok (wrap a.width a.width_pos (a.stored.turned (distance.toNat % a.width))) := by
  refine (Unary.rotateLeft distance).apply_eq_wrap a.width_pos ?_
  rw [Unary.stored]
  exact if_neg (not_lt.2 hdistance)

theorem rotateRight_eq_wrap {distance : Int} (hdistance : 0 ≤ distance) (a : Word) :
    a.rotateRight distance =
      .ok (wrap a.width a.width_pos (a.stored.turned (a.width - distance.toNat % a.width))) := by
  refine (Unary.rotateRight distance).apply_eq_wrap a.width_pos ?_
  rw [Unary.stored]
  exact if_neg (not_lt.2 hdistance)

theorem resize_apply_eq_wrap {width : Nat} (hwidth : 0 < width) (a : Word) (signed : Bool) :
    (Unary.resize width signed).apply a = .ok (wrap width hwidth (a.reading signed)) :=
  (Unary.resize width signed).apply_eq_wrap hwidth (by rw [Unary.stored, reading_stored])

theorem stored_concat (high low : Word) :
    (high.concat low).toOption.map Word.stored = high.stored.concat low.stored := by
  refine (stored_widened high.width low.width _).trans ?_
  rw [← Nat.shiftLeft_add_eq_or_of_lt low.value_lt, stored_ofNat, Nat.shiftLeft_eq,
    Int.natCast_add, Int.natCast_mul, natCast_two_pow]
  rfl

end ExactCalc.Word
