import ExactCalc.Proofs.Word.Magnitude
import ExactCalc.Proofs.Word.Shift
import ExactCalc.Proofs.Word.Widths

/-!
The two orders of words of one width. Each is the order of one of the readings, and a word is known
by either of its readings, so both are total and their only equals are equal words. Flipping the
sign bit moves the signed reading up by half the modulus, where it is the value of another word. So
the signed order is the unsigned one of the flipped words: the same order for words of one sign, and
the opposite one for words of different signs.
-/

namespace ExactCalc.Word

variable {a b c : Word} {signed : Bool}

/-! ### Orders of readings -/

def Comparison.holds : Comparison → Int → Int → Bool
  | .lt, x, y => x < y
  | .le, x, y => x ≤ y
  | .gt, x, y => y < x
  | .ge, x, y => y ≤ x

theorem map_order_of_width_eq {condition : Prop} [Decidable condition] {read : Ordering → Bool}
    (h : a.width = b.width)
    (hread : read (compare (a.reading signed) (b.reading signed)) = true ↔ condition) :
    (a.order b signed).map read = .ok (decide condition) := by
  rw [order_of_width_eq h, ← Bool.eq_iff_iff.2 (hread.trans decide_eq_true_iff.symm)]
  rfl

/-- A test of the order is the comparison of the numbers that it goes by. -/
theorem Comparison.apply_of_width_eq (test : Comparison) (h : a.width = b.width) (signed : Bool) :
    test.apply a b signed = .ok (test.holds (a.reading signed) (b.reading signed)) := by
  cases test with
  | lt => exact map_order_of_width_eq h (Ordering.isLT_iff_eq_lt.trans Int.compare_eq_lt)
  | le => exact map_order_of_width_eq h Int.isLE_compare
  | gt => exact map_order_of_width_eq h (Ordering.isGT_iff_eq_gt.trans Int.compare_eq_gt)
  | ge => exact map_order_of_width_eq h Int.isGE_compare

theorem le_eq_ok_true_iff :
    a.le b signed = .ok true ↔ a.width = b.width ∧ a.reading signed ≤ b.reading signed := by
  by_cases h : a.width = b.width
  · have hle := Comparison.le.apply_of_width_eq h signed
    rw [Comparison.apply] at hle
    rw [hle, Except.ok.injEq, Comparison.holds, decide_eq_true_iff, and_iff_right h]
  · have hle := (Comparison.le.guarded a b signed).mismatch h
    rw [Comparison.apply] at hle
    rw [hle]
    exact iff_of_false nofun fun hboth => h hboth.1

/-- A word is known by either of its readings. -/
theorem eq_of_reading_eq (hwidth : a.width = b.width) (h : a.reading signed = b.reading signed) :
    a = b := by
  refine stored_injective (Option.some.inj ?_)
  rw [stored_eq_ofNumber a signed, stored_eq_ofNumber b signed, hwidth, h]

theorem le_or_le (h : a.width = b.width) (signed : Bool) :
    a.le b signed = .ok true ∨ b.le a signed = .ok true := by
  rw [le_eq_ok_true_iff, le_eq_ok_true_iff]
  exact (le_total _ _).imp (⟨h, ·⟩) (⟨h.symm, ·⟩)

theorem eq_of_le_of_le (hab : a.le b signed = .ok true) (hba : b.le a signed = .ok true) :
    a = b := by
  rw [le_eq_ok_true_iff] at hab hba
  exact eq_of_reading_eq hab.1 (le_antisymm hab.2 hba.2)

theorem le_of_le_of_le (hab : a.le b signed = .ok true) (hbc : b.le c signed = .ok true) :
    a.le c signed = .ok true := by
  rw [le_eq_ok_true_iff] at hab hbc ⊢
  exact ⟨hab.1.trans hbc.1, hab.2.trans hbc.2⟩

theorem order_eq_eq_iff : a.order b signed = .ok .eq ↔ a = b := by
  constructor
  · intro h
    have hwidth : a.width = b.width := by
      by_contra hne
      rw [(guarded_order a b signed).mismatch hne] at h
      contradiction
    rw [order_of_width_eq hwidth, Except.ok.injEq, Int.compare_eq_eq] at h
    exact eq_of_reading_eq hwidth h
  · rintro rfl
    rw [order_of_width_eq rfl, Int.compare_eq_eq.2 rfl]

theorem order?_eq_some_eq_iff : a.order? b = some .eq ↔ a = b := by
  rw [order?, toOption_eq_some_iff, order_eq_eq_iff]

theorem order_swap (h : a.width = b.width) (signed : Bool) :
    b.order a signed = (a.order b signed).map Ordering.swap := by
  rw [order_of_width_eq h, order_of_width_eq h.symm, ← Int.compare_swap]
  rfl

theorem least_of_width_eq (h : a.width = b.width) (signed : Bool) :
    a.least b signed = .ok (if a.reading signed ≤ b.reading signed then a else b) := by
  simp only [← Int.isLE_compare]
  rw [least, order_of_width_eq h]
  rfl

theorem greatest_of_width_eq (h : a.width = b.width) (signed : Bool) :
    a.greatest b signed = .ok (if b.reading signed ≤ a.reading signed then a else b) := by
  simp only [← Int.isGE_compare]
  rw [greatest, order_of_width_eq h]
  rfl

/-- Equal words are the one exception to the two choices being different ones, and there they do not
matter. -/
theorem exists_least_greatest (h : a.width = b.width) (signed : Bool) :
    ∃ low high, a.least b signed = .ok low ∧ a.greatest b signed = .ok high ∧
      low.le high signed = .ok true ∧ (low = a ∧ high = b ∨ low = b ∧ high = a) := by
  rw [least_of_width_eq h, greatest_of_width_eq h]
  rcases lt_trichotomy (a.reading signed) (b.reading signed) with hlt | heq | hgt
  · rw [if_pos hlt.le, if_neg (not_le.2 hlt)]
    exact ⟨a, b, rfl, rfl, le_eq_ok_true_iff.2 ⟨h, hlt.le⟩, .inl ⟨rfl, rfl⟩⟩
  · obtain rfl := eq_of_reading_eq h heq
    rw [if_pos le_rfl]
    exact ⟨a, a, rfl, rfl, le_eq_ok_true_iff.2 ⟨rfl, le_rfl⟩, .inl ⟨rfl, rfl⟩⟩
  · rw [if_neg (not_le.2 hgt), if_pos hgt.le]
    exact ⟨b, a, rfl, rfl, le_eq_ok_true_iff.2 ⟨h.symm, hgt.le⟩, .inr ⟨rfl, rfl⟩⟩

/-! ### One order by the other -/

/-- Flipping the sign bit turns the range of signed readings into that of values. -/
theorem xor_sign (a : Word) :
    ((a.value ^^^ 2 ^ (a.width - 1) : Nat) : Int) = a.toInt + 2 ^ (a.width - 1) := by
  have hsum := xor_add_two_mul_and a.value (2 ^ (a.width - 1))
  have hpow := two_pow_pred a.width_pos
  rw [Nat.and_two_pow] at hsum
  rw [toInt, hpow, ← natCast_two_pow]
  cases h : a.isNegative with
  | true =>
      rw [isNegative] at h
      rw [h, Bool.toNat_true] at hsum
      rw [if_pos rfl]
      omega
  | false =>
      rw [isNegative] at h
      rw [h, Bool.toNat_false] at hsum
      rw [if_neg Bool.false_ne_true]
      omega

def flipped (a : Word) : Word :=
  wrap a.width a.width_pos (a.toInt + 2 ^ (a.width - 1))

theorem value_flipped (a : Word) : (a.flipped.value : Int) = a.toInt + 2 ^ (a.width - 1) := by
  obtain ⟨hlow, hhigh⟩ := toInt_bounds a
  have hpow := two_pow_pred a.width_pos
  rw [flipped, value_wrap]
  exact Int.emod_eq_of_lt (by omega) (by omega)

theorem signBit_eq_wrap {width : Nat} (hwidth : 0 < width) :
    signBit width = .ok (wrap width hwidth (2 ^ (width - 1))) := by
  rw [signBit, ofNat_of_pos hwidth, truncate_eq_wrap, natCast_two_pow]

theorem xor_signBit {width : Nat} (hwidth : 0 < width) (h : a.width = width) :
    a.xor (wrap width hwidth (2 ^ (width - 1))) = .ok a.flipped := by
  subst h
  have hxor := Connective.xor.apply_eq_wrap (a := a)
    (b := wrap a.width hwidth (2 ^ (a.width - 1))) rfl
  rw [Connective.onNat, value_wrap_two_pow (Nat.sub_one_lt hwidth.ne'), xor_sign] at hxor
  exact hxor

theorem compare_add_right (x y z : Int) : compare (x + z) (y + z) = compare x y := by
  rw [← cmp_eq_compare, ← cmp_eq_compare, cmp_add_right]

theorem order_flipped (h : a.width = b.width) :
    a.order b true = a.flipped.order b.flipped false := by
  have h' : a.flipped.width = b.flipped.width := h
  rw [order_of_width_eq h, order_of_width_eq h', reading_false, reading_false, value_flipped,
    value_flipped, h, compare_add_right]
  rfl

/-- Both values are as far above the signed readings. -/
theorem order_of_isNegative_eq (hwidth : a.width = b.width) (h : a.isNegative = b.isNegative) :
    a.order b true = a.order b false := by
  have hvalue (c : Word) : (c.value : Int) = c.toInt + if c.isNegative then 2 ^ c.width else 0 := by
    rw [toInt]
    split <;> omega
  rw [order_of_width_eq hwidth, order_of_width_eq hwidth, reading_false, reading_false, hvalue a,
    hvalue b, h, hwidth, compare_add_right]
  rfl

/-- A set sign bit makes a word less by its signed reading and greater by its value. -/
theorem order_of_isNegative (hwidth : a.width = b.width) (ha : a.isNegative = true)
    (hb : b.isNegative = false) : a.order b true = .ok .lt ∧ a.order b false = .ok .gt := by
  have hvalue := (isNegative_iff a).1 ha
  have hvalue' := mt (isNegative_iff b).2 (Bool.eq_false_iff.1 hb)
  rw [isNegative_eq, decide_eq_true_iff] at ha
  rw [isNegative_eq, decide_eq_false_iff_not] at hb
  rw [hwidth] at hvalue
  rw [order_of_width_eq hwidth, order_of_width_eq hwidth, reading_true, reading_true,
    reading_false, reading_false, Int.compare_eq_lt.2 (by omega), Int.compare_eq_gt.2 (by omega)]
  exact ⟨rfl, rfl⟩

theorem order_of_isNegative_ne (hwidth : a.width = b.width) (h : a.isNegative ≠ b.isNegative) :
    ∃ o ≠ Ordering.eq, a.order b false = .ok o ∧ a.order b true = .ok o.swap := by
  cases ha : a.isNegative with
  | true =>
      rw [ha] at h
      have horders := order_of_isNegative hwidth ha (Bool.eq_false_iff.2 h.symm)
      exact ⟨.gt, nofun, horders.2, horders.1⟩
  | false =>
      rw [ha] at h
      have horders := order_of_isNegative hwidth.symm (Bool.eq_true_of_not_eq_false h.symm) ha
      refine ⟨.lt, nofun, ?_, ?_⟩
      · rw [order_swap hwidth.symm, horders.2]
        rfl
      · rw [order_swap hwidth.symm, horders.1]
        rfl

/-- The signed order of two words is the unsigned one of the words with flipped signs, the unsigned
order itself if the signs agree and its opposite if not. Each of the orders is total, with equal
words for its only equals, its tests compare the readings, and the lesser and the greater of two
words are these two. Words of different widths have no order. -/
theorem orders_consistent (a b c : Word) :
    (a.width = b.width →
      (∃ s a' b', signBit a.width = .ok s ∧ a.xor s = .ok a' ∧ b.xor s = .ok b' ∧
        a.order b true = a'.order b' false) ∧
      (a.isNegative = b.isNegative → a.order b true = a.order b false) ∧
      (a.isNegative ≠ b.isNegative →
        ∃ o ≠ Ordering.eq, a.order b false = .ok o ∧ a.order b true = .ok o.swap)) ∧
    (∀ signed, (a.order b signed = .ok .eq ↔ a = b) ∧
      (a.le b signed = .ok true → b.le a signed = .ok true → a = b) ∧
      (a.le b signed = .ok true → b.le c signed = .ok true → a.le c signed = .ok true) ∧
      (a.width = b.width →
        (a.le b signed = .ok true ∨ b.le a signed = .ok true) ∧
        b.order a signed = (a.order b signed).map Ordering.swap ∧
        a.order b signed = .ok (compare (a.reading signed) (b.reading signed)) ∧
        (∀ test : Comparison,
          test.apply a b signed = .ok (test.holds (a.reading signed) (b.reading signed))) ∧
        ∃ low high, a.least b signed = .ok low ∧ a.greatest b signed = .ok high ∧
          low.le high signed = .ok true ∧ (low = a ∧ high = b ∨ low = b ∧ high = a))) ∧
    (a.order? b = some .eq ↔ a = b) ∧ (a.order? b = none ↔ a.width ≠ b.width) := by
  refine ⟨fun h => ⟨?_, order_of_isNegative_eq h, order_of_isNegative_ne h⟩, fun signed => ?_,
    order?_eq_some_eq_iff, order?_eq_none_iff⟩
  · exact ⟨_, a.flipped, b.flipped, signBit_eq_wrap a.width_pos, xor_signBit a.width_pos rfl,
      xor_signBit a.width_pos h.symm, order_flipped h⟩
  · exact ⟨order_eq_eq_iff, eq_of_le_of_le, le_of_le_of_le, fun h => ⟨le_or_le h signed,
      order_swap h signed, order_of_width_eq h signed,
      fun test => test.apply_of_width_eq h signed, exists_least_greatest h signed⟩⟩

/-- Of three numbers of eight bits, two with one sign, the negative one is the least by its signed
reading and the greatest by its value. -/
theorem orders_consistent_of_eight_bits :
    let a := wrap 8 (by decide) (-1)
    let b := wrap 8 (by decide) 5
    let c := wrap 8 (by decide) 9
    a.width = b.width ∧ a.isNegative ≠ b.isNegative ∧ b.isNegative = c.isNegative ∧
      a.le b true = .ok true ∧ b.le c true = .ok true ∧ a.le c true = .ok true ∧
      (∃ o ≠ Ordering.eq, a.order b false = .ok o ∧ a.order b true = .ok o.swap) ∧
      b.order c true = b.order c false ∧
      ∃ low high, a.least b true = .ok low ∧ a.greatest b true = .ok high ∧
        (low = a ∧ high = b ∨ low = b ∧ high = a) := by
  intro a b c
  have hsigns : a.isNegative ≠ b.isNegative := by decide
  have hsigns' : b.isNegative = c.isNegative := by decide
  have hab : a.le b true = .ok true := by decide
  have hbc : b.le c true = .ok true := by decide
  obtain ⟨horders, hsigned, -⟩ := orders_consistent a b c
  obtain ⟨-, -, htrans, htotal⟩ := hsigned true
  obtain ⟨-, -, -, -, low, high, hlow, hhigh, -, hboth⟩ := htotal rfl
  exact ⟨rfl, hsigns, hsigns', hab, hbc, htrans hab hbc, (horders rfl).2.2 hsigns,
    ((orders_consistent b c a).1 rfl).2.1 hsigns', low, high, hlow, hhigh, hboth⟩

end ExactCalc.Word
