import ExactCalc.Proofs.Word.Expression
import ExactCalc.Proofs.Word.Shift

/-!
Where the bits of a word go. A shift moves each bit by the distance and fills up with zeros or with
copies of the highest bit, which are the bits that an extension of the word has above it. A rotation
moves them around the circle of the places. So rotations to either side are one operation, by an
integer that counts modulo the width, and distances are added when one rotation follows another.
-/

namespace ExactCalc.Word

variable {a : Word} {width count i : Nat} {hwidth : 0 < width} {distance : Int}

/-! ### Bits -/

/-- There are no ones above the width, so its check makes no difference. -/
theorem bit_eq_testBit (a : Word) (i : Nat) : a.bit i = a.value.testBit i := by
  rw [bit]
  by_cases hi : i < a.width
  · rw [decide_eq_true hi, Bool.true_and]
  · rw [decide_eq_false hi, testBit_of_width_le (Nat.le_of_not_lt hi), Bool.and_self]

theorem bit_of_width_le (h : a.width ≤ i) : a.bit i = false :=
  (bit_eq_testBit a i).trans (testBit_of_width_le h)

theorem bit_wrap_natCast (n : Nat) (hi : i < width) :
    (wrap width hwidth n).bit i = n.testBit i := by
  rw [bit_eq_testBit, value_wrap_natCast, Nat.testBit_mod_two_pow, decide_eq_true hi,
    Bool.true_and]

theorem eq_of_bit {b : Word} (hwidth : a.width = b.width) (h : ∀ i < a.width, a.bit i = b.bit i) :
    a = b :=
  (eq_iff_bit ⟨a.width_pos, a.value_lt⟩ ⟨b.width_pos, b.value_lt⟩ hwidth).2 h

/-! ### Shifts -/

theorem bit_shiftedLeft (a : Word) (count : Nat) (hi : i < a.width) :
    (wrap a.width a.width_pos (a.value * 2 ^ count)).bit i =
      if i < count then false else a.bit (i - count) := by
  rw [← natCast_two_pow, ← Int.natCast_mul, bit_wrap_natCast _ hi, Nat.testBit_mul_two_pow]
  split
  · next h => rw [decide_eq_false (not_le.2 h), Bool.false_and]
  · next h => rw [decide_eq_true (not_lt.1 h), Bool.true_and, bit_eq_testBit]

/-- The lowest bits of a quotient depend on as many bits more of the dividend as are dropped. -/
theorem ediv_two_pow_modEq {x y : Int} (h : x ≡ y [ZMOD 2 ^ (width + count)]) :
    x / 2 ^ count ≡ y / 2 ^ count [ZMOD 2 ^ width] := by
  obtain ⟨c, hc⟩ := h.dvd
  have hne : (2 : Int) ^ count ≠ 0 := (Int.pow_pos (by decide)).ne'
  have hsplit : y = x + 2 ^ width * c * 2 ^ count := by
    rw [mul_right_comm, ← pow_add, ← hc, add_sub_cancel]
  rw [hsplit, Int.add_mul_ediv_right _ _ hne]
  exact Int.modEq_iff_dvd.2 ⟨c, by rw [add_sub_cancel_left]⟩

/-- What is moved in from above are the bits that an extension by the distance has there. -/
theorem bit_shiftedRight (a : Word) (count : Nat) (signed : Bool) (hi : i < a.width) :
    (wrap a.width a.width_pos (a.reading signed / 2 ^ count)).bit i =
      a.bit (copied a.width signed (i + count)) := by
  have hclass : a.reading signed ≡ (a.extended count signed).value [ZMOD 2 ^ (a.width + count)] :=
    (value_wrap_modEq _).symm
  have hlowest := ediv_two_pow_modEq hclass
  rw [← natCast_two_pow count, ← Int.natCast_ediv] at hlowest
  rw [← natCast_two_pow count, wrap_eq_wrap_iff.2 hlowest, bit_wrap_natCast _ hi,
    Nat.testBit_div_two_pow, testBit_extended a signed (Nat.add_lt_add_right hi count),
    bit_eq_testBit]

/-! ### Rotations -/

/-- The word with its bits moved up around the circle of its places, or down by a negative
distance. -/
def rotate (a : Word) (distance : Int) : Word :=
  wrap a.width a.width_pos (a.stored.turned (distance % a.width).toNat)

@[simp] theorem width_rotate (a : Word) (distance : Int) :
    (a.rotate distance).width = a.width := rfl

theorem rotate_congr {j k : Int} (h : j ≡ k [ZMOD a.width]) : a.rotate j = a.rotate k := by
  rw [rotate, rotate, h.eq]

/-- Each place is reached by one of the two parts alone. -/
theorem bit_turned (h : count ≤ a.width) (hi : i < a.width) :
    (wrap a.width a.width_pos (a.stored.turned count)).bit i =
      a.bit (if i < count then i + a.width - count else i - count) := by
  rw [← shiftLeft_or_shiftRight h, bit_wrap_natCast _ hi, Nat.testBit_or, Nat.testBit_shiftLeft,
    Nat.testBit_shiftRight, bit_eq_testBit]
  split
  · next hlow =>
    rw [decide_eq_false (not_le.2 hlow), Bool.false_and, Bool.false_or]
    congr 1
    omega
  · next hhigh =>
    have hzero : a.value.testBit (a.width - count + i) = false :=
      testBit_of_width_le (by omega)
    rw [decide_eq_true (not_lt.1 hhigh), Bool.true_and, hzero, Bool.or_false]

theorem turned_place (h : count ≤ width) (hi : i < width) :
    (if i < count then i + width - count else i - count) = ((i - count : Int) % width).toNat := by
  split
  · next hbelow =>
    have hplace : (i - count : Int) % width = i - count + width := by
      rw [← Int.add_emod_right]
      exact Int.emod_eq_of_lt (by omega) (by omega)
    omega
  · next habove =>
    have hplace : (i - count : Int) % width = i - count :=
      Int.emod_eq_of_lt (by omega) (by omega)
    omega

/-- The place that a bit comes from, counted around the circle. -/
theorem bit_rotate (a : Word) (distance : Int) (hi : i < a.width) :
    (a.rotate distance).bit i = a.bit ((i - distance) % a.width).toNat := by
  have hpos : (0 : Int) < a.width := Int.natCast_pos.2 a.width_pos
  have hlow := Int.emod_nonneg distance hpos.ne'
  have hhigh := Int.emod_lt_of_pos distance hpos
  have hle : (distance % a.width).toNat ≤ a.width := by omega
  rw [rotate, bit_turned hle hi, turned_place hle hi, Int.toNat_of_nonneg hlow,
    Int.sub_emod_emod]

/-- A full turn is allowed here and changes nothing. -/
theorem wrap_turned (h : count ≤ a.width) :
    wrap a.width a.width_pos (a.stored.turned count) = a.rotate count :=
  eq_of_bit rfl fun i hi => by rw [bit_turned h hi, turned_place h hi, bit_rotate a count hi]

theorem rotate_rotate (a : Word) (j k : Int) : (a.rotate j).rotate k = a.rotate (j + k) := by
  refine eq_of_bit rfl fun i hi => ?_
  have hpos : (0 : Int) < a.width := Int.natCast_pos.2 a.width_pos
  have hlow := Int.emod_nonneg (i - k) hpos.ne'
  have hhigh := Int.emod_lt_of_pos (i - k) hpos
  have hsum : ((i : Int) - k) % a.width - j ≡ i - (j + k) [ZMOD a.width] := by
    rw [add_comm, ← sub_sub]
    exact (Int.mod_modEq _ _).sub_right j
  rw [bit_rotate (a.rotate j) k hi, width_rotate, bit_rotate a j (by omega),
    Int.toNat_of_nonneg hlow, hsum.eq, bit_rotate a (j + k) hi]

theorem rotate_zero (a : Word) : a.rotate 0 = a := by
  refine eq_of_bit rfl fun i hi => ?_
  have hplace : ((i : Int) - 0) % a.width = i := by
    rw [sub_zero]
    exact Int.emod_eq_of_lt (Int.natCast_nonneg i) (Int.ofNat_lt.2 hi)
  rw [bit_rotate a 0 hi, hplace, Int.toNat_natCast]

theorem rotate_of_dvd (h : (a.width : Int) ∣ distance) : a.rotate distance = a :=
  (rotate_congr (Int.modEq_zero_iff_dvd.2 h)).trans (rotate_zero a)

/-! ### The two sides -/

/-- Nothing is done past a negative amount. -/
theorem bind_amount_of_neg (move : BitMove) (h : distance < 0) (next : Nat → Except Fault Word) :
    (amount move distance >>= next) = .error (.negativeAmount move distance) := by
  rw [amount, if_pos h]
  rfl

theorem rotateLeft_natCast (a : Word) (count : Nat) :
    a.rotateLeft count = .ok (a.rotate count) := by
  have hcongr : ((count % a.width : Nat) : Int) ≡ count [ZMOD a.width] :=
    Int.natCast_modEq_iff.2 (Nat.mod_modEq _ _)
  rw [rotateLeft_eq_wrap (Int.natCast_nonneg count), Int.toNat_natCast,
    wrap_turned (Nat.mod_lt _ a.width_pos).le, rotate_congr hcongr]

/-- What is left of a full turn, to the other side. -/
theorem rotateRight_natCast (a : Word) (count : Nat) :
    a.rotateRight count = .ok (a.rotate (-count)) := by
  have hcongr : (a.width - count % a.width : Nat) ≡ -(count : Int) [ZMOD a.width] := by
    rw [Nat.cast_sub (Nat.mod_lt _ a.width_pos).le, sub_eq_add_neg]
    exact Int.add_modEq_left.trans (Int.natCast_modEq_iff.2 (Nat.mod_modEq _ _)).neg
  rw [rotateRight_eq_wrap (Int.natCast_nonneg count), Int.toNat_natCast,
    wrap_turned (Nat.sub_le _ _), rotate_congr hcongr]

/-- A rotation after another one adds its distance, to whichever sides they go. -/
theorem bind_rotate {next : Word → Except Fault Word} {k : Int}
    (hnext : ∀ b, next b = .ok (b.rotate k)) (a : Word) (j : Int) :
    (.ok (a.rotate j) >>= next) = .ok (a.rotate (j + k)) :=
  (hnext (a.rotate j)).trans (congrArg _ (rotate_rotate a j k))

theorem rotateLeft_rotateLeft (a : Word) (j k : Nat) :
    (a.rotateLeft j >>= fun b => b.rotateLeft k) = a.rotateLeft ((j + k) % a.width : Nat) := by
  have hcongr : (j + k : Int) ≡ ((j + k) % a.width : Nat) [ZMOD a.width] :=
    (Int.natCast_modEq_iff.2 (Nat.mod_modEq (j + k) a.width)).symm
  rw [rotateLeft_natCast a j, bind_rotate fun b => rotateLeft_natCast b k, rotate_congr hcongr,
    rotateLeft_natCast]

theorem rotateRight_rotateRight (a : Word) (j k : Nat) :
    (a.rotateRight j >>= fun b => b.rotateRight k) = a.rotateRight ((j + k) % a.width : Nat) := by
  have hcongr : (-j + -k : Int) ≡ -((j + k) % a.width : Nat) [ZMOD a.width] := by
    rw [← neg_add]
    exact (Int.natCast_modEq_iff.2 (Nat.mod_modEq (j + k) a.width)).symm.neg
  rw [rotateRight_natCast a j, bind_rotate fun b => rotateRight_natCast b k, rotate_congr hcongr,
    rotateRight_natCast]

theorem rotateRight_rotateLeft (a : Word) (k : Nat) :
    (a.rotateLeft k >>= fun b => b.rotateRight k) = .ok a := by
  rw [rotateLeft_natCast a k, bind_rotate fun b => rotateRight_natCast b k, add_neg_cancel,
    rotate_zero]

theorem rotateLeft_rotateRight (a : Word) (k : Nat) :
    (a.rotateRight k >>= fun b => b.rotateLeft k) = .ok a := by
  rw [rotateRight_natCast a k, bind_rotate fun b => rotateLeft_natCast b k, neg_add_cancel,
    rotate_zero]

/-- Negative amounts are refused. Otherwise each bit of a shifted or rotated word is the bit at its
own place moved back, with zeros or copies of the highest bit beyond the ends and around the circle
in a rotation. Rotations to one side add their amounts, those to different sides undo one another,
and whole turns change nothing. -/
theorem moved_bits (a : Word) (j k : Nat) :
    (∀ distance < 0, a.shiftLeft distance = .error (.negativeAmount .shift distance) ∧
      (∀ signed, a.shiftRight distance signed = .error (.negativeAmount .shift distance)) ∧
      a.rotateLeft distance = .error (.negativeAmount .rotation distance) ∧
      a.rotateRight distance = .error (.negativeAmount .rotation distance) ∧
      ∀ move, (Fault.negativeAmount move distance).kind = .argument) ∧
    (∃ l r s u v : Word, a.shiftLeft k = .ok l ∧ a.shiftRight k false = .ok r ∧
      a.shiftRight k true = .ok s ∧ a.rotateLeft k = .ok u ∧ a.rotateRight k = .ok v ∧
      (l.width = a.width ∧ r.width = a.width ∧ s.width = a.width ∧ u.width = a.width ∧
        v.width = a.width) ∧
      ∀ i < a.width,
        l.bit i = (if i < k then false else a.bit (i - k)) ∧
        r.bit i = (if i + k < a.width then a.bit (i + k) else false) ∧
        s.bit i = a.bit (min (i + k) (a.width - 1)) ∧
        u.bit i = a.bit ((i - k : Int) % a.width).toNat ∧
        v.bit i = a.bit ((i + k) % a.width)) ∧
    (a.rotateLeft j >>= fun b => b.rotateLeft k) = a.rotateLeft ((j + k) % a.width : Nat) ∧
    (a.rotateRight j >>= fun b => b.rotateRight k) = a.rotateRight ((j + k) % a.width : Nat) ∧
    (a.rotateLeft k >>= fun b => b.rotateRight k) = .ok a ∧
    (a.rotateRight k >>= fun b => b.rotateLeft k) = .ok a ∧
    a.rotateLeft (k * a.width : Nat) = .ok a ∧ a.rotateRight (k * a.width : Nat) = .ok a := by
  have hdvd : (a.width : Int) ∣ (k * a.width : Nat) :=
    Int.natCast_dvd_natCast.2 (Nat.dvd_mul_left a.width k)
  refine ⟨fun distance h => ?_, ⟨_, _, _, _, _, shiftLeft_natCast a k,
    shiftRight_natCast a k false, shiftRight_natCast a k true, rotateLeft_natCast a k,
    rotateRight_natCast a k, ⟨rfl, rfl, rfl, rfl, rfl⟩, fun i hi => ⟨bit_shiftedLeft a k hi, ?_,
      bit_shiftedRight a k true hi, bit_rotate a k hi, ?_⟩⟩, rotateLeft_rotateLeft a j k,
    rotateRight_rotateRight a j k, rotateRight_rotateLeft a k, rotateLeft_rotateRight a k, ?_, ?_⟩
  · exact ⟨bind_amount_of_neg .shift h _, fun _ => bind_amount_of_neg .shift h _,
      bind_amount_of_neg .rotation h _, bind_amount_of_neg .rotation h _, fun _ => rfl⟩
  · rw [bit_shiftedRight a k false hi]
    split
    · rfl
    · next h => exact bit_of_width_le (not_lt.1 h)
  · rw [bit_rotate a _ hi, sub_neg_eq_add]
    rfl
  · rw [rotateLeft_natCast, rotate_of_dvd hdvd]
  · rw [rotateRight_natCast, rotate_of_dvd (Int.dvd_neg.2 hdvd)]

/-- Five bits rotated by more than a full turn and shifted right by more than the width. -/
theorem moved_bits_of_five_bits :
    let a := wrap 5 (by decide) 0b10011
    (-1 : Int) < 0 ∧ a.shiftLeft (-1) = .error (.negativeAmount .shift (-1)) ∧ 3 < a.width ∧
      ∃ s u : Word, a.shiftRight 7 true = .ok s ∧ a.rotateLeft 7 = .ok u ∧
        s.bit 3 = a.bit 4 ∧ u.bit 3 = a.bit 1 ∧
        (a.rotateLeft 4 >>= fun b => b.rotateLeft 7) = a.rotateLeft 1 := by
  intro a
  have hneg : (-1 : Int) < 0 := by decide
  have hplace : 3 < a.width := by decide
  obtain ⟨hrefused, ⟨_, _, s, u, _, -, -, hs, hu, -, -, hbits⟩, hsum, -⟩ := moved_bits a 4 7
  obtain ⟨-, -, hsbit, hubit, -⟩ := hbits 3 hplace
  have hturns : (4 + 7) % a.width = 1 := by decide
  rw [hturns] at hsum
  exact ⟨hneg, (hrefused (-1) hneg).1, hplace, s, u, hs, hu, hsbit, hubit, hsum⟩

end ExactCalc.Word
