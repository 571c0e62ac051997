import ExactCalc.Proofs.Word.Division
import ExactCalc.Proofs.Word.Logic

/-!
Words with more bits and the same reading. Zeros above a word keep its value, copies of its sign
bit keep its signed reading. An operation that forms a number from readings forms the same number
once its operands are extended, so it can be done before or after the extension wherever the
lesser width holds that number. One quotient alone does not fit: the least number divided by `-1`.
The connectives are taken bit by bit, since each bit above a word is a copy of one of its bits or
zero.
-/

namespace ExactCalc.Word

variable {a b : Word} {width extra i : Nat} {signed : Bool} {distance : Int}

@[simp] theorem reading_false (a : Word) : a.reading false = a.value := rfl

@[simp] theorem reading_true (a : Word) : a.reading true = a.toInt := rfl

/-- The word of `extra` more bits with the same reading. -/
def extended (a : Word) (extra : Nat) (signed : Bool) : Word :=
  wrap (a.width + extra) (Nat.add_pos_left a.width_pos extra) (a.reading signed)

@[simp] theorem width_extended (a : Word) (extra : Nat) (signed : Bool) :
    (a.extended extra signed).width = a.width + extra := rfl

theorem extend_eq_extended (hmax : a.width + extra ≤ maxWidth) (signed : Bool) :
    (Unary.extend extra signed).apply a = .ok (a.extended extra signed) := by
  refine (Unary.extend extra signed).apply_eq_wrap _ ?_
  rw [Unary.stored, reading_stored]
  exact if_pos hmax

@[simp] theorem reading_extended (a : Word) (extra : Nat) (signed : Bool) :
    (a.extended extra signed).reading signed = a.reading signed := by
  cases signed with
  | false =>
      have hlt : a.value < 2 ^ (a.width + extra) :=
        lt_two_pow_of_le a.value_lt (Nat.le_add_right _ _)
      exact congrArg _ (value_wrap_of_lt _ hlt)
  | true =>
      obtain ⟨hlow, hhigh⟩ := toInt_bounds a
      have hle : (2 : Int) ^ (a.width - 1) ≤ 2 ^ (a.width + extra - 1) :=
        pow_le_pow_right₀ (by decide) (by omega)
      rw [reading_true, reading_true]
      exact toInt_wrap_eq_iff.2 ⟨by rw [reading_true]; omega, by rw [reading_true]; omega⟩

theorem reading_eq_zero_iff (a : Word) (signed : Bool) : a.reading signed = 0 ↔ a.value = 0 := by
  cases signed with
  | false => exact Int.natCast_eq_zero
  | true =>
      rw [reading_true]
      constructor
      · intro h
        by_contra hne
        exact toInt_ne_zero hne h
      · intro h
        simp [toInt, isNegative, h]

/-- Two results, one at each width. Both are words, and the narrow one extends to the wide one. -/
def Extends (extra : Nat) (signed : Bool) (narrow wide : Except Fault Word) : Prop :=
  ∃ c c', narrow = .ok c ∧ wide = .ok c' ∧ (Unary.extend extra signed).apply c = .ok c'

/-! ### Numbers formed from readings -/

theorem extends_wrap_iff {hwidth : 0 < width} {hwidth' : 0 < width + extra} {i : Int}
    (hmax : width + extra ≤ maxWidth) :
    Extends extra signed (.ok (wrap width hwidth i)) (.ok (wrap (width + extra) hwidth' i)) ↔
      (wrap width hwidth i).reading signed ≡ i [ZMOD 2 ^ (width + extra)] := by
  rw [← @wrap_eq_wrap_iff _ hwidth']
  constructor
  · rintro ⟨c, c', hc, hc', h⟩
    obtain rfl := Except.ok.inj hc
    obtain rfl := Except.ok.inj hc'
    rw [extend_eq_extended hmax] at h
    exact Except.ok.inj h
  · intro h
    exact ⟨_, _, rfl, rfl, (extend_eq_extended hmax signed).trans (congrArg _ h)⟩

/-- A number that is formed at both widths can be extended if the lesser width holds it. -/
theorem extends_of_reading {hwidth : 0 < width} {hwidth' : 0 < width + extra} {i : Int}
    (hmax : width + extra ≤ maxWidth) (hfits : (wrap width hwidth i).reading signed = i) :
    Extends extra signed (.ok (wrap width hwidth i)) (.ok (wrap (width + extra) hwidth' i)) :=
  (extends_wrap_iff hmax).2 (congrArg (· % _) hfits)

/-- A number between zero and the reading of a word fits the width of the word. -/
theorem reading_wrap_of_between (signed : Bool) {i : Int}
    (h : (0 ≤ a.reading signed → 0 ≤ i ∧ i ≤ a.reading signed) ∧
      (a.reading signed ≤ 0 → a.reading signed ≤ i ∧ i ≤ 0)) :
    (wrap a.width a.width_pos i).reading signed = i := by
  obtain ⟨hnonneg, hnonpos⟩ := h
  cases signed with
  | false =>
      rw [reading_false] at hnonneg ⊢
      have hlt := value_lt_two_pow a
      obtain ⟨hlow, hhigh⟩ := hnonneg (Int.natCast_nonneg _)
      have hvalue := value_wrap a.width a.width_pos i
      rw [Int.emod_eq_of_lt hlow (Int.lt_of_le_of_lt hhigh hlt)] at hvalue
      exact hvalue
  | true =>
      rw [reading_true] at hnonneg hnonpos
      obtain ⟨hlow, hhigh⟩ := toInt_bounds a
      refine toInt_wrap_eq_iff.2 ?_
      rcases Int.le_total 0 a.toInt with hsign | hsign
      · have := hnonneg hsign
        omega
      · have := hnonpos hsign
        omega

/-- A quotient by a positive number lies between zero and the dividend. -/
theorem ediv_between (x : Int) {y : Int} (hy : 0 < y) :
    (0 ≤ x → 0 ≤ x / y ∧ x / y ≤ x) ∧ (x ≤ 0 → x ≤ x / y ∧ x / y ≤ 0) := by
  constructor
  · intro hx
    exact ⟨Int.ediv_nonneg hx hy.le, Int.ediv_le_self y hx⟩
  · intro hx
    have hproduct : x * y ≤ x * 1 := Int.mul_le_mul_of_nonpos_left hx hy
    exact ⟨(Int.le_ediv_iff_mul_le hy).2 (by omega), Int.ediv_nonpos_of_nonpos_of_neg hx hy⟩

/-- A distance between the two widths leaves the sign of both words. -/
theorem extends_shiftRight (hdistance : 0 ≤ distance) (hmax : a.width + extra ≤ maxWidth)
    (signed : Bool) :
    Extends extra signed (a.shiftRight distance signed)
      ((a.extended extra signed).shiftRight distance signed) := by
  have hpos : (0 : Int) < 2 ^ distance.toNat := Int.pow_pos (by decide)
  rw [shiftRight_eq_wrap hdistance, shiftRight_eq_wrap hdistance, reading_extended]
  exact extends_of_reading hmax (reading_wrap_of_between signed (ediv_between _ hpos))

theorem extends_not (hmax : a.width + extra ≤ maxWidth) :
    Extends extra true (.ok a.not) (.ok (a.extended extra true).not) := by
  have hnot (c : Word) : c.not = wrap c.width c.width_pos (-1 - c.reading true) := by
    rw [reading_true, ← toInt_not]
    exact (wrap_toInt c.not).symm
  rw [hnot, hnot, reading_extended]
  refine extends_of_reading hmax ?_
  rw [← hnot]
  exact toInt_not a

theorem order_extended (h : a.width = b.width) (extra : Nat) (signed : Bool) :
    (a.extended extra signed).order (b.extended extra signed) signed = a.order b signed := by
  have h' : (a.extended extra signed).width = (b.extended extra signed).width := by
    rw [width_extended, width_extended, h]
  rw [order_of_width_eq h, order_of_width_eq h', reading_extended, reading_extended]

/-! ### Division -/

def Division.isSigned : Division → Bool
  | .udiv | .urem | .quotient | .remainder => false
  | .sdiv | .srem | .smod => true

theorem Division.number_congr (op : Division) {s s' t t' : Stored}
    (hs : s.reading op.isSigned = s'.reading op.isSigned)
    (ht : t.reading op.isSigned = t'.reading op.isSigned) : op.number s t = op.number s' t' := by
  cases op with
  | udiv | quotient => exact congrArg₂ (· / ·) hs ht
  | urem | remainder => exact congrArg₂ (· % ·) hs ht
  | sdiv => exact congrArg₂ Int.tdiv hs ht
  | srem => exact congrArg₂ Int.tmod hs ht
  | smod => exact congrArg₂ Int.fmod hs ht

/-- Both widths divide the same readings. -/
theorem Division.apply_extended (op : Division) (hwidth : a.width = b.width)
    (hdivisor : b.value ≠ 0) (extra : Nat) :
    op.apply (a.extended extra op.isSigned) (b.extended extra op.isSigned) =
      .ok (wrap (a.width + extra) (Nat.add_pos_left a.width_pos extra)
        (op.number a.stored b.stored)) := by
  have hwidth' : (a.extended extra op.isSigned).width = (b.extended extra op.isSigned).width := by
    rw [width_extended, width_extended, hwidth]
  have hdivisor' : (b.extended extra op.isSigned).value ≠ 0 := by
    rwa [ne_eq, ← reading_eq_zero_iff _ op.isSigned, reading_extended, reading_eq_zero_iff]
  rw [op.apply_eq_wrap hwidth' hdivisor']
  congr 2
  apply op.number_congr <;> rw [reading_stored, reading_stored, reading_extended]

/-- Of all quotients and remainders only a signed quotient may not fit. -/
theorem Division.reading_wrap_number {op : Division} (hop : op ≠ .sdiv)
    (hwidth : a.width = b.width) (hdivisor : b.value ≠ 0) :
    (wrap a.width a.width_pos (op.number a.stored b.stored)).reading op.isSigned =
      op.number a.stored b.stored := by
  have hpos : (0 : Int) < b.value := by omega
  cases op with
  | udiv | quotient => exact reading_wrap_of_between false (ediv_between _ hpos)
  | urem | remainder =>
      have hle := Nat.mod_le a.value b.value
      have hnumber : (a.value : Int) % b.value = (a.value % b.value : Nat) := rfl
      refine reading_wrap_of_between false ?_
      rw [reading_false, number, value_stored, value_stored, hnumber]
      omega
  | sdiv => contradiction
  | srem =>
      rw [number, reading_stored, reading_stored]
      exact toInt_srem a b
  | smod =>
      rw [number, reading_stored, reading_stored]
      exact toInt_smod hwidth hdivisor

theorem Division.extends_apply {op : Division} (hop : op ≠ .sdiv) (hwidth : a.width = b.width)
    (hdivisor : b.value ≠ 0) (hmax : a.width + extra ≤ maxWidth) :
    Extends extra op.isSigned (op.apply a b)
      (op.apply (a.extended extra op.isSigned) (b.extended extra op.isSigned)) := by
  rw [op.apply_eq_wrap hwidth hdivisor, op.apply_extended hwidth hdivisor]
  exact extends_of_reading hmax (reading_wrap_number hop hwidth hdivisor)

/-- The signed quotient that does not fit the lesser width is wrapped there, and not at the greater
one. -/
theorem extends_sdiv_iff (hwidth : a.width = b.width) (hdivisor : b.value ≠ 0)
    (hmax : a.width + extra ≤ maxWidth) :
    Extends extra true (a.sdiv b) ((a.extended extra true).sdiv (b.extended extra true)) ↔
      ¬(0 < extra ∧ a.toInt = -2 ^ (a.width - 1) ∧ b.toInt = -1) := by
  have hwide : (a.extended extra true).sdiv (b.extended extra true) =
      .ok (wrap (a.width + extra) (Nat.add_pos_left a.width_pos extra)
        (a.toInt.tdiv b.toInt)) := by
    have h := Division.sdiv.apply_extended hwidth hdivisor extra
    rwa [Division.number, reading_stored, reading_stored] at h
  rw [sdiv_eq_wrap hwidth hdivisor, hwide, extends_wrap_iff hmax, reading_true,
    toInt_sdiv hdivisor]
  by_cases hleast : a.toInt = -2 ^ (a.width - 1) ∧ b.toInt = -1
  · have hquotient : a.toInt.tdiv b.toInt = 2 ^ (a.width - 1) := by
      rw [hleast.1, hleast.2, Int.tdiv_neg, Int.tdiv_one, Int.neg_neg]
    have hdouble : (2 : Int) ^ (a.width - 1) - -2 ^ (a.width - 1) = 2 ^ a.width := by
      rw [two_pow_pred a.width_pos]
      omega
    rw [if_pos hleast, hquotient, Int.modEq_iff_dvd, hdouble, ← natCast_two_pow,
      ← natCast_two_pow, Int.natCast_dvd_natCast, Nat.pow_dvd_pow_iff_le_right (by decide)]
    constructor
    · omega
    · intro h
      by_contra hpos
      exact h ⟨by omega, hleast⟩
  · rw [if_neg hleast]
    exact iff_of_true rfl fun h => hleast h.2

/-! ### Connectives -/

/-- Ones above a negative word. -/
theorem value_extended_of_isNegative (h : a.isNegative = true) (extra : Nat) :
    (a.extended extra true).value = 2 ^ a.width * (2 ^ extra - 1) + a.value := by
  have hpos := Nat.two_pow_pos extra
  have hsplit : 2 ^ a.width * (2 ^ extra - 1) + 2 ^ a.width = 2 ^ (a.width + extra) := by
    rw [← Nat.mul_succ, Nat.succ_eq_add_one, Nat.sub_add_cancel hpos, Nat.pow_add]
  have hclass : a.toInt ≡ (2 ^ a.width * (2 ^ extra - 1) + a.value : Nat)
      [ZMOD 2 ^ (a.width + extra)] := by
    refine Int.modEq_iff_dvd.2 ⟨1, ?_⟩
    rw [toInt, if_pos h, ← natCast_two_pow, ← natCast_two_pow, ← hsplit]
    omega
  have hlt := a.value_lt
  rw [extended, reading_true, wrap_eq_wrap_iff.2 hclass, value_wrap_of_lt]
  omega

theorem value_extended_of_not_isNegative (h : a.isNegative = false) (extra : Nat) :
    (a.extended extra true).value = a.value := by
  have hlt : a.value < 2 ^ (a.width + extra) := lt_two_pow_of_le a.value_lt (Nat.le_add_right _ _)
  rw [extended, reading_true, toInt, h, if_neg Bool.false_ne_true, value_wrap_of_lt _ hlt]

theorem testBit_of_width_le (h : a.width ≤ i) : a.value.testBit i = false :=
  Nat.testBit_lt_two_pow (lt_two_pow_of_le a.value_lt h)

/-- The place in a word of the bit that is at place `i` of its extension. With a sign all places
above the word are copied from its highest bit. -/
def copied (width : Nat) (signed : Bool) (i : Nat) : Nat :=
  if signed then min i (width - 1) else i

theorem testBit_extended (a : Word) (signed : Bool) (h : i < a.width + extra) :
    (a.extended extra signed).value.testBit i = a.value.testBit (copied a.width signed i) := by
  cases signed with
  | false =>
      have hvalue : (a.extended extra false).value = a.value :=
        Int.ofNat_inj.1 (reading_extended a extra false)
      rw [hvalue]
      rfl
  | true =>
      have hbelow (hi : i < a.width) : copied a.width true i = i := Nat.min_eq_left (by omega)
      have habove (hi : ¬i < a.width) : copied a.width true i = a.width - 1 :=
        Nat.min_eq_right (by omega)
      cases hsign : a.isNegative with
      | false =>
          rw [value_extended_of_not_isNegative hsign]
          by_cases hi : i < a.width
          · rw [hbelow hi]
          · rw [habove hi, testBit_of_width_le (Nat.le_of_not_lt hi)]
            exact hsign.symm
      | true =>
          rw [value_extended_of_isNegative hsign, Nat.testBit_two_pow_mul_add _ a.value_lt]
          by_cases hi : i < a.width
          · rw [if_pos hi, hbelow hi]
          · rw [if_neg hi, habove hi, Nat.testBit_two_pow_sub_one, decide_eq_true (by omega)]
            exact hsign.symm

/-- The bits that a connective puts above the word are made of the copies that stand there. -/
theorem Connective.extends_apply (op : Connective) (hwidth : a.width = b.width)
    (hmax : a.width + extra ≤ maxWidth) (signed : Bool) :
    Extends extra signed (op.binary.apply a b)
      (op.binary.apply (a.extended extra signed) (b.extended extra signed)) := by
  have hwidth' : (a.extended extra signed).width = (b.extended extra signed).width := by
    rw [width_extended, width_extended, hwidth]
  let c := wrap a.width a.width_pos (op.onNat a.value b.value : Nat)
  have hc : c.width + extra ≤ maxWidth := hmax
  refine ⟨c, _, op.apply_eq_wrap hwidth, op.apply_eq_wrap hwidth', ?_⟩
  rw [extend_eq_extended hc]
  refine congrArg _ (ext rfl (Nat.eq_of_testBit_eq fun i => ?_))
  by_cases hi : i < a.width + extra
  · have hib : i < b.width + extra := hwidth ▸ hi
    rw [testBit_extended c signed hi, op.value_apply hwidth, op.value_apply hwidth',
      op.testBit_onNat, op.testBit_onNat, testBit_extended a signed hi,
      testBit_extended b signed hib, width_wrap, hwidth]
  · rw [testBit_of_width_le (Nat.le_of_not_lt hi), testBit_of_width_le (Nat.le_of_not_lt hi)]

/-- Words can be extended before or after an operation that reads them with the same sign: the
connectives, shifts to the right by any distance, the order, division, and with a sign also the
complement. The one exception is the signed quotient that the lesser width does not hold. -/
theorem extension_commutes (hwidth : a.width = b.width) (hmax : a.width + extra ≤ maxWidth)
    (hdistance : 0 ≤ distance) (signed : Bool) :
    ∃ a' b' ordering, (Unary.extend extra signed).apply a = .ok a' ∧
      (Unary.extend extra signed).apply b = .ok b' ∧
      (∀ op : Connective, Extends extra signed (op.binary.apply a b) (op.binary.apply a' b')) ∧
      Extends extra signed (a.shiftRight distance signed) (a'.shiftRight distance signed) ∧
      (a.order b signed = .ok ordering ∧ a'.order b' signed = .ok ordering) ∧
      (b.value ≠ 0 → ∀ op : Division, op.isSigned = signed → op ≠ .sdiv →
        Extends extra signed (op.apply a b) (op.apply a' b')) ∧
      (signed = true → Extends extra signed (.ok a.not) (.ok a'.not)) ∧
      (signed = true → b.value ≠ 0 → (Extends extra signed (a.sdiv b) (a'.sdiv b') ↔
        ¬(0 < extra ∧ a.toInt = -2 ^ (a.width - 1) ∧ b.toInt = -1))) := by
  have hmax' : b.width + extra ≤ maxWidth := hwidth ▸ hmax
  refine ⟨a.extended extra signed, b.extended extra signed, _, extend_eq_extended hmax signed,
    extend_eq_extended hmax' signed, fun op => op.extends_apply hwidth hmax signed,
    extends_shiftRight hdistance hmax signed,
    ⟨order_of_width_eq hwidth signed, (order_extended hwidth extra signed).trans
      (order_of_width_eq hwidth signed)⟩, ?_, ?_, ?_⟩
  · rintro hdivisor op rfl hop
    exact Division.extends_apply hop hwidth hdivisor hmax
  · rintro rfl
    exact extends_not hmax
  · rintro rfl hdivisor
    exact extends_sdiv_iff hwidth hdivisor hmax

/-- The least number of four bits by `-1`, extended to eight, and a distance between the widths. -/
theorem extension_commutes_of_least :
    let a := wrap 4 (by decide) (-8)
    let b := wrap 4 (by decide) (-1)
    a.width = b.width ∧ a.width + 4 ≤ maxWidth ∧ (0 : Int) ≤ 6 ∧ b.value ≠ 0 ∧
      ∃ a' b' : Word, a.signExtend 4 = .ok a' ∧ b.signExtend 4 = .ok b' ∧
        Extends 4 true (a.xor b) (a'.xor b') ∧
        Extends 4 true (a.shiftRight 6 true) (a'.shiftRight 6 true) ∧
        Extends 4 true (a.smod b) (a'.smod b') ∧
        Extends 4 true (.ok a.not) (.ok a'.not) ∧
        ¬Extends 4 true (a.sdiv b) (a'.sdiv b') := by
  intro a b
  have hwidth : a.width = b.width := rfl
  have hmax : a.width + 4 ≤ maxWidth := by decide
  have hdistance : (0 : Int) ≤ 6 := by decide
  have hdivisor : b.value ≠ 0 := by decide
  obtain ⟨a', b', -, ha, hb, hlogic, hshift, -, hdivision, hnot, hsdiv⟩ :=
    extension_commutes hwidth hmax hdistance true
  refine ⟨hwidth, hmax, hdistance, hdivisor, a', b', ha, hb, hlogic .xor, hshift,
    hdivision hdivisor .smod rfl (by simp), hnot rfl, fun h => ?_⟩
  exact (hsdiv rfl hdivisor).1 h ⟨by decide, by decide, by decide⟩

end ExactCalc.Word
