import ExactCalc.Proofs.Word.Moves
import ExactCalc.Proofs.Word.Widths

/-!
Words of other widths and what they read as. A wider word can keep the reading that it is extended
by. A word of any width is the one of the reading at that width, so going there and back loses
nothing exactly if the other width holds the reading, which every greater width does. This is one
argument for both readings.
-/

namespace ExactCalc.Word

variable {width extra i : Nat}

/-! ### Greater widths -/

/-- All places above a word have a copy of its sign. -/
theorem bit_extended_true (a : Word) (hi : i < a.width + extra) :
    (a.extended extra true).bit i = if i < a.width then a.bit i else a.isNegative := by
  rw [bit_eq_testBit, testBit_extended a true hi]
  split
  · next h =>
    have hplace : copied a.width true i = i := Nat.min_eq_left (Nat.le_sub_one_of_lt h)
    rw [hplace, bit_eq_testBit]
  · next h =>
    have hplace : copied a.width true i = a.width - 1 := Nat.min_eq_right (by omega)
    rw [hplace]
    rfl

/-! ### Any width -/

/-- Whichever way is taken, by cutting off bits or by filling in the signed reading, it is the word
of the signed reading. -/
theorem signResize_eq_ofInt (a : Word) (width : Nat) :
    a.signResize width = ofInt width a.toInt := by
  by_cases hwidth : 0 < width
  · rw [ofInt_of_pos hwidth]
    exact resize_apply_eq_wrap hwidth a true
  · obtain rfl : width = 0 := Nat.eq_zero_of_not_pos hwidth
    exact if_pos (Nat.zero_le _)

/-! ### There and back -/

/-- A word of a lesser width keeps its reading at a greater one. -/
theorem reading_wrap_reading (hwidth : 0 < width) (a : Word) (signed : Bool)
    (hle : a.width ≤ width) :
    (wrap width hwidth (a.reading signed)).reading signed = a.reading signed := by
  obtain ⟨extra, rfl⟩ := Nat.exists_eq_add_of_le hle
  exact reading_extended a extra signed

/-- Back from a lesser width a word reads as it does there, and back from a greater one nothing was
lost. -/
theorem resize_resize_iff (hwidth : 0 < width) (a : Word) (signed : Bool) :
    ((Unary.resize width signed).apply a >>= (Unary.resize a.width signed).apply) = .ok a ↔
      (wrap width hwidth (a.reading signed)).reading signed = a.reading signed ∨
        a.width ≤ width := by
  let b := wrap width hwidth (a.reading signed)
  have hback : ((Unary.resize width signed).apply a >>= (Unary.resize a.width signed).apply) =
      .ok (wrap a.width a.width_pos (b.reading signed)) := by
    rw [resize_apply_eq_wrap hwidth]
    exact resize_apply_eq_wrap a.width_pos b signed
  rw [hback, Except.ok.injEq]
  constructor
  · intro h
    rcases Nat.lt_or_ge width a.width with hlt | hge
    · have hreading := reading_wrap_reading a.width_pos b signed hlt.le
      rw [h] at hreading
      exact .inl hreading.symm
    · exact .inr hge
  · rintro (h | h)
    · rw [h, wrap_reading]
    · have hclass : b.reading signed ≡ a.reading signed [ZMOD 2 ^ a.width] :=
        (reading_wrap_modEq _ signed).of_dvd (pow_dvd_pow 2 h)
      rw [wrap_eq_wrap_iff.2 hclass, wrap_reading]

theorem resize_resize_eq_iff (hwidth : 0 < width) (a : Word) :
    (a.resize width >>= fun c => c.resize a.width) = .ok a ↔
      a.value < 2 ^ width ∨ a.width ≤ width := by
  refine (resize_resize_iff hwidth a false).trans (or_congr_left ?_)
  rw [reading_false, reading_false, Int.ofNat_inj, value_wrap_natCast]
  exact Nat.mod_eq_iff_lt (Nat.two_pow_pos width).ne'

theorem signResize_signResize_eq_iff (hwidth : 0 < width) (a : Word) :
    (a.signResize width >>= fun c => c.signResize a.width) = .ok a ↔
      (-2 ^ (width - 1) ≤ a.toInt ∧ a.toInt < 2 ^ (width - 1)) ∨ a.width ≤ width :=
  (resize_resize_iff hwidth a true).trans (or_congr_left toInt_wrap_eq_iff)

/-- An extension is refused only when it is too wide and keeps the reading that it is made by, with
copies of the sign above the word if that is the signed one. Resizing is refused only without bits
and gives the word of the reading at the width, and it can be undone exactly if that width holds the
reading. -/
theorem widths_changed (a : Word) (extra width : Nat) :
    (RefusedIff (a.extend extra) (maxWidth < a.width + extra) ∧
      RefusedIff (a.signExtend extra) (maxWidth < a.width + extra) ∧
      (a.width + extra ≤ maxWidth → ∃ z s, a.extend extra = .ok z ∧ a.signExtend extra = .ok s ∧
        (z.width = a.width + extra ∧ s.width = a.width + extra) ∧
        z.value = a.value ∧ s.toInt = a.toInt ∧
        ∀ i < a.width + extra, s.bit i = if i < a.width then a.bit i else a.isNegative)) ∧
    (RefusedIff (a.resize width) (width = 0) ∧ RefusedIff (a.signResize width) (width = 0) ∧
      (0 < width → ∃ r, a.resize width = .ok r ∧ r.width = width ∧
        r.value = a.value % 2 ^ width) ∧
      a.signResize width = ofInt width a.toInt) ∧
    (0 < width →
      ((a.resize width >>= fun c => c.resize a.width) = .ok a ↔
        a.value < 2 ^ width ∨ a.width ≤ width) ∧
      ((a.signResize width >>= fun c => c.signResize a.width) = .ok a ↔
        (-2 ^ (width - 1) ≤ a.toInt ∧ a.toInt < 2 ^ (width - 1)) ∨ a.width ≤ width)) := by
  have hsigned := signResize_eq_ofInt a width
  refine ⟨⟨refusedIff_extend a extra, refusedIff_signExtend a extra, fun hmax => ?_⟩,
    ⟨refusedIff_ofNat width a.value, hsigned ▸ refusedIff_ofInt width a.toInt,
      fun hwidth => ⟨_, ofNat_of_pos hwidth a.value, rfl, value_truncate ..⟩, hsigned⟩,
    fun hwidth => ⟨resize_resize_eq_iff hwidth a, signResize_signResize_eq_iff hwidth a⟩⟩
  exact ⟨a.extended extra false, a.extended extra true, extend_eq_extended hmax false,
    extend_eq_extended hmax true, ⟨rfl, rfl⟩, Int.ofNat_inj.1 (reading_extended a extra false),
    reading_extended a extra true, fun i hi => bit_extended_true a hi⟩

/-- Minus three in four bits has one bit more than it needs, and as an unsigned number none. -/
theorem widths_changed_of_minus_three :
    let a := wrap 4 (by decide) (-3)
    a.width + 4 ≤ maxWidth ∧ 0 < 3 ∧ 6 < a.width + 4 ∧
      ∃ s : Word, a.signExtend 4 = .ok s ∧ s.toInt = a.toInt ∧ s.bit 6 = a.isNegative ∧
        (a.signResize 3 >>= fun c => c.signResize a.width) = .ok a ∧
        (a.resize 3 >>= fun c => c.resize a.width) ≠ .ok a := by
  intro a
  have hmax : a.width + 4 ≤ maxWidth := by decide
  have hwidth : 0 < 3 := by decide
  have hplace : 6 < a.width + 4 := by decide
  obtain ⟨⟨-, -, hextend⟩, -, hback⟩ := widths_changed a 4 3
  obtain ⟨_, s, -, hs, -, -, hreading, hbits⟩ := hextend hmax
  obtain ⟨hunsigned, hsigned⟩ := hback hwidth
  refine ⟨hmax, hwidth, hplace, s, hs, hreading, hbits 6 hplace, hsigned.2 (by decide), ?_⟩
  exact fun h => absurd (hunsigned.1 h) (by decide)

end ExactCalc.Word
