import ExactCalc.Proofs.Word.Operations

/-!
Cutting words down to their lowest bits. The lowest bits of a sum, a difference, a product, a
negation or a shift to the left depend on the lowest bits of the operands alone, since words are
residues, and in the logic on bits this holds of every bit. So it makes no difference whether words
are cut before such an operation or after it. The three ways to cut a word are the same.
-/

namespace ExactCalc.Word

open Stored

variable {op : Binary} {a b : Word} {width : Nat}

theorem resize_eq_wrap (hwidth : 0 < width) (a : Word) :
    a.resize width = .ok (wrap width hwidth a.value) :=
  resize_apply_eq_wrap hwidth a false

/-- A word made at the greater width is cut to the one made at the lesser width. -/
theorem resize_wrap {greater : Nat} {hgreater : 0 < greater} (hwidth : 0 < width)
    (hle : width ≤ greater) (i : Int) :
    (wrap greater hgreater i).resize width = .ok (wrap width hwidth i) := by
  have hclass : ((wrap greater hgreater i).value : Int) ≡ i [ZMOD 2 ^ width] :=
    (value_wrap_modEq i).of_dvd (pow_dvd_pow 2 hle)
  rw [resize_eq_wrap hwidth, wrap_eq_wrap_iff.2 hclass]

/-! ### One word -/

/-- An operation that forms its number from the value by steps that respect residues can be done
after the cut as well. -/
theorem resize_of_number {apply : Word → Except Fault Word} {number : Int → Int}
    (happly : ∀ c : Word, apply c = .ok (wrap c.width c.width_pos (number c.value)))
    (hnumber : ∀ {x y : Int}, x ≡ y [ZMOD 2 ^ width] → number x ≡ number y [ZMOD 2 ^ width])
    (hwidth : 0 < width) (hle : width ≤ a.width) :
    ∃ c c', apply a = .ok c ∧ apply (wrap width hwidth a.value) = .ok c' ∧
      c.resize width = .ok c' := by
  refine ⟨_, _, happly a, happly _, ?_⟩
  rw [resize_wrap hwidth hle]
  exact congrArg _ (wrap_eq_wrap_iff.2 (hnumber (value_wrap_modEq _).symm))

theorem resize_neg (hwidth : 0 < width) (hle : width ≤ a.width) :
    ∃ c c', Unary.neg.apply a = .ok c ∧ Unary.neg.apply (wrap width hwidth a.value) = .ok c' ∧
      c.resize width = .ok c' :=
  resize_of_number (fun _ => rfl) Int.ModEq.neg hwidth hle

theorem resize_not (hwidth : 0 < width) (hle : width ≤ a.width) :
    ∃ c c', Unary.not.apply a = .ok c ∧ Unary.not.apply (wrap width hwidth a.value) = .ok c' ∧
      c.resize width = .ok c' :=
  resize_of_number (fun c => Unary.not.apply_eq_wrap c.width_pos rfl)
    (fun h => h.neg.sub_right 1) hwidth hle

/-- A distance between the two widths empties the word that was cut before, and the other one has
only zeros left in its lowest bits. -/
theorem resize_shiftLeft {distance : Int} (hdistance : 0 ≤ distance) (hwidth : 0 < width)
    (hle : width ≤ a.width) :
    ∃ c c', (Unary.shiftLeft distance).apply a = .ok c ∧
      (Unary.shiftLeft distance).apply (wrap width hwidth a.value) = .ok c' ∧
      c.resize width = .ok c' :=
  resize_of_number (shiftLeft_eq_wrap hdistance) (fun h => h.mul_right _) hwidth hle

theorem signResize_eq_wrap (hwidth : 0 < width) (hle : width ≤ a.width) :
    a.signResize width = .ok (wrap width hwidth a.value) := by
  have hclass : a.toInt ≡ a.value [ZMOD 2 ^ width] :=
    (toInt_modEq_value a).of_dvd (pow_dvd_pow 2 hle)
  rw [← wrap_eq_wrap_iff.2 hclass]
  exact resize_apply_eq_wrap hwidth a true

theorem extract_eq_wrap (hwidth : 0 < width) (hle : width ≤ a.width) :
    a.extract (width - 1) 0 = .ok (wrap width hwidth a.value) := by
  refine (Unary.extract (width - 1) 0).apply_eq_wrap hwidth ?_
  have hhigh : 0 ≤ width - 1 ∧ width - 1 < a.stored.width :=
    ⟨Nat.zero_le _, Nat.sub_one_lt_of_le hwidth hle⟩
  rw [Unary.stored, if_pos hhigh, Nat.sub_zero, Nat.sub_add_cancel hwidth, Int.pow_zero,
    Int.ediv_one]
  rfl

/-! ### Two words -/

/-- The operations of the ring of residues and the logic on bits. -/
def Binary.fromLowest : List Binary := [.add, .sub, .mul, .and, .or, .xor]

theorem natCast_modEq_two_pow {m n : Nat} (h : m ≡ n [MOD 2 ^ width]) :
    (m : Int) ≡ n [ZMOD 2 ^ width] := by
  rw [← natCast_two_pow]
  exact Int.natCast_modEq_iff.2 h

/-- The lowest bits of what is formed depend on the lowest bits of the operands. -/
theorem Binary.number_modEq (hop : op ∈ fromLowest) {s s' t t' : Stored}
    (hs : s.value ≡ s'.value [MOD 2 ^ width]) (ht : t.value ≡ t'.value [MOD 2 ^ width]) :
    op.number s t ≡ op.number s' t' [ZMOD 2 ^ width] := by
  have hs' := natCast_modEq_two_pow hs
  have ht' := natCast_modEq_two_pow ht
  rw [Nat.ModEq] at hs ht
  cases op with
  | add => exact hs'.add ht'
  | sub => exact hs'.sub ht'
  | mul => exact hs'.mul ht'
  | and =>
      refine natCast_modEq_two_pow ?_
      rw [Nat.ModEq, Nat.and_mod_two_pow, Nat.and_mod_two_pow, hs, ht]
  | or =>
      refine natCast_modEq_two_pow ?_
      rw [Nat.ModEq, Nat.or_mod_two_pow, Nat.or_mod_two_pow, hs, ht]
  | xor =>
      refine natCast_modEq_two_pow ?_
      rw [Nat.ModEq, Nat.xor_mod_two_pow, Nat.xor_mod_two_pow, hs, ht]
  | least signed | greatest signed => simp [fromLowest] at hop

theorem modEq_value_wrap (hwidth : 0 < width) (n : Nat) :
    n ≡ (wrap width hwidth n).value [MOD 2 ^ width] := by
  rw [value_wrap_natCast]
  exact (Nat.mod_modEq n _).symm

theorem Binary.resize_apply (hop : op ∈ fromLowest) (hab : a.width = b.width) (hwidth : 0 < width)
    (hle : width ≤ a.width) :
    ∃ c c', op.apply a b = .ok c ∧
      op.apply (wrap width hwidth a.value) (wrap width hwidth b.value) = .ok c' ∧
      c.resize width = .ok c' := by
  refine ⟨_, _, op.apply_eq_wrap hab, op.apply_eq_wrap rfl, ?_⟩
  rw [resize_wrap hwidth hle]
  exact congrArg _ (wrap_eq_wrap_iff.2
    (number_modEq hop (modEq_value_wrap hwidth a.value) (modEq_value_wrap hwidth b.value)))

/-- Cutting words to their lowest bits goes through the ring operations, the logic on bits and
shifts to the left by any distance, and it is the same whether the word is resized with or without
its sign or its lowest bits are extracted. -/
theorem resize_homomorphism {distance : Int} (hwidth : 0 < width) (hle : width ≤ a.width)
    (hab : a.width = b.width) (hdistance : 0 ≤ distance) :
    ∃ a' b' : Word,
      (a.resize width = .ok a' ∧ b.resize width = .ok b' ∧ a'.width = width ∧
        b'.width = width) ∧
      (∀ op ∈ Binary.fromLowest, ∃ c c', op.apply a b = .ok c ∧ op.apply a' b' = .ok c' ∧
        c.resize width = .ok c') ∧
      (∀ op ∈ [Unary.neg, .not, .shiftLeft distance], ∃ c c', op.apply a = .ok c ∧
        op.apply a' = .ok c' ∧ c.resize width = .ok c') ∧
      a.signResize width = .ok a' ∧ a.extract (width - 1) 0 = .ok a' := by
  refine ⟨wrap width hwidth a.value, wrap width hwidth b.value,
    ⟨resize_eq_wrap hwidth a, resize_eq_wrap hwidth b, rfl, rfl⟩,
    fun op hop => Binary.resize_apply hop hab hwidth hle, ?_, signResize_eq_wrap hwidth hle,
    extract_eq_wrap hwidth hle⟩
  simp only [List.mem_cons, List.not_mem_nil, or_false]
  rintro op (rfl | rfl | rfl)
  · exact resize_neg hwidth hle
  · exact resize_not hwidth hle
  · exact resize_shiftLeft hdistance hwidth hle

/-- Eight bits cut to three, with a product that carries and a distance between the two widths. -/
theorem resize_homomorphism_of_three_bits :
    let a := wrap 8 (by decide) 0xb7
    let b := wrap 8 (by decide) (-3)
    0 < 3 ∧ 3 ≤ a.width ∧ a.width = b.width ∧ (0 : Int) ≤ 5 ∧ Binary.mul ∈ Binary.fromLowest ∧
      ∃ a' b' c c' d d' : Word, a.resize 3 = .ok a' ∧ b.resize 3 = .ok b' ∧
        a.mul b = .ok c ∧ a'.mul b' = .ok c' ∧ c.resize 3 = .ok c' ∧
        a.shiftLeft 5 = .ok d ∧ a'.shiftLeft 5 = .ok d' ∧ d.resize 3 = .ok d' := by
  intro a b
  have hwidth : 0 < 3 := by decide
  have hle : 3 ≤ a.width := by decide
  have hdistance : (0 : Int) ≤ 5 := by decide
  have hmul : Binary.mul ∈ Binary.fromLowest := by simp [Binary.fromLowest]
  obtain ⟨a', b', ⟨ha, hb, -, -⟩, hbinary, hunary, -⟩ :=
    resize_homomorphism (a := a) (b := b) hwidth hle rfl hdistance
  obtain ⟨c, c', hc, hc', hcut⟩ := hbinary .mul hmul
  obtain ⟨d, d', hd, hd', hshifted⟩ := hunary (.shiftLeft 5) (by simp)
  exact ⟨hwidth, hle, rfl, hdistance, hmul, a', b', c, c', d, d', ha, hb, hc, hc', hcut, hd, hd',
    hshifted⟩

end ExactCalc.Word
