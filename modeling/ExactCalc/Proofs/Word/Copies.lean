import ExactCalc.Proofs.Word.Slices

/-!
Words made of copies of a word. Such a word is known by the number of copies, since each of its bits
is the bit of the copied word at the same place counted modulo the width. Repetition makes such
words, and so does joining: the numbers of copies are added when words are joined and multiplied
when a word of copies is repeated. A rotation by whole copies changes no bit.
-/

namespace ExactCalc.Word

variable {a b c d : Word} {width value count i j k : Nat} {distance : Int}

/-- `c` is made of `count` copies of `a`, side by side. -/
structure Copies (count : Nat) (a c : Word) : Prop where
  width_eq : c.width = a.width * count
  bit_eq : ∀ i < c.width, c.bit i = a.bit (i % a.width)

namespace Copies

theorem unique (hc : Copies count a c) (hd : Copies count a d) : c = d := by
  have hwidth : c.width = d.width := hc.width_eq.trans hd.width_eq.symm
  exact eq_of_bit hwidth fun i hi => (hc.bit_eq i hi).trans (hd.bit_eq i (hwidth ▸ hi)).symm

theorem self (a : Word) : Copies 1 a a where
  width_eq := (Nat.mul_one _).symm
  bit_eq i hi := by rw [Nat.mod_eq_of_lt hi]

/-- Counting on past the copies below begins at the lowest place of a copy. -/
theorem beside (hc : Copies j a c) (hd : Copies k a d) : Copies (j + k) a (c.beside d) where
  width_eq := by rw [width_beside, hc.width_eq, hd.width_eq, Nat.mul_add]
  bit_eq i hi := by
    rw [width_beside] at hi
    rw [bit_beside c d hi]
    split
    · next hlow => exact hd.bit_eq i hlow
    · next hhigh =>
      have hplace : (i - a.width * k) % a.width = i % a.width :=
        Nat.sub_mul_mod (hd.width_eq ▸ not_lt.1 hhigh)
      rw [hc.bit_eq _ (by omega), hd.width_eq, hplace]

theorem trans (hb : Copies j a b) (hc : Copies k b c) : Copies (j * k) a c where
  width_eq := by rw [hc.width_eq, hb.width_eq, Nat.mul_assoc]
  bit_eq i hi := by
    have hdvd : a.width ∣ b.width := ⟨j, hb.width_eq⟩
    rw [hc.bit_eq i hi, hb.bit_eq _ (Nat.mod_lt i b.width_pos), Nat.mod_mod_of_dvd i hdvd]

theorem width_mul (hb : Copies i a b) (j : Nat) : b.width * j = a.width * (j * i) := by
  rw [hb.width_eq, Nat.mul_comm j, Nat.mul_assoc]

theorem rotate_eq (hc : Copies count a c) (hdistance : (a.width : Int) ∣ distance) :
    c.rotate distance = c := by
  refine eq_of_bit rfl fun i hi => ?_
  have hpos : (0 : Int) < c.width := Int.natCast_pos.2 c.width_pos
  have hlow := Int.emod_nonneg (i - distance) hpos.ne'
  have hhigh := Int.emod_lt_of_pos (i - distance) hpos
  have hdvd : (a.width : Int) ∣ c.width := ⟨count, by rw [hc.width_eq, Int.natCast_mul]⟩
  have hplace : ((i - distance) % c.width).toNat % a.width = i % a.width := by
    refine Int.ofNat_inj.1 ?_
    rw [Int.natCast_emod, Int.toNat_of_nonneg hlow, Int.emod_emod_of_dvd _ hdvd, Int.natCast_emod,
      Int.sub_emod, Int.emod_eq_zero_of_dvd hdistance, Int.sub_zero, Int.emod_emod]
  rw [bit_rotate c distance hi, hc.bit_eq _ (by omega), hc.bit_eq i hi, hplace]

end Copies

/-! ### Repetition -/

/-- The loop has put as many copies below one another as it has gone round. -/
theorem testBit_repeated (hvalue : value < 2 ^ width) (hi : i < width * count) :
    (repeated width value count).testBit i = value.testBit (i % width) := by
  induction count generalizing i with
  | zero => contradiction
  | succ count ih =>
      have hstep : repeated width value (count + 1) =
          repeated width value count <<< width ||| value := rfl
      rw [hstep, Nat.testBit_or, Nat.testBit_shiftLeft]
      by_cases hlow : i < width
      · rw [decide_eq_false (not_le.2 hlow), Bool.false_and, Bool.false_or, Nat.mod_eq_of_lt hlow]
      · have hzero : value.testBit i = false :=
          Nat.testBit_lt_two_pow (lt_two_pow_of_le hvalue (not_lt.1 hlow))
        rw [Nat.mul_succ] at hi
        rw [decide_eq_true (not_lt.1 hlow), Bool.true_and, hzero, Bool.or_false,
          ih (by omega), ← Nat.mod_eq_sub_mod (not_lt.1 hlow)]

theorem exists_replicate (hcount : 0 < count) (hmax : a.width * count ≤ maxWidth) :
    ∃ c, a.replicate count = .ok c ∧ Copies count a c := by
  have hpos : 0 < a.width * count := Nat.mul_pos a.width_pos hcount
  refine ⟨truncate (a.width * count) hpos (repeated a.width a.value count), ?_, rfl,
    fun i hi => ?_⟩
  · rw [replicate, if_neg hcount.ne', if_pos hmax]
    exact ofNat_of_pos hpos _
  · have hi' : i < a.width * count := hi
    rw [truncate_eq_wrap, bit_wrap_natCast _ hi', testBit_repeated a.value_lt hi', bit_eq_testBit]

theorem replicate_eq_ok_iff :
    a.replicate count = .ok c ↔
      (0 < count ∧ a.width * count ≤ maxWidth) ∧ Copies count a c := by
  constructor
  · intro h
    have hfits := (refusedIff_replicate a count).not_of_eq_ok h
    rw [not_or, not_lt, ← ne_eq, ← Nat.pos_iff_ne_zero] at hfits
    obtain ⟨c', hc', hcopies⟩ := exists_replicate hfits.1 hfits.2
    rw [h] at hc'
    exact ⟨hfits, Except.ok.inj hc' ▸ hcopies⟩
  · rintro ⟨⟨hcount, hmax⟩, hcopies⟩
    obtain ⟨c', hc', hcopies'⟩ := exists_replicate hcount hmax
    rw [hc', hcopies'.unique hcopies]

/-- Too many copies at first are still too many afterwards, unless none of them are taken, which is
refused as well. -/
theorem refusedIff_replicate_replicate (a : Word) (i j : Nat) :
    RefusedIff (a.replicate i >>= fun b => b.replicate j)
      (j * i = 0 ∨ maxWidth < a.width * (j * i)) := by
  refine (refusedIff_replicate a i).bind ?_ fun b hb => ?_
  · rintro (rfl | hmax)
    · exact .inl (Nat.mul_zero j)
    · rcases Nat.eq_zero_or_pos j with rfl | hj
      · exact .inl (Nat.zero_mul i)
      · refine .inr (hmax.trans_le (Nat.mul_le_mul_left _ (Nat.le_mul_of_pos_left i hj)))
  · obtain ⟨⟨hi, -⟩, hcopies⟩ := replicate_eq_ok_iff.1 hb
    have hzero : j * i = 0 ↔ j = 0 := by
      rw [Nat.mul_eq_zero, or_iff_left hi.ne']
    rw [hzero, ← hcopies.width_mul]
    exact refusedIff_replicate b j

/-- Both ways to take copies of copies give the same word or are both refused as bad arguments. -/
theorem replicate_replicate (a : Word) (i j : Nat) :
    (a.replicate i >>= fun b => b.replicate j).mapError Fault.kind =
      (a.replicate (j * i)).mapError Fault.kind := by
  refine (refusedIff_replicate_replicate a i j).mapError_kind_congr
    (refusedIff_replicate a (j * i)) fun h => ?_
  rw [not_or, not_lt, ← ne_eq, ← Nat.pos_iff_ne_zero] at h
  obtain ⟨hpos, hmax⟩ := h
  have hj : 0 < j := Nat.pos_of_mul_pos_right hpos
  have hi : 0 < i := Nat.pos_of_mul_pos_left hpos
  have hle : a.width * i ≤ a.width * (j * i) :=
    Nat.mul_le_mul_left _ (Nat.le_mul_of_pos_left i hj)
  obtain ⟨b, hb, hcopies⟩ := exists_replicate hi (hle.trans hmax)
  have hmax' : b.width * j ≤ maxWidth := by rwa [hcopies.width_mul]
  obtain ⟨c, hc, hcopies'⟩ := exists_replicate hj hmax'
  rw [hb, replicate_eq_ok_iff.2 ⟨⟨hpos, hmax⟩, Nat.mul_comm i j ▸ hcopies.trans hcopies'⟩]
  exact hc

/-- Joined copies of a word are a word of copies, in whatever pairs they are joined. -/
theorem Joining.copies_of_words {t : Joining} (h : ∀ b ∈ t.words, b = a) :
    Copies t.words.length a t.joined := by
  induction t with
  | word b =>
      obtain rfl := h b (List.mem_singleton_self b)
      exact Copies.self b
  | pair high low ihhigh ihlow =>
      rw [words, List.length_append]
      exact (ihhigh fun b hb => h b (List.mem_append_left _ hb)).beside
        (ihlow fun b hb => h b (List.mem_append_right _ hb))

theorem Joining.join_copies {t : Joining} (h : t.words = List.replicate count a)
    (hmax : a.width * count ≤ maxWidth) (hc : Copies count a c) : t.join = .ok c := by
  have hcopies : Copies count a t.joined := by
    have hlength : t.words.length = count := by rw [h, List.length_replicate]
    rw [← hlength]
    exact copies_of_words fun b hb => List.eq_of_mem_replicate (h ▸ hb)
  rw [join_eq_joined (by rwa [hcopies.width_eq]), hcopies.unique hc]

/-- A word is repeated unless no copies are asked for or there is no room for them. The result has
the bits of the word over and over, and it is the same whether it is made at once, by joining copies
in whatever pairs or by repeating a word of copies. Rotations by whole copies do not change it. -/
theorem copies_joined (a : Word) (count : Nat) :
    RefusedIff (a.replicate count) (count = 0 ∨ maxWidth < a.width * count) ∧
    (0 < count → a.width * count ≤ maxWidth → ∃ c, a.replicate count = .ok c ∧
      (c.width = a.width * count ∧ ∀ i < a.width * count, c.bit i = a.bit (i % a.width)) ∧
      (∀ t : Joining, t.words = List.replicate count a → t.join = .ok c) ∧
      ∀ k : Nat, c.rotateLeft (a.width * k : Nat) = .ok c ∧
        c.rotateRight (a.width * k : Nat) = .ok c) ∧
    ∀ i j, (a.replicate i >>= fun b => b.replicate j).mapError Fault.kind =
      (a.replicate (j * i)).mapError Fault.kind := by
  refine ⟨refusedIff_replicate a count, fun hcount hmax => ?_, replicate_replicate a⟩
  obtain ⟨c, hc, hcopies⟩ := exists_replicate hcount hmax
  refine ⟨c, hc, ⟨hcopies.width_eq, hcopies.width_eq ▸ hcopies.bit_eq⟩,
    fun t ht => t.join_copies ht hmax hcopies, fun k => ?_⟩
  have hdvd : (a.width : Int) ∣ (a.width * k : Nat) := ⟨k, Int.natCast_mul ..⟩
  rw [rotateLeft_natCast, rotateRight_natCast, hcopies.rotate_eq hdvd,
    hcopies.rotate_eq (Int.dvd_neg.2 hdvd)]
  exact ⟨rfl, rfl⟩

/-- Four copies of three bits, joined in two pairs and turned by more than the whole of them. -/
theorem copies_joined_of_three_bits :
    let a := wrap 3 (by decide) 0b011
    let t := Joining.pair (.pair (.word a) (.word a)) (.pair (.word a) (.word a))
    0 < 4 ∧ a.width * 4 ≤ maxWidth ∧ 7 < a.width * 4 ∧ t.words = List.replicate 4 a ∧
      ∃ c, a.replicate 4 = .ok c ∧ c.bit 7 = a.bit 1 ∧ t.join = .ok c ∧
        c.rotateLeft (a.width * 5 : Nat) = .ok c ∧
        (a.replicate 2 >>= fun b => b.replicate 2).mapError Fault.kind =
          (a.replicate 4).mapError Fault.kind := by
  intro a t
  have hcount : 0 < 4 := by decide
  have hmax : a.width * 4 ≤ maxWidth := by decide
  have hplace : 7 < a.width * 4 := by decide
  have hsource : 7 % a.width = 1 := by decide
  obtain ⟨-, hcopies, hagain⟩ := copies_joined a 4
  obtain ⟨c, hc, ⟨-, hbits⟩, hjoin, hturns⟩ := hcopies hcount hmax
  have hbit := hbits 7 hplace
  rw [hsource] at hbit
  exact ⟨hcount, hmax, hplace, rfl, c, hc, hbit, hjoin t rfl, (hturns 5).1, hagain 2 2⟩

end ExactCalc.Word
