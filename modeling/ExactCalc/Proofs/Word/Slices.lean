import ExactCalc.Proofs.Word.Moves
import ExactCalc.Proofs.Word.Widths

/-!
Cutting words and joining the pieces. A slice has the bits from one place to another, and of two
joined words the higher one has its bits above those of the lower one, so both are known by their
bits. Slices that touch are joined to the slice over both, hence the pieces of a word between any
cuts make the word again, and it makes no difference in which pairs they are joined.
-/

namespace ExactCalc.Word

variable {a c x y z : Word} {high low middle i : Nat}

/-! ### Slices -/

theorem slice_pos (high low : Nat) : 0 < high - low + 1 :=
  Nat.succ_pos _

def slice (a : Word) (high low : Nat) : Word :=
  truncate (high - low + 1) (slice_pos high low) (a.value >>> low)

@[simp] theorem width_slice (a : Word) (high low : Nat) :
    (a.slice high low).width = high - low + 1 := rfl

theorem extract_eq_slice (hlow : low ≤ high) (hhigh : high < a.width) :
    a.extract high low = .ok (a.slice high low) := by
  rw [extract, if_neg (not_le.2 hhigh), if_neg (not_lt.2 hlow)]
  rfl

theorem extract_eq_ok_iff :
    a.extract high low = .ok c ↔ (high < a.width ∧ low ≤ high) ∧ a.slice high low = c := by
  rw [(refusedIff_extract a high low).eq_ok_iff fun h => extract_eq_slice (by omega) (by omega),
    not_or, not_le, not_lt]

theorem bit_slice (a : Word) (h : i < high - low + 1) :
    (a.slice high low).bit i = a.bit (low + i) := by
  rw [slice, truncate_eq_wrap, bit_wrap_natCast _ h, Nat.testBit_shiftRight, bit_eq_testBit]

theorem slice_full (a : Word) : a.slice (a.width - 1) 0 = a := by
  have hwidth : (a.slice (a.width - 1) 0).width = a.width := Nat.sub_add_cancel a.width_pos
  refine eq_of_bit hwidth fun i hi => ?_
  rw [bit_slice a hi, Nat.zero_add]

theorem slice_slice (hlow : low ≤ high) {high' low' : Nat} (hhigh : high < high' - low' + 1) :
    (a.slice high' low').slice high low = a.slice (low' + high) (low' + low) := by
  have hwidth : high - low + 1 = low' + high - (low' + low) + 1 := by omega
  refine eq_of_bit hwidth fun i hi => ?_
  rw [width_slice] at hi
  rw [bit_slice _ hi, bit_slice a (by omega), bit_slice a (by omega), Nat.add_assoc]

/-! ### Two words side by side -/

/-- The bits of `high` above those of `low`. -/
def beside (high low : Word) : Word :=
  truncate (high.width + low.width) (Nat.add_pos_left high.width_pos _)
    (high.value <<< low.width ||| low.value)

@[simp] theorem width_beside (high low : Word) :
    (high.beside low).width = high.width + low.width := rfl

theorem concat_eq_beside (hmax : x.width + y.width ≤ maxWidth) :
    x.concat y = .ok (x.beside y) := by
  rw [concat, widened, if_pos hmax]
  exact ofNat_of_pos _ _

theorem concat_eq_ok_iff :
    x.concat y = .ok c ↔ x.width + y.width ≤ maxWidth ∧ x.beside y = c := by
  rw [(refusedIff_concat x y).eq_ok_iff fun h => concat_eq_beside (not_lt.1 h), not_lt]

/-- Each place belongs to one of the two words. -/
theorem bit_beside (x y : Word) (h : i < x.width + y.width) :
    (x.beside y).bit i = if i < y.width then y.bit i else x.bit (i - y.width) := by
  rw [beside, truncate_eq_wrap, bit_wrap_natCast _ h, Nat.testBit_or, Nat.testBit_shiftLeft]
  split
  · next hlow =>
    rw [decide_eq_false (not_le.2 hlow), Bool.false_and, Bool.false_or, bit_eq_testBit]
  · next hhigh =>
    rw [testBit_of_width_le (not_lt.1 hhigh), Bool.or_false, decide_eq_true (not_lt.1 hhigh),
      Bool.true_and, bit_eq_testBit]

theorem beside_assoc (x y z : Word) : (x.beside y).beside z = x.beside (y.beside z) := by
  refine eq_of_bit (Nat.add_assoc ..) fun i hi => ?_
  have hi' : i < x.width + (y.width + z.width) := by
    rwa [width_beside, width_beside, Nat.add_assoc] at hi
  rw [bit_beside _ z hi, bit_beside x (y.beside z) hi', width_beside]
  by_cases hlow : i < z.width
  · rw [if_pos hlow, if_pos (by omega), bit_beside y z (by omega), if_pos hlow]
  · rw [if_neg hlow, bit_beside x y (by omega)]
    by_cases hmiddle : i < y.width + z.width
    · rw [if_pos (by omega), if_pos hmiddle, bit_beside y z hmiddle, if_neg hlow]
    · rw [if_neg (by omega), if_neg hmiddle, Nat.sub_sub, Nat.add_comm z.width]

instance : Std.Associative beside := ⟨beside_assoc⟩

/-- Slices that touch make one slice. -/
theorem slice_beside_slice (a : Word) (hlow : low < middle) (hhigh : middle ≤ high) :
    (a.slice high middle).beside (a.slice (middle - 1) low) = a.slice high low := by
  have hwidth : high - middle + 1 + (middle - 1 - low + 1) = high - low + 1 := by omega
  refine eq_of_bit hwidth fun i hi => ?_
  have hi' : i < high - low + 1 := hwidth ▸ hi
  rw [bit_beside _ _ hi, bit_slice a hi', width_slice]
  split
  · next h => exact bit_slice a h
  · next h =>
    have hplace : middle + (i - (middle - 1 - low + 1)) = low + i := by omega
    rw [bit_slice a (by omega), hplace]

theorem slice_beside_high (x y : Word) :
    (x.beside y).slice (x.width + y.width - 1) y.width = x := by
  have hx := x.width_pos
  have hwidth : x.width + y.width - 1 - y.width + 1 = x.width := by omega
  refine eq_of_bit hwidth fun i hi => ?_
  rw [bit_slice _ hi, bit_beside x y (by rw [width_slice, hwidth] at hi; omega),
    if_neg (by omega), Nat.add_sub_cancel_left]

theorem slice_beside_low (x y : Word) : (x.beside y).slice (y.width - 1) 0 = y := by
  have hwidth : y.width - 1 - 0 + 1 = y.width := Nat.sub_add_cancel y.width_pos
  refine eq_of_bit hwidth fun i hi => ?_
  have hi' : i < y.width := hwidth ▸ hi
  rw [bit_slice _ hi, Nat.zero_add, bit_beside x y (by omega), if_pos hi']

/-! ### Many words -/

/-- A way to join words two at a time, the higher one always on the left. -/
inductive Joining where
  | word (a : Word)
  | pair (high low : Joining)

namespace Joining

def words : Joining → List Word
  | word a => [a]
  | pair high low => high.words ++ low.words

def join : Joining → Except Fault Word
  | word a => .ok a
  | pair high low => do (← high.join).concat (← low.join)

/-- The joined word, whether it is too wide or not. -/
def joined : Joining → Word
  | word a => a
  | pair high low => high.joined.beside low.joined

/-- No part is wider than the whole. -/
theorem join_eq_joined {t : Joining} (h : t.joined.width ≤ maxWidth) : t.join = .ok t.joined := by
  induction t with
  | word a => rfl
  | pair high low ihhigh ihlow =>
      rw [joined, width_beside] at h
      rw [join, ihhigh (by omega), ihlow (by omega)]
      exact concat_eq_beside h

theorem exists_words_eq_cons (t : Joining) : ∃ top rest, t.words = top :: rest := by
  induction t with
  | word a => exact ⟨a, [], rfl⟩
  | pair high low ihhigh _ =>
      obtain ⟨top, rest, h⟩ := ihhigh
      exact ⟨top, rest ++ low.words, by rw [words, h, List.cons_append]⟩

/-- The words alone determine what comes out. -/
theorem joined_of_words {t : Joining} {top : Word} {rest : List Word}
    (h : t.words = top :: rest) : t.joined = rest.foldl beside top := by
  induction t generalizing top rest with
  | word a =>
      obtain ⟨rfl, rfl⟩ := List.cons.inj h
      rfl
  | pair high low ihhigh ihlow =>
      obtain ⟨top', rest', hhigh⟩ := high.exists_words_eq_cons
      obtain ⟨next, others, hlow⟩ := low.exists_words_eq_cons
      rw [words, hhigh, hlow, List.cons_append] at h
      obtain ⟨rfl, rfl⟩ := List.cons.inj h
      rw [joined, ihhigh hhigh, ihlow hlow, List.foldl_append, List.foldl_cons, List.foldl_assoc]

/-- Joining from the highest word on is one of the ways. -/
theorem exists_join_eq_foldlM (top : Word) (rest : List Word) :
    ∃ t : Joining, t.words = top :: rest ∧ t.join = rest.foldlM concat top := by
  induction rest using List.reverseRecOn with
  | nil => exact ⟨word top, rfl, rfl⟩
  | append_singleton rest b ih =>
      obtain ⟨t, hwords, hjoin⟩ := ih
      refine ⟨pair t (word b), by rw [words, hwords]; rfl, ?_⟩
      rw [join, hjoin, List.foldlM_append]
      simp only [join, List.foldlM_cons, List.foldlM_nil, bind_pure]
      rfl

end Joining

/-! ### Cuts -/

/-- The pieces of what a word has from a place on, cut below each of the given places. The highest
piece comes first. -/
def slices (a : Word) (low : Nat) : List Nat → Except Fault (List Word)
  | [] => do
      let top ← a.extract (a.width - 1) low
      return [top]
  | cut :: cuts => do
      let upper ← a.slices cut cuts
      let lowest ← a.extract (cut - 1) low
      return upper ++ [lowest]

/-- The pieces above the lowest cut make the slice above it, and the lowest piece touches it. -/
theorem exists_slices {cuts : List Nat}
    (hcuts : (low :: (cuts ++ [a.width])).IsChain (· < ·)) :
    ∃ top rest, a.slices low cuts = .ok (top :: rest) ∧
      rest.foldl beside top = a.slice (a.width - 1) low := by
  induction cuts generalizing low with
  | nil =>
      have hlow : low < a.width := by simpa using hcuts
      refine ⟨a.slice (a.width - 1) low, [], ?_, rfl⟩
      rw [slices, extract_eq_slice (by omega) (by omega)]
      rfl
  | cons cut cuts ih =>
      rw [List.cons_append, List.isChain_cons_cons] at hcuts
      obtain ⟨hlow, hcuts⟩ := hcuts
      have hcut : cut < a.width :=
        (List.pairwise_cons.1 hcuts.pairwise).1 a.width (by simp)
      obtain ⟨top, rest, hslices, hfold⟩ := ih hcuts
      refine ⟨top, rest ++ [a.slice (cut - 1) low], ?_, ?_⟩
      · rw [slices, hslices, extract_eq_slice (by omega) (by omega)]
        rfl
      · rw [List.foldl_append, hfold]
        exact slice_beside_slice a hlow (by omega)

/-! ### Joining and cutting -/

theorem refusedIff_concat_concat (x y z : Word) :
    RefusedIff (x.concat y >>= fun c => c.concat z) (maxWidth < x.width + y.width + z.width) := by
  refine (refusedIff_concat x y).bind (by omega) fun c hc => ?_
  obtain ⟨-, rfl⟩ := concat_eq_ok_iff.1 hc
  exact refusedIff_concat (x.beside y) z

theorem refusedIff_concat_concat_right (x y z : Word) :
    RefusedIff (y.concat z >>= fun c => x.concat c) (maxWidth < x.width + y.width + z.width) := by
  refine (refusedIff_concat y z).bind (by omega) fun c hc => ?_
  obtain ⟨-, rfl⟩ := concat_eq_ok_iff.1 hc
  rw [Nat.add_assoc]
  exact refusedIff_concat x (y.beside z)

/-- Both ways to join three words give the same word or are both refused as bad arguments. -/
theorem concat_assoc (x y z : Word) :
    (x.concat y >>= fun c => c.concat z).mapError Fault.kind =
      (y.concat z >>= fun c => x.concat c).mapError Fault.kind := by
  refine (refusedIff_concat_concat x y z).mapError_kind_congr
    (refusedIff_concat_concat_right x y z) fun h => ?_
  have hleft : (x.beside y).width + z.width ≤ maxWidth := not_lt.1 h
  have hright : x.width + (y.beside z).width ≤ maxWidth := by
    rwa [width_beside, ← Nat.add_assoc]
  calc (x.concat y >>= fun c => c.concat z)
      = (x.beside y).concat z := by
        rw [concat_eq_beside (Nat.le_of_add_right_le hleft)]
        rfl
    _ = x.concat (y.beside z) := by
        rw [concat_eq_beside hleft, concat_eq_beside hright, beside_assoc]
    _ = (y.concat z >>= fun c => x.concat c) := by
        rw [concat_eq_beside (x := y) (Nat.le_of_add_left_le hright)]
        rfl

/-- A word that joining may make, cut between any ascending places, is made again from its pieces,
in whatever pairs these are joined. Two joined words are the slices of the result, joining is
associative, and a slice of a slice is a slice. -/
theorem slices_joined (a x y z : Word) :
    (∀ cuts, (0 :: (cuts ++ [a.width])).IsChain (· < ·) → a.width ≤ maxWidth →
      ∃ top rest, a.slices 0 cuts = .ok (top :: rest) ∧ rest.foldlM concat top = .ok a ∧
        ∀ t : Joining, t.words = top :: rest → t.join = .ok a) ∧
    ((x.width + y.width ≤ maxWidth → ∃ c, x.concat y = .ok c ∧ c.width = x.width + y.width ∧
        c.extract (x.width + y.width - 1) y.width = .ok x ∧
        c.extract (y.width - 1) 0 = .ok y) ∧
      (x.concat y >>= fun c => c.concat z).mapError Fault.kind =
        (y.concat z >>= fun c => x.concat c).mapError Fault.kind) ∧
    (∀ high low high' low' c d, a.extract high low = .ok c → c.extract high' low' = .ok d →
      a.extract (low + high') (low + low') = .ok d) ∧
    (∀ high low, RefusedIff (a.extract high low) (a.width ≤ high ∨ high < low)) ∧
    RefusedIff (x.concat y) (maxWidth < x.width + y.width) := by
  refine ⟨fun cuts hcuts hmax => ?_, ⟨fun hmax => ?_, concat_assoc x y z⟩,
    fun high low high' low' c d hc hd => ?_, refusedIff_extract a, refusedIff_concat x y⟩
  · obtain ⟨top, rest, hslices, hfold⟩ := exists_slices hcuts
    have hjoin (t : Joining) (ht : t.words = top :: rest) : t.join = .ok a := by
      have hjoined : t.joined = a := by rw [Joining.joined_of_words ht, hfold, slice_full]
      rw [Joining.join_eq_joined (by rwa [hjoined]), hjoined]
    obtain ⟨t, ht, hfoldlM⟩ := Joining.exists_join_eq_foldlM top rest
    exact ⟨top, rest, hslices, hfoldlM.symm.trans (hjoin t ht), hjoin⟩
  · have hx := x.width_pos
    have hy := y.width_pos
    refine ⟨x.beside y, concat_eq_beside hmax, rfl, ?_, ?_⟩
    · rw [extract_eq_slice (by omega) (by rw [width_beside]; omega), slice_beside_high]
    · rw [extract_eq_slice (by omega) (by rw [width_beside]; omega), slice_beside_low]
  · obtain ⟨⟨hhigh, hlow⟩, rfl⟩ := extract_eq_ok_iff.1 hc
    obtain ⟨⟨hhigh', hlow'⟩, rfl⟩ := extract_eq_ok_iff.1 hd
    rw [width_slice] at hhigh'
    rw [slice_slice hlow' hhigh', extract_eq_slice (by omega) (by omega)]

/-- Eight bits cut into pieces of three widths, one of them a single bit, and a slice of a slice. -/
theorem slices_joined_of_eight_bits :
    let a := wrap 8 (by decide) 0b10110111
    let x := wrap 3 (by decide) 0b101
    let y := wrap 5 (by decide) 0b01101
    (0 :: ([3, 4] ++ [a.width])).IsChain (· < ·) ∧ a.width ≤ maxWidth ∧
      x.width + y.width ≤ maxWidth ∧ a.extract 6 2 = .ok y ∧
      y.extract 3 1 = .ok (wrap 3 (by decide) 0b110) ∧
      a.extract (2 + 3) (2 + 1) = .ok (wrap 3 (by decide) 0b110) ∧
      ∃ top rest c, a.slices 0 [3, 4] = .ok (top :: rest) ∧ rest.foldlM concat top = .ok a ∧
        x.concat y = .ok c ∧ c.extract (3 + 5 - 1) 5 = .ok x := by
  intro a x y
  have hcuts : (0 :: ([3, 4] ++ [a.width])).IsChain (· < ·) := by decide
  have hmax : a.width ≤ maxWidth := by decide
  have hmax' : x.width + y.width ≤ maxWidth := by decide
  have hslice : a.extract 6 2 = .ok y := by decide
  have hslice' : y.extract 3 1 = .ok (wrap 3 (by decide) 0b110) := by decide
  obtain ⟨hcut, ⟨hconcat, -⟩, hnested, -⟩ := slices_joined a x y y
  obtain ⟨top, rest, hslices, hjoined, -⟩ := hcut [3, 4] hcuts hmax
  obtain ⟨c, hc, -, hupper, -⟩ := hconcat hmax'
  exact ⟨hcuts, hmax, hmax', hslice, hslice', hnested _ _ _ _ _ _ hslice hslice', top, rest, c,
    hslices, hjoined, hc, hupper⟩

end ExactCalc.Word
