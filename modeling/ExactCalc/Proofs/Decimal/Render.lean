import ExactCalc.Proofs.Decimal.Literal
import ExactCalc.Proofs.Text.Radix

/-!
The text of a decimal. There is one unless the scale is too great for the zeros in front of the
digits to be filled in. Its sign, its digits and the place of its point can be read off the text,
so different decimals have different texts, also two that stand for one number.
-/

namespace ExactCalc.Decimal

open Text Numeral

variable {digits text : List Char} {scale : ℕ}

/-! ### Zeros in front -/

theorem isDigit_of_mem_padded (hdigits : ∀ c ∈ digits, c.isDigit = true) (length : ℕ) :
    ∀ c ∈ padded length digits, c.isDigit = true := by
  intro c hc
  rcases List.mem_append.1 hc with hzero | hc
  · rw [List.eq_of_mem_replicate hzero]
    rfl
  · exact hdigits c hc

theorem ofDigitChars_padded (length : ℕ) (digits : List Char) :
    Nat.ofDigitChars 10 (padded length digits) 0 = Nat.ofDigitChars 10 digits 0 := by
  simp [padded, Nat.ofDigitChars_append, Nat.ofDigitChars_replicate_zero]

/-! ### The point -/

theorem pointed?_eq_none_iff : pointed? digits scale = none ↔ maxPadding ≤ scale := by
  cases scale with
  | zero => simp [pointed?, maxPadding]
  | succ scale =>
      rw [pointed?, Option.map_eq_none_iff, padded?_eq_none_iff]
      exact Nat.lt_succ_iff

theorem pointed?_succ_eq_some (h : pointed? digits (scale + 1) = some text) :
    text = (padded (scale + 2) digits).take ((padded (scale + 2) digits).length - (scale + 1)) ++
      '.' :: (padded (scale + 2) digits).drop
        ((padded (scale + 2) digits).length - (scale + 1)) := by
  obtain ⟨long, hlong, hjoined⟩ := Option.map_eq_some_iff.1 h
  obtain ⟨-, rfl⟩ := padded?_eq_some_iff.1 hlong
  exact hjoined.symm

theorem isDigit_or_point_of_mem_pointed (hdigits : ∀ c ∈ digits, c.isDigit = true)
    (h : pointed? digits scale = some text) : ∀ c ∈ text, c.isDigit = true ∨ c = '.' := by
  intro c hc
  cases scale with
  | zero =>
      cases h
      exact .inl (hdigits c hc)
  | succ scale =>
      have hlong := isDigit_of_mem_padded hdigits (scale + 2)
      rw [pointed?_succ_eq_some h, List.mem_append, List.mem_cons] at hc
      rcases hc with hc | hc | hc
      · exact .inl (hlong c (List.mem_of_mem_take hc))
      · exact .inr hc
      · exact .inl (hlong c (List.mem_of_mem_drop hc))

/-- The point stands between the sides, and without it they spell the digits again. -/
theorem exists_sides_pointed (hdigits : ∀ c ∈ digits, c.isDigit = true)
    (h : pointed? digits (scale + 1) = some text) :
    ∃ whole fraction : List Char, text = whole ++ '.' :: fraction ∧
      Sides whole fraction ∧ fraction.length = scale + 1 ∧
      Nat.ofDigitChars 10 (whole ++ fraction) 0 = Nat.ofDigitChars 10 digits 0 := by
  have hlength : scale + 2 ≤ (padded (scale + 2) digits).length := by
    rw [length_padded]
    exact le_max_left _ _
  have hlong := isDigit_of_mem_padded hdigits (scale + 2)
  rw [← ofDigitChars_padded (scale + 2), pointed?_succ_eq_some h]
  generalize padded (scale + 2) digits = long at hlength hlong
  have hfraction : (long.drop (long.length - (scale + 1))).length = scale + 1 := by
    rw [List.length_drop]
    omega
  refine ⟨_, _, rfl, ⟨fun c hc => hlong c (List.mem_of_mem_take hc),
    fun c hc => hlong c (List.mem_of_mem_drop hc), .inr ?_⟩, hfraction, ?_⟩
  · exact List.ne_nil_of_length_eq_add_one hfraction
  · rw [List.take_append_drop]

/-- The digits after the point are as many as the scale says, and without the point the digits spell
the mantissa. -/
theorem splitPoint_pointed {n : ℕ} (hdigits : Digits digits n)
    (h : pointed? digits scale = some text) :
    ∃ whole fraction : List Char, splitPoint text = (whole, fraction) ∧
      Sides whole fraction ∧ fraction.length = scale ∧
      Nat.ofDigitChars 10 (whole ++ fraction) 0 = n := by
  obtain ⟨hne, hall, hspells⟩ := hdigits
  cases scale with
  | zero =>
      cases h
      refine ⟨digits, [], splitPoint_of_not_mem (not_point_mem hall), ⟨hall, by simp, .inl hne⟩,
        rfl, ?_⟩
      rwa [List.append_nil]
  | succ scale =>
      obtain ⟨whole, fraction, htext, hsides, hlength, hvalue⟩ := exists_sides_pointed hall h
      refine ⟨whole, fraction, ?_, hsides, hlength, hvalue.trans hspells⟩
      rw [htext, splitPoint_append (not_point_mem hsides.1)]

/-! ### The whole text -/

theorem isDigit_of_mem_decimal (n : ℕ) : ∀ c ∈ decimal n, c.isDigit = true :=
  (digits_toDigits n).2.1

theorem render?_eq_none_iff {d : Decimal} : d.render? = none ↔ maxPadding ≤ d.scale := by
  rw [render?, Option.map_eq_none_iff, pointed?_eq_none_iff]

variable {a b d : Decimal} {printed : String}

theorem exists_render? (h : d.scale < maxPadding) : ∃ printed, d.render? = some printed := by
  rw [← Option.ne_none_iff_exists', Ne, render?_eq_none_iff]
  exact Nat.not_le.2 h

theorem scale_lt_of_render? (h : d.render? = some printed) : d.scale < maxPadding := by
  by_contra hle
  rw [render?_eq_none_iff.2 (Nat.not_lt.1 hle)] at h
  exact nomatch h

/-- The sign is not part of the digits that follow it. -/
theorem splitSign_of_render? (h : d.render? = some printed) :
    ∃ text, pointed? (decimal d.mantissa) d.scale = some text ∧
      splitSign printed.toList = (d.isNegative, text) := by
  obtain ⟨text, hpointed, rfl⟩ := Option.map_eq_some_iff.1 h
  refine ⟨text, hpointed, ?_⟩
  rw [String.toList_ofList]
  cases d.isNegative with
  | true => rfl
  | false =>
      have hmem := isDigit_or_point_of_mem_pointed (isDigit_of_mem_decimal d.mantissa) hpointed
      apply splitSign_of_ne
      all_goals
        intro hhead
        exact absurd (hmem _ (List.mem_of_head? hhead)) (by decide)

theorem mem_of_render? {c : Char} (h : d.render? = some printed) (hc : c ∈ printed.toList) :
    c.isDigit = true ∨ c = '.' ∨ c = '-' := by
  obtain ⟨text, hpointed, rfl⟩ := Option.map_eq_some_iff.1 h
  have hmem := isDigit_or_point_of_mem_pointed (isDigit_of_mem_decimal d.mantissa) hpointed
  rw [String.toList_ofList] at hc
  split at hc
  · rcases List.mem_cons.1 hc with hminus | hc
    · exact .inr (.inr hminus)
    · exact (hmem c hc).imp_right .inl
  · exact (hmem c hc).imp_right .inl

theorem trim_of_render? (h : d.render? = some printed) :
    trim printed.toList = printed.toList := by
  apply trim_eq_self_of_forall
  intro c hc
  rcases mem_of_render? h hc with hdigit | rfl | rfl
  · exact isBlank_of_isDigit hdigit
  all_goals decide

/-- A decimal is read with its digits and its own scale, and with its sign unless it is zero. -/
theorem literal?_of_render? (h : d.render? = some printed) :
    literal? printed.toList = some (ofParts d.isNegative d.mantissa d.scale) := by
  obtain ⟨text, hpointed, hsign⟩ := splitSign_of_render? h
  obtain ⟨whole, fraction, hsplit, hsides, hscale, hvalue⟩ :=
    splitPoint_pointed (digits_toDigits d.mantissa) hpointed
  -- Every scale that can be printed can be read.
  have hmax : d.scale ≤ maxScale := (scale_lt_of_render? h).le.trans (by decide)
  have hparts : unsigned? text = some (d.mantissa, d.scale) :=
    (unsigned?_iff_of_splitPoint hsplit).2 ⟨hsides, hscale.trans_le hmax, hvalue, hscale⟩
  rw [literal?_of_trim_eq (trim_of_render? h), hsign, hparts]
  rfl

theorem eq_of_render? (ha : a.render? = some printed) (hb : b.render? = some printed) : a = b := by
  obtain ⟨text, hpointed, hsign⟩ := splitSign_of_render? ha
  obtain ⟨text', hpointed', hsign'⟩ := splitSign_of_render? hb
  obtain ⟨hnegative, rfl⟩ := Prod.mk.inj (hsign.symm.trans hsign')
  obtain ⟨whole, fraction, hsplit, -, hscale, hvalue⟩ :=
    splitPoint_pointed (digits_toDigits a.mantissa) hpointed
  obtain ⟨whole', fraction', hsplit', -, hscale', hvalue'⟩ :=
    splitPoint_pointed (digits_toDigits b.mantissa) hpointed'
  obtain ⟨rfl, rfl⟩ := Prod.mk.inj (hsplit.symm.trans hsplit')
  exact eq_of_parts hnegative (hvalue.symm.trans hvalue') (hscale.symm.trans hscale')

end ExactCalc.Decimal
