import ExactCalc.Proofs.Decimal.Render
import ExactCalc.Proofs.Rational.Expansion
import ExactCalc.Proofs.Rational.Literal

/-!
One text read as a decimal and as a rational. Both readers take a text without a slash, and they
take the same ones and give one number for it: with a point the rational reader asks the other one,
and without a point a decimal is an integer. A text with a slash is no decimal. So the two never
disagree, and the text of a decimal is read as that decimal's number. Decimals of great scales have
no text.
-/

namespace ExactCalc

open Text Numeral

namespace Decimal

variable {cs : List Char}

/-! ### Decimals without a point -/

theorem unsigned?_of_not_mem (h : '.' ∉ cs) :
    unsigned? cs = (natural? 10 cs).map fun n => (n, 0) := by
  rw [unsigned?, splitPoint_of_not_mem h, natural?]
  cases cs with
  | nil => rfl
  | cons c cs => cases hdigits : isDigits 10 (c :: cs) <;> simp [isDigitsOrEmpty, hdigits]

/-- An integer is put together from its sign and its magnitude. A negative zero is zero. -/
theorem ofInt_signed (negative : Bool) (n : Nat) :
    ofInt (signed negative n) = ofParts negative n 0 := by
  rw [ofInt, Rational.natAbs_signed]
  cases n with
  | zero => rw [ofParts_zero, ofParts_zero]
  | succ n =>
      have hsign : decide (signed negative (n + 1) < 0) = negative := by
        cases negative with
        | false => exact decide_eq_false (Int.not_lt.2 (Int.natCast_nonneg _))
        | true => exact decide_eq_true (show -((n + 1 : Nat) : Int) < 0 by omega)
      rw [hsign]

/-- Without a point a decimal is an integer. -/
theorem literal?_of_not_mem (h : '.' ∉ cs) : literal? cs = (integer? cs).map ofInt := by
  have hbody : '.' ∉ (splitSign (trim cs)).2 := by
    rwa [point_mem_splitSign, mem_trim_iff (by decide)]
  rw [← literal?_trim, literal?_of_trim_eq (trim_trim cs), integer?, bareInteger?,
    unsigned?_of_not_mem hbody]
  cases natural? 10 (splitSign (trim cs)).2 with
  | none => rfl
  | some n => exact congrArg some (ofInt_signed _ n).symm

/-- A decimal holds no slash. -/
theorem not_slash_mem_of_literal? {d : Decimal} (h : literal? cs = some d) : '/' ∉ cs := by
  have hnot : '/' ∉ trim cs := by
    rw [← literal?_trim] at h
    by_cases hpoint : '.' ∈ trim cs
    · exact Rational.not_slash_mem_decimal (signed_pointed_of_literal? (trim_trim cs) hpoint h)
    · rw [literal?_of_not_mem hpoint] at h
      obtain ⟨i, hi, -⟩ := Option.map_eq_some_iff.1 h
      rw [integer?_iff, trim_trim] at hi
      exact Rational.not_slash_mem_integer hi
  rwa [mem_trim_iff (by decide)] at hnot

theorem not_slash_mem_of_render? {d : Decimal} {printed : String} (h : d.render? = some printed) :
    '/' ∉ printed.toList := by
  intro hslash
  exact absurd (mem_of_render? h hslash) (by decide)

end Decimal

namespace Rational

theorem ofDecimal_ofInt (i : Int) : ofDecimal (Decimal.ofInt i) = ofInt i := by
  apply toRat_injective
  rw [toRat_ofDecimal, Decimal.toRat_ofInt, toRat_ofInt]

/-- Away from slashes the two readers accept the same texts and give one number for each. -/
theorem toOption_parse_of_no_slash {text : String} (hslash : '/' ∉ text.toList) :
    (parse text).toOption = (Decimal.parse text).toOption.map ofDecimal := by
  rw [Decimal.toOption_parse, ← Decimal.literal?_trim]
  by_cases hempty : trim text.toList = []
  · rw [parse, hempty]
    rfl
  have hslash' : '/' ∉ trim text.toList := by rwa [mem_trim_iff (by decide)]
  rw [parse_of_no_slash hempty hslash']
  by_cases hpoint : '.' ∈ trim text.toList
  · rw [if_pos (List.contains_iff_mem.2 hpoint), Decimal.parse, String.toList_ofList]
    cases Decimal.literal? (trim text.toList) <;> rfl
  · rw [if_neg (mt List.contains_iff_mem.1 hpoint), parseInteger, String.toList_ofList,
      Decimal.literal?_of_not_mem hpoint]
    cases integer? (trim text.toList) with
    | none => rfl
    | some i => exact congrArg some (ofDecimal_ofInt i).symm

/-- The sign of a zero makes no difference to the number. -/
theorem ofDecimal_ofParts (d : Decimal) :
    ofDecimal (Decimal.ofParts d.isNegative d.mantissa d.scale) = ofDecimal d := by
  apply toRat_injective
  rw [toRat_ofDecimal, toRat_ofDecimal, Decimal.toRat, Decimal.coefficient_ofParts,
    Decimal.scale_ofParts]
  rfl

/-- The text of a decimal is read as the number of the decimal. -/
theorem parse_of_render? {d : Decimal} {printed : String} (h : d.render? = some printed) :
    parse printed = .ok (ofDecimal d) := by
  have hagree := toOption_parse_of_no_slash (Decimal.not_slash_mem_of_render? h)
  rw [Decimal.toOption_parse, Decimal.literal?_of_render? h, Option.map_some, ofDecimal_ofParts,
    toOption_eq_some_iff] at hagree
  exact hagree

/-- What is read as a decimal is read as a rational of the same number, and the other way round if
there is no slash. A decimal has a text that is read as its number exactly if zeros can be filled up
to its scale. -/
theorem parse_agrees_with_decimal_iff (text : String) (d : Decimal) :
    (Decimal.parse text = .ok d → parse text = .ok (ofDecimal d)) ∧
    ('/' ∉ text.toList → ∀ a, parse text = .ok a →
      ∃ d, Decimal.parse text = .ok d ∧ ofDecimal d = a) ∧
    ((∃ printed, d.render? = some printed ∧ parse printed = .ok (ofDecimal d)) ↔
      d.scale < maxPadding) := by
  refine ⟨fun hd => ?_, fun hslash a ha => ?_, ?_, fun hscale => ?_⟩
  · have hliteral : Decimal.literal? text.toList = some d := by
      rw [← Decimal.toOption_parse, hd]
      rfl
    have hagree := toOption_parse_of_no_slash (Decimal.not_slash_mem_of_literal? hliteral)
    rw [hd] at hagree
    exact toOption_eq_some_iff.1 hagree
  · have hagree := toOption_parse_of_no_slash hslash
    rw [ha] at hagree
    obtain ⟨d, hd, hsame⟩ := Option.map_eq_some_iff.1 hagree.symm
    exact ⟨d, toOption_eq_some_iff.1 hd, hsame⟩
  · rintro ⟨printed, hprinted, -⟩
    exact Decimal.scale_lt_of_render? hprinted
  · obtain ⟨printed, hprinted⟩ := Decimal.exists_render? hscale
    exact ⟨printed, hprinted, parse_of_render? hprinted⟩

/-- A decimal without digits before the point, an integer with zeros in front, and a decimal whose
digits are fewer than its scale. -/
theorem parse_agrees_with_decimal_iff_of_half :
    let half := Decimal.ofParts true 50 2
    let small := Decimal.ofParts true 5 3
    Decimal.parse " -.50" = .ok half ∧ parse " -.50" = .ok (ofDecimal half) ∧
      '/' ∉ "-007".toList ∧ parse "-007" = .ok (ofInt (-7)) ∧
      (∃ d, Decimal.parse "-007" = .ok d ∧ ofDecimal d = ofInt (-7)) ∧
      small.scale < maxPadding ∧ small.render? = some "-0.005" ∧
      parse "-0.005" = .ok (ofDecimal small) := by
  intro half small
  have hhalf : Decimal.parse " -.50" = .ok half := rfl
  have hslash : '/' ∉ "-007".toList := by decide
  have hseven : parse "-007" = .ok (ofInt (-7)) := rfl
  have hscale : small.scale < maxPadding := by decide
  have hsmall : small.render? = some "-0.005" := by decide
  obtain ⟨hdecimal, -, -⟩ := parse_agrees_with_decimal_iff " -.50" half
  obtain ⟨-, hrational, -⟩ := parse_agrees_with_decimal_iff "-007" half
  obtain ⟨-, -, hprint⟩ := parse_agrees_with_decimal_iff "" small
  obtain ⟨printed, hprinted, hread⟩ := hprint.2 hscale
  obtain rfl : "-0.005" = printed := Option.some.inj (hsmall.symm.trans hprinted)
  exact ⟨hhalf, hdecimal hhalf, hslash, hseven, hrational hslash _ hseven, hscale, hsmall, hread⟩

/-- The least scale that is too great. The smallest positive number of this scale has no text, and
so none that is read again. -/
theorem parse_agrees_fails_without_text :
    let least := Decimal.ofParts false 1 65535
    least.render? = none ∧
      ¬∃ printed, least.render? = some printed ∧ parse printed = .ok (ofDecimal least) := by
  intro least
  have hnone : least.render? = none := Decimal.render?_eq_none_iff.2 (by decide)
  refine ⟨hnone, ?_⟩
  rintro ⟨printed, hprinted, -⟩
  rw [hnone] at hprinted
  exact nomatch hprinted

end Rational

end ExactCalc
