import ExactCalc.Calculator.WordCommand
import ExactCalc.Proofs.Decimal.Render
import ExactCalc.Proofs.Rational.Lossless

/-!
The command that prints a value in the style of a specifier. It prints words as unsigned numbers
and expands rationals to the default scale, whatever the settings in force say. So it gives the
text that the settings ask for except where their sign or their scale makes a difference to the
value.
-/

namespace ExactCalc

open Numeral

/-- Two texts for each value are the same text of a result if they are for its value. -/
theorem map_eq_map_iff {ε α β : Type} {result : Except ε α} {f g : α → β} :
    result.map f = result.map g ↔ ∀ a, result = .ok a → f a = g a := by
  cases result with
  | error fault => exact iff_of_true rfl fun _ h => nomatch h
  | ok a => simp [Except.map]

/-! ### Words -/

namespace Word

theorem reading_eq_unsigned_iff (a : Word) (signed : Bool) :
    a.reading signed = a.reading false ↔ (signed = true → a.isNegative = false) := by
  cases signed with
  | false => simp
  | true =>
      have hpos : (0 : Int) < 2 ^ a.width := Int.pow_pos (by decide)
      cases hnegative : a.isNegative with
      | false => simp [reading, toInt, hnegative]
      | true =>
          have hne : a.toInt ≠ a.value := by
            rw [toInt, if_pos hnegative]
            omega
          exact iff_of_false hne (by simp)

/-- The sign makes a difference where a negative word is printed in decimal digits. -/
theorem renderAs?_eq_unsigned_iff (a : Word) (style : Style) (signed : Bool) :
    a.renderAs? style signed = a.renderAs? style false ↔
      (style = .value ∨ style = .decimal → signed = true → a.isNegative = false) := by
  have hdigits : toString (a.reading signed) = toString (a.reading false) ↔
      (signed = true → a.isNegative = false) := by
    rw [← reading_eq_unsigned_iff, Numeral.toString_inj]
  cases style with
  | value => simpa [renderAs?] using hdigits
  | decimal => simpa [renderAs?] using hdigits
  | binary | hex => simp [renderAs?]

end Word

namespace WordCommand

theorem run_format (value spec : String) (output : WordOutput) {style : Word.Style}
    (hspec : Word.Style.parse spec = .ok style) :
    (format value spec).run output =
      (Word.parseOperand value output.width).map fun a => a.renderAs? style false := by
  rw [run]
  cases Word.parseOperand value output.width with
  | error fault => rfl
  | ok a => simp only [bind, Except.bind, Except.map, Word.format, hspec]

/-- A word is always printed as with unsigned settings, and so as the settings ask unless they are
signed, the word is negative and its digits are decimal. -/
theorem format_signed_iff (value spec : String) (output : WordOutput) (style : Word.Style)
    (hspec : Word.Style.parse spec = .ok style) :
    (format value spec).run output = (Word.parseOperand value output.width).map
        { output with style, signed := false }.render? ∧
      ((format value spec).run output = (Word.parseOperand value output.width).map
          { output with style }.render? ↔
        ∀ a, Word.parseOperand value output.width = .ok a →
          style = .value ∨ style = .decimal → output.signed = true → a.isNegative = false) := by
  rw [run_format value spec output hspec]
  refine ⟨rfl, ?_⟩
  rw [eq_comm, map_eq_map_iff]
  refine forall_congr' fun a => imp_congr_right fun _ => ?_
  exact Word.renderAs?_eq_unsigned_iff a style output.signed

/-- The bits of a negative word are the same under signed settings. -/
theorem format_signed_iff_of_hex :
    Word.Style.parse "x" = .ok .hex ∧
      (format "-1" "x").run ⟨8, true, .value⟩ =
        (Word.parseOperand "-1" 8).map (WordOutput.render? ⟨8, true, .hex⟩) := by
  have hspec : Word.Style.parse "x" = .ok .hex := rfl
  have hformat := format_signed_iff "-1" "x" ⟨8, true, .value⟩ .hex hspec
  exact ⟨hspec, hformat.2.2 fun _ _ hstyle => by simp at hstyle⟩

/-- Under signed settings the word of ones is `-1`, and a specifier makes it 255. -/
theorem format_loses_sign :
    Word.Style.parse "V" = .ok .value ∧
      (format "-1" "V").run ⟨8, true, .value⟩ = .ok (some "255") ∧
      (Word.parseOperand "-1" 8).map (WordOutput.render? ⟨8, true, .value⟩) = .ok (some "-1") ∧
      ¬(format "-1" "V").run ⟨8, true, .value⟩ =
        (Word.parseOperand "-1" 8).map (WordOutput.render? ⟨8, true, .value⟩) := by
  have hformat : (format "-1" "V").run ⟨8, true, .value⟩ = .ok (some "255") := rfl
  have hrender : (Word.parseOperand "-1" 8).map (WordOutput.render? ⟨8, true, .value⟩) =
      .ok (some "-1") := rfl
  refine ⟨rfl, hformat, hrender, ?_⟩
  rw [hformat, hrender]
  simp

end WordCommand

/-! ### Rationals -/

namespace Rational

/-- The scale makes a difference where the decimal expansion has more digits than the shorter of
two scales allows, if one of them is short enough for a text. -/
theorem renderAs?_eq_renderAs?_iff (a : Rational) (style : Style) {m : ℕ} (hm : m < maxPadding)
    (n : ℕ) :
    a.renderAs? style m = a.renderAs? style n ↔
      (style = .decimal → (a.toDecimal (max m n)).scale ≤ min m n) := by
  rw [← toDecimal_eq_toDecimal_iff]
  cases style with
  | fraction | general => simp [renderAs?]
  | decimal =>
      obtain ⟨printed, hprinted⟩ := Decimal.exists_render?
        ((scale_toDecimal_le a m).trans_lt hm)
      simp only [renderAs?, true_imp_iff]
      constructor
      · intro h
        exact Decimal.eq_of_render? hprinted (h.symm.trans hprinted)
      · exact congrArg Decimal.render?

end Rational

namespace RationalCommand

theorem run_format (value spec : String) (output : RationalOutput) {style : Rational.Style}
    (hspec : Rational.Style.parse spec = .ok style) :
    (format value spec).run output =
      (Rational.parse value).map fun a => a.renderAs? style Decimal.defaultScale := by
  rw [run]
  cases Rational.parse value with
  | error fault => rfl
  | ok a => simp only [bind, Except.bind, Except.map, Rational.format, hspec]

theorem run_parse (value : String) (output : RationalOutput) :
    (parse value).run output = (Rational.parse value).map output.render? := by
  rw [run]
  cases Rational.parse value <;> rfl

/-- A rational is always printed as with the default scale, and so as the settings ask unless its
expansion to the greater of the two scales takes more digits than the lesser one allows. -/
theorem format_scale_iff (value spec : String) (output : RationalOutput) (style : Rational.Style)
    (hspec : Rational.Style.parse spec = .ok style) :
    (format value spec).run output =
        (parse value).run { output with style, decimalScale := Decimal.defaultScale } ∧
      ((format value spec).run output = (parse value).run { output with style } ↔
        ∀ a, Rational.parse value = .ok a → style = .decimal →
          (a.toDecimal (max Decimal.defaultScale output.decimalScale)).scale ≤
            min Decimal.defaultScale output.decimalScale) := by
  rw [run_format value spec output hspec, run_parse, run_parse]
  refine ⟨rfl, ?_⟩
  rw [map_eq_map_iff]
  refine forall_congr' fun a => imp_congr_right fun _ => ?_
  exact Rational.renderAs?_eq_renderAs?_iff a style (by decide) output.decimalScale

/-- An eighth takes three digits at every scale that has them. -/
theorem format_scale_iff_of_eighth :
    Rational.Style.parse "d" = .ok .decimal ∧
      (format "1/8" "d").run ⟨.fraction, 3, .toEven⟩ =
        (parse "1/8").run ⟨.decimal, 3, .toEven⟩ := by
  have hspec : Rational.Style.parse "d" = .ok .decimal := rfl
  have hformat := format_scale_iff "1/8" "d" ⟨.fraction, 3, .toEven⟩ .decimal hspec
  have hparse : Rational.parse "1/8" = .ok (Rational.ofFraction 1 8 (by decide)) := rfl
  refine ⟨hspec, hformat.2.2 fun a ha _ => ?_⟩
  obtain rfl : Rational.ofFraction 1 8 (by decide) = a := Except.ok.inj (hparse.symm.trans ha)
  decide

/-- A third is asked for with three digits, and a specifier gives it 28. -/
theorem format_loses_scale :
    Rational.Style.parse "D" = .ok .decimal ∧
      (format "1/3" "D").run ⟨.decimal, 3, .toEven⟩ = .ok (some "0.3333333333333333333333333333") ∧
      (parse "1/3").run ⟨.decimal, 3, .toEven⟩ = .ok (some "0.333") ∧
      ¬(format "1/3" "D").run ⟨.decimal, 3, .toEven⟩ =
        (parse "1/3").run ⟨.decimal, 3, .toEven⟩ := by
  have hformat : (format "1/3" "D").run ⟨.decimal, 3, .toEven⟩ =
      .ok (some "0.3333333333333333333333333333") := rfl
  have hparse : (parse "1/3").run ⟨.decimal, 3, .toEven⟩ = .ok (some "0.333") := rfl
  refine ⟨rfl, hformat, hparse, ?_⟩
  rw [hformat, hparse]
  simp

end RationalCommand

end ExactCalc
