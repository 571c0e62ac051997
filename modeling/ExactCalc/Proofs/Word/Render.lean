import ExactCalc.Calculator.WordCommand
import ExactCalc.Proofs.Word.Literal

/-!
The text of a word. Apart from a note of the width, which some styles put at the end, it is an
operand: decimal digits of a reading with its sign, or digits of the bits after their mark, as many
as the width takes at most. So the reader of operands gives the word back at its width, and words of
one width have different texts. Binary digits are filled up to the width, and where that is too long
there is no text.
-/

namespace ExactCalc.Word

open Text Numeral

def widthNote (width : Nat) : List Char :=
  s!" ({width}-bit)".toList

/-- A text without the note of the width, if it ends in one. -/
def withoutWidth (width : Nat) (text : String) : String :=
  match (widthNote width).isSuffixOf? text.toList with
  | some literal => String.ofList literal
  | none => text

/-- What stands in front of the note. -/
def literal (a : Word) (style : Style) (signed : Bool) : List Char :=
  match style with
  | .value | .decimal => (toString (a.reading signed)).toList
  | .binary => '0' :: 'b' :: padded a.width (binary a.value)
  | .hex => '0' :: 'x' :: upperHex a.value

variable {a b : Word} {style : Style} {signed : Bool} {text : String}

theorem binaryText?_eq_some_iff : a.binaryText? = some text ↔
    a.width ≤ maxPadding ∧ String.ofList (padded a.width (binary a.value)) = text := by
  simp [binaryText?, padded?]

/-- The one text that can be missing is that of more bits than zeros can be filled up to. -/
theorem renderAs?_eq_none_iff :
    a.renderAs? style signed = none ↔ style = .binary ∧ maxPadding < a.width := by
  cases style with
  | value | decimal | hex => simp [renderAs?]
  | binary => simp [renderAs?, binaryText?, padded?_eq_none_iff]

theorem exists_renderAs?_iff (a : Word) (style : Style) (signed : Bool) :
    (∃ text, a.renderAs? style signed = some text) ↔ (style = .binary → a.width ≤ maxPadding) := by
  rw [← Option.ne_none_iff_exists', Ne, renderAs?_eq_none_iff, not_and, Nat.not_lt]

theorem toList_of_renderAs? (h : a.renderAs? style signed = some text) :
    text.toList = a.literal style signed ++ if style = .value then [] else widthNote a.width := by
  -- The text is put together from pieces, and so is the note.
  have hnote (front : String) :
      (front ++ " (" ++ toString a.width ++ "-bit)").toList =
        front.toList ++ widthNote a.width := by
    rw [String.append_assoc, String.append_assoc, String.toList_append, ← String.append_assoc]
    rfl
  cases style with
  | value =>
      cases h
      exact (List.append_nil _).symm
  | decimal =>
      cases h
      exact hnote (toString (a.reading signed))
  | binary =>
      obtain ⟨digits, hdigits, rfl⟩ := Option.map_eq_some_iff.1 h
      obtain ⟨-, rfl⟩ := binaryText?_eq_some_iff.1 hdigits
      refine (hnote ("0b" ++ String.ofList (padded a.width (binary a.value)))).trans ?_
      rw [String.toList_append, String.toList_ofList, String.toList_ofList]
      rfl
  | hex =>
      cases h
      refine (hnote ("0x" ++ String.ofList (upperHex a.value))).trans ?_
      rw [String.toList_append, String.toList_ofList, String.toList_ofList]
      rfl

/-! ### The note -/

theorem space_mem_widthNote (width : Nat) : ' ' ∈ widthNote width := by
  rw [widthNote]
  show ' ' ∈ (" (" ++ toString width ++ "-bit)").toList
  rw [String.toList_append, String.toList_append]
  exact List.mem_append_left _ (List.mem_append_left _ List.mem_cons_self)

theorem withoutWidth_append {width : Nat} {text : String} {front : List Char}
    (h : text.toList = front ++ widthNote width) :
    withoutWidth width text = String.ofList front := by
  have hsuffix : (widthNote width).isSuffixOf? text.toList = some front :=
    List.isSuffixOf?_eq_some_iff_append_eq.2 h.symm
  rw [withoutWidth, hsuffix]

/-- The note has a blank, so what has none does not end in a note. -/
theorem withoutWidth_of_not_mem {width : Nat} {text : String} (h : ' ' ∉ text.toList) :
    withoutWidth width text = text := by
  cases hsuffix : (widthNote width).isSuffixOf? text.toList with
  | none => rw [withoutWidth, hsuffix]
  | some front =>
      rw [← List.isSuffixOf?_eq_some_iff_append_eq.1 hsuffix] at h
      exact absurd (List.mem_append_right front (space_mem_widthNote width)) h

theorem withoutWidth_of_renderAs? (h : a.renderAs? style signed = some text) :
    withoutWidth a.width text = String.ofList (a.literal style signed) := by
  have htext := toList_of_renderAs? h
  cases style with
  | value =>
      cases h
      have hdigits := integer_toString (a.reading signed)
      have hspace : ' ' ∉ (toString (a.reading signed)).toList := fun hmem =>
        absurd (hdigits.isBlank_eq_false ' ' hmem) (by decide)
      rw [withoutWidth_of_not_mem hspace]
      exact String.ofList_toList.symm
  | decimal | binary | hex => exact withoutWidth_append htext

/-! ### The literal -/

theorem hexDigitCount_pos {width : Nat} (hwidth : 0 < width) : 0 < hexDigitCount width := by
  rw [hexDigitCount]
  omega

theorem le_four_mul_hexDigitCount (width : Nat) : width ≤ 4 * hexDigitCount width := by
  rw [hexDigitCount]
  omega

/-- What stands in front of the note is read as the word. -/
theorem parseOperand_literal (a : Word) (style : Style) (signed : Bool) :
    parseOperand (String.ofList (a.literal style signed)) a.width = .ok a := by
  cases style with
  | value | decimal =>
      have hread := integer_toString (a.reading signed)
      rw [← hread.trim_eq, ← String.toList_ofList (l := (toString (a.reading signed)).toList)]
        at hread
      rw [literal, parseOperand_of_integer hread, ofInt_of_pos a.width_pos, wrap_reading]
  | binary =>
      have hread := natural?_padded (by decide) (natural?_binary a.value) a.width
      have hlength : (padded a.width (binary a.value)).length ≤ a.width := by
        rw [length_padded]
        exact max_le le_rfl (length_binary_le a.width_pos a.value_lt)
      have hparse := parseOperand_marked .binary a.width_pos hread hlength
      rwa [wrap_value] at hparse
  | hex =>
      have hlength : (upperHex a.value).length ≤ hexDigitCount a.width :=
        length_upperHex_le (hexDigitCount_pos a.width_pos)
          (lt_two_pow_of_le a.value_lt (le_four_mul_hexDigitCount a.width))
      rw [hexDigitCount_eq_ceilDiv] at hlength
      have hparse := parseOperand_marked .hex a.width_pos (natural?_upperHex a.value) hlength
      rwa [wrap_value] at hparse

theorem parseOperand_of_render? {output : WordOutput} (h : output.render? a = some text) :
    parseOperand (withoutWidth a.width text) a.width = .ok a := by
  rw [withoutWidth_of_renderAs? h, parseOperand_literal]

/-- A word has a text from which it comes back exactly if it is not printed in more binary digits
than zeros can be filled up to, and a text tells its word from the other words of its width. -/
theorem parseOperand_render?_iff (output : WordOutput) (a : Word) :
    ((∃ text, output.render? a = some text ∧
        parseOperand (withoutWidth a.width text) a.width = .ok a) ↔
      (output.style = .binary → a.width ≤ maxPadding)) ∧
    ∀ {b : Word} {text : String}, a.width = b.width → output.render? a = some text →
      output.render? b = some text → a = b := by
  refine ⟨?_, fun hwidth ha hb => ?_⟩
  · rw [← exists_renderAs?_iff a output.style output.signed]
    exact exists_congr fun text => and_iff_left_of_imp parseOperand_of_render?
  · have hread := parseOperand_of_render? ha
    rw [hwidth, parseOperand_of_render? hb] at hread
    exact (Except.ok.inj hread).symm

/-- The least number of five bits takes two hexadecimal digits, and two integers wrap to it. -/
theorem parseOperand_render?_iff_of_least :
    let least := wrap 5 (by decide) (-16)
    let same := wrap 5 (by decide) 16
    WordOutput.render? ⟨5, true, .hex⟩ least = some "0x10 (5-bit)" ∧
      parseOperand "0x10" 5 = .ok least ∧
      least.width = same.width ∧
      WordOutput.render? ⟨5, true, .value⟩ least = some "-16" ∧
      WordOutput.render? ⟨5, true, .value⟩ same = some "-16" ∧
      least = same := by
  intro least same
  have hleast : WordOutput.render? ⟨5, true, .value⟩ least = some "-16" := by decide
  have hsame : WordOutput.render? ⟨5, true, .value⟩ same = some "-16" := by decide
  have hhex : WordOutput.render? ⟨5, true, .hex⟩ least = some "0x10 (5-bit)" := by decide
  have hnote : withoutWidth 5 "0x10 (5-bit)" = "0x10" := by decide
  obtain ⟨text, htext, hread⟩ := (parseOperand_render?_iff ⟨5, true, .hex⟩ least).1.2 nofun
  obtain rfl : "0x10 (5-bit)" = text := Option.some.inj (hhex.symm.trans htext)
  refine ⟨hhex, ?_, rfl, hleast, hsame, (parseOperand_render?_iff _ least).2 rfl hleast hsame⟩
  rw [← hnote]
  exact hread

/-- The least width of which binary digits are too many. Two, as the sum of two ones, has no text,
and so none that is read again. -/
theorem parseOperand_render?_fails_for_many_bits :
    let two := wrap 65536 (by decide) 2
    let output : WordOutput := ⟨65536, false, .binary⟩
    output.render? two = none ∧
      ¬∃ text, output.render? two = some text ∧
        parseOperand (withoutWidth two.width text) two.width = .ok two := by
  intro two output
  have hnone : output.render? two = none := renderAs?_eq_none_iff.2 ⟨rfl, by decide⟩
  refine ⟨hnone, ?_⟩
  rintro ⟨text, htext, -⟩
  rw [hnone] at htext
  exact nomatch htext

end ExactCalc.Word
