import ExactCalc.Proofs.Text.Places
import ExactCalc.Proofs.Word.Render

/-!
The digits of a word at the full length of its width: one binary digit for each bit, the highest bit
first, and one hexadecimal digit for every four bits that are begun. The readers of digits take them
back, with or without a mark and in either letter case, and printing takes back what is read from a
text of the full length that has no bit above the width. The zeros in front can be filled up to a
limit, and there are no digits beyond it.
-/

namespace ExactCalc.Word

open Text Numeral

variable {width : Nat} {a : Word} {text : String}

/-- A mark in front of digits: none, or zero with a letter in either case. -/
theorem toList_mark {m capital : Char} {mark small large : String} (h : mark ∈ ["", small, large])
    (hsmall : small.toList = ['0', m]) (hlarge : large.toList = ['0', capital])
    (hcase : sameLetter m capital = true) :
    mark.toList = [] ∨ ∃ c, mark.toList = ['0', c] ∧ sameLetter m c = true := by
  simp only [List.mem_cons, List.not_mem_nil, or_false] at h
  rcases h with rfl | rfl | rfl
  · exact .inl rfl
  · exact .inr ⟨m, hsmall, beq_self_eq_true _⟩
  · exact .inr ⟨capital, hlarge, hcase⟩

/-! ### Binary digits -/

theorem exists_binaryText? (h : a.width ≤ maxPadding) : ∃ text, a.binaryText? = some text :=
  ⟨_, binaryText?_eq_some_iff.2 ⟨h, rfl⟩⟩

theorem natural?_of_binaryText? (h : a.binaryText? = some text) :
    natural? 2 text.toList = some a.value := by
  obtain ⟨-, rfl⟩ := binaryText?_eq_some_iff.1 h
  rw [String.toList_ofList]
  exact natural?_padded (by decide) (natural?_binary a.value) a.width

theorem length_of_binaryText? (h : a.binaryText? = some text) : text.toList.length = a.width := by
  obtain ⟨-, rfl⟩ := binaryText?_eq_some_iff.1 h
  rw [String.toList_ofList, length_padded]
  exact max_eq_left (length_binary_le a.width_pos a.value_lt)

theorem eq_of_digitValue_lt_two {c : Char} (h : digitValue c < 2) :
    c = if digitValue c = 1 then '1' else '0' := by
  have hcapital := toUpper_eq (h.trans (by decide))
  rw [toUpper_eq_self (h.trans (by decide))] at hcapital
  rw [hcapital]
  generalize digitValue c = d at h
  interval_cases d <;> rfl

/-- The first digit is the highest bit and the last one the lowest. -/
theorem getElem_of_binaryText? (h : a.binaryText? = some text) {i : Nat}
    (hi : i < text.toList.length) :
    text.toList[i] = if a.bit (a.width - 1 - i) then '1' else '0' := by
  have hread := natural?_of_binaryText? h
  have hdigits := digitValue_lt_of_natural? hread
  have hvalue := digitValue_getElem hdigits hi
  rw [(natural?_eq_some_iff.1 hread).2, length_of_binaryText? h] at hvalue
  have hlow : a.width - 1 - i < a.width := by
    have := a.width_pos
    omega
  rw [eq_of_digitValue_lt_two (hdigits _ (List.getElem_mem hi)), hvalue, bit,
    Nat.testBit_eq_decide_div_mod_eq]
  simp [hlow]

theorem parseBinary_of_binaryText? (h : a.binaryText? = some text) {mark : String}
    (hmark : mark ∈ ["", "0b", "0B"]) : parseBinary (mark ++ text) a.width = .ok a := by
  have hread := natural?_of_binaryText? h
  have hfront : mark.toList = [] ∨ ∃ c, mark.toList = ['0', c] ∧ sameLetter 'b' c = true :=
    toList_mark hmark rfl rfl rfl
  have hdrop : dropMark ['0', 'b'] (trim (mark ++ text).toList) = text.toList := by
    rw [String.toList_append, dropMark_trim_append hfront (by decide) (by decide) hread]
  have hparse := Mark.binary.parse_of_dropMark a.width_pos hdrop hread
    (length_of_binaryText? h).le
  rwa [wrap_value] at hparse

theorem map_binaryText?_parseBinary (hwidth : 0 < width) (hmax : width ≤ maxPadding)
    (hlength : text.toList.length = width) (hdigits : ∀ c ∈ text.toList, c = '0' ∨ c = '1') :
    (parseBinary text width).map binaryText? = .ok (some text) := by
  have hvalue : ∀ c ∈ text.toList, digitValue c < 2 := by
    intro c hc
    rcases hdigits c hc with rfl | rfl <;> decide
  have hread := natural?_of_forall (List.ne_nil_of_length_pos (hlength ▸ hwidth)) hvalue
  have hlt := Numeral.value_lt hvalue
  rw [hlength] at hlt
  have hparse : parseBinary text width = .ok (wrap width hwidth (Numeral.value 2 text.toList)) :=
    Mark.binary.parse_of_dropMark hwidth (dropMark_trim_digits (by decide) (by decide) hread) hread
      hlength.le
  obtain ⟨printed, hprinted⟩ :=
    exists_binaryText? (a := wrap width hwidth (Numeral.value 2 text.toList)) hmax
  rw [hparse, Except.map, hprinted]
  -- Both texts have the same number of digits and are read as one number.
  have hback := natural?_of_binaryText? hprinted
  rw [value_wrap_of_lt hwidth hlt] at hback
  have hsame := upperCase_eq_of_natural? (by decide) hback hread
    ((length_of_binaryText? hprinted).trans hlength.symm)
  rw [upperCase_eq_self fun c hc => (digitValue_lt_of_natural? hback c hc).trans (by decide),
    upperCase_eq_self fun c hc => (hvalue c hc).trans (by decide)] at hsame
  rw [String.toList_inj.1 hsame]

/-! ### Hexadecimal digits -/

theorem hexText?_eq_some_iff : a.hexText? = some text ↔ hexDigitCount a.width ≤ maxPadding ∧
    String.ofList (padded (hexDigitCount a.width) (upperHex a.value)) = text := by
  simp [hexText?, padded?]

theorem exists_hexText? (h : hexDigitCount a.width ≤ maxPadding) :
    ∃ text, a.hexText? = some text :=
  ⟨_, hexText?_eq_some_iff.2 ⟨h, rfl⟩⟩

theorem natural?_of_hexText? (h : a.hexText? = some text) :
    natural? 16 text.toList = some a.value := by
  obtain ⟨-, rfl⟩ := hexText?_eq_some_iff.1 h
  rw [String.toList_ofList]
  exact natural?_padded (by decide) (natural?_upperHex a.value) _

theorem length_of_hexText? (h : a.hexText? = some text) :
    text.toList.length = hexDigitCount a.width := by
  obtain ⟨-, rfl⟩ := hexText?_eq_some_iff.1 h
  rw [String.toList_ofList, length_padded]
  exact max_eq_left (length_upperHex_le (hexDigitCount_pos a.width_pos)
    (lt_two_pow_of_le a.value_lt (le_four_mul_hexDigitCount a.width)))

theorem mem_capitals_of_hexText? (h : a.hexText? = some text) {c : Char} (hc : c ∈ text.toList) :
    c ∈ "0123456789ABCDEF".toList := by
  have hcapital : ∀ d < 16, d.digitChar.toUpper ∈ "0123456789ABCDEF".toList := by decide
  obtain ⟨-, rfl⟩ := hexText?_eq_some_iff.1 h
  rw [String.toList_ofList, padded, List.mem_append] at hc
  rcases hc with hc | hc
  · rw [List.eq_of_mem_replicate hc]
    exact hcapital 0 (by decide)
  · obtain ⟨digit, hmem, rfl⟩ := List.mem_map.1 hc
    have hread : natural? 16 (Nat.toDigits 16 a.value) = some a.value :=
      natural?_toDigits (by decide) (by decide) a.value
    have hdigit := digitValue_lt_of_natural? hread digit hmem
    rw [toUpper_eq hdigit]
    exact hcapital _ hdigit

theorem upperCase_of_hexText? (h : a.hexText? = some text) :
    upperCase text.toList = text.toList := by
  have hcapital : ∀ c ∈ "0123456789ABCDEF".toList, c.toUpper = c :=
    List.forall_iff_forall_mem.1 (by decide)
  rw [upperCase, List.map_congr_left fun c hc => hcapital c (mem_capitals_of_hexText? h hc),
    List.map_id']

/-- The letter case of the digits makes no difference. -/
theorem parseHex_of_hexText? (h : a.hexText? = some text) {mark digits : String}
    (hmark : mark ∈ ["", "0x", "0X"]) (hcase : upperCase digits.toList = text.toList) :
    parseHex (mark ++ digits) a.width = .ok a := by
  have hread : natural? 16 digits.toList = some a.value := by
    rw [← natural?_map_toUpper, ← upperCase, hcase, natural?_of_hexText? h]
  have hlength : digits.toList.length = hexDigitCount a.width := by
    rw [← length_of_hexText? h, ← hcase, upperCase, List.length_map]
  have hfront : mark.toList = [] ∨ ∃ c, mark.toList = ['0', c] ∧ sameLetter 'x' c = true :=
    toList_mark hmark rfl rfl rfl
  have hdrop : dropMark ['0', 'x'] (trim (mark ++ digits).toList) = digits.toList := by
    rw [String.toList_append, dropMark_trim_append hfront (by decide) (by decide) hread]
  have hparse := Mark.hex.parse_of_dropMark a.width_pos hdrop hread
    (hlength.trans (hexDigitCount_eq_ceilDiv _)).le
  rwa [wrap_value] at hparse

theorem map_hexText?_parseHex (hwidth : 0 < width) (hmax : hexDigitCount width ≤ maxPadding)
    (hlength : text.toList.length = hexDigitCount width)
    (hdigits : ∀ c ∈ text.toList, c ∈ "0123456789abcdefABCDEF".toList)
    (hbits : ∀ i, width ≤ i → (Numeral.value 16 text.toList).testBit i = false) :
    (parseHex text width).map hexText? = .ok (some (String.ofList (upperCase text.toList))) := by
  have hvalue : ∀ c ∈ text.toList, digitValue c < 16 := by
    have hall : ∀ c ∈ "0123456789abcdefABCDEF".toList, digitValue c < 16 :=
      List.forall_iff_forall_mem.1 (by decide)
    exact fun c hc => hall c (hdigits c hc)
  have hread := natural?_of_forall
    (List.ne_nil_of_length_pos (hlength ▸ hexDigitCount_pos hwidth)) hvalue
  have hlt : Numeral.value 16 text.toList < 2 ^ width := Nat.lt_pow_two_of_testBit _ hbits
  have hparse : parseHex text width = .ok (wrap width hwidth (Numeral.value 16 text.toList)) :=
    Mark.hex.parse_of_dropMark hwidth (dropMark_trim_digits (by decide) (by decide) hread) hread
      (hlength.trans (hexDigitCount_eq_ceilDiv _)).le
  obtain ⟨printed, hprinted⟩ :=
    exists_hexText? (a := wrap width hwidth (Numeral.value 16 text.toList)) hmax
  rw [hparse, Except.map, hprinted]
  have hback := natural?_of_hexText? hprinted
  rw [value_wrap_of_lt hwidth hlt] at hback
  have hsame := upperCase_eq_of_natural? le_rfl hback hread
    ((length_of_hexText? hprinted).trans hlength.symm)
  rw [upperCase_of_hexText? hprinted] at hsame
  rw [← hsame, String.ofList_toList]

/-- The digits of a word, as many as its width takes, are read as the word, and the words of such
digits are printed in them, wherever zeros can be filled up to so many digits. -/
theorem full_digits_read_back :
    (∀ a : Word,
      (a.width ≤ maxPadding → ∃ text, a.binaryText? = some text ∧ text.length = a.width ∧
        (∀ i < a.width,
          text.toList[i]? = some (if a.bit (a.width - 1 - i) then '1' else '0')) ∧
        ∀ mark ∈ ["", "0b", "0B"], parseBinary (mark ++ text) a.width = .ok a) ∧
      (a.width ⌈/⌉ 4 ≤ maxPadding → ∃ text, a.hexText? = some text ∧
        text.length = a.width ⌈/⌉ 4 ∧
        (∀ c ∈ text.toList, c ∈ "0123456789ABCDEF".toList) ∧
        ∀ mark ∈ ["", "0x", "0X"], ∀ digits : String,
          upperCase digits.toList = text.toList →
            parseHex (mark ++ digits) a.width = .ok a)) ∧
    (∀ {width : Nat} {text : String}, 0 < width → width ≤ maxPadding → text.length = width →
      (∀ c ∈ text.toList, c = '0' ∨ c = '1') →
      (parseBinary text width).map binaryText? = .ok (some text)) ∧
    ∀ {width : Nat} {text : String}, 0 < width → width ⌈/⌉ 4 ≤ maxPadding →
      text.length = width ⌈/⌉ 4 →
      (∀ c ∈ text.toList, c ∈ "0123456789abcdefABCDEF".toList) →
      (∀ i, width ≤ i → (Numeral.value 16 text.toList).testBit i = false) →
      (parseHex text width).map hexText? =
        .ok (some (String.ofList (upperCase text.toList))) := by
  simp only [← hexDigitCount_eq_ceilDiv]
  refine ⟨fun a => ⟨fun hmax => ?_, fun hmax => ?_⟩,
    fun hwidth => map_binaryText?_parseBinary hwidth, fun hwidth => map_hexText?_parseHex hwidth⟩
  · obtain ⟨text, htext⟩ := exists_binaryText? hmax
    refine ⟨text, htext, length_of_binaryText? htext, fun i hi => ?_,
      fun mark => parseBinary_of_binaryText? htext⟩
    have hi' : i < text.toList.length := hi.trans_eq (length_of_binaryText? htext).symm
    rw [List.getElem?_eq_getElem hi', getElem_of_binaryText? htext]
  · obtain ⟨text, htext⟩ := exists_hexText? hmax
    exact ⟨text, htext, length_of_hexText? htext, fun c => mem_capitals_of_hexText? htext,
      fun mark hmark digits => parseHex_of_hexText? htext hmark⟩

/-- Ten bits take three hexadecimal digits, the first one with its two upper bits clear. -/
theorem full_digits_read_back_of_ten_bits :
    let a := wrap 10 (by decide) 0x1AF
    (a.width ≤ maxPadding ∧ a.binaryText? = some "0110101111" ∧ 0 < a.width ∧
      "0110101111".toList[0]? = some (if a.bit (a.width - 1 - 0) then '1' else '0') ∧
      "0B" ∈ ["", "0b", "0B"] ∧ parseBinary ("0B" ++ "0110101111") a.width = .ok a) ∧
    (a.width ⌈/⌉ 4 ≤ maxPadding ∧ a.hexText? = some "1AF" ∧ 'F' ∈ "1AF".toList ∧
      'F' ∈ "0123456789ABCDEF".toList ∧ "0X" ∈ ["", "0x", "0X"] ∧
      upperCase "1aF".toList = "1AF".toList ∧ parseHex ("0X" ++ "1aF") a.width = .ok a) ∧
    ("0110101111".length = 10 ∧ (∀ c ∈ "0110101111".toList, c = '0' ∨ c = '1') ∧
      (parseBinary "0110101111" 10).map binaryText? = .ok (some "0110101111")) ∧
    "1aF".length = 10 ⌈/⌉ 4 ∧ (∀ c ∈ "1aF".toList, c ∈ "0123456789abcdefABCDEF".toList) ∧
      (∀ i, 10 ≤ i → (Numeral.value 16 "1aF".toList).testBit i = false) ∧
      (parseHex "1aF" 10).map hexText? =
        .ok (some (String.ofList (upperCase "1aF".toList))) := by
  intro a
  have hbits : a.width ≤ maxPadding := by decide
  have hdigits : a.width ⌈/⌉ 4 ≤ maxPadding := by decide
  have hbinary : a.binaryText? = some "0110101111" := by decide
  have hhex : a.hexText? = some "1AF" := by decide
  obtain ⟨text, htext, -, hplaces, hreadBinary⟩ := (full_digits_read_back.1 a).1 hbits
  obtain rfl : "0110101111" = text := Option.some.inj (hbinary.symm.trans htext)
  obtain ⟨text, htext, -, hcapitals, hreadHex⟩ := (full_digits_read_back.1 a).2 hdigits
  obtain rfl : "1AF" = text := Option.some.inj (hhex.symm.trans htext)
  have hmark : "0B" ∈ ["", "0b", "0B"] := by decide
  have hmark' : "0X" ∈ ["", "0x", "0X"] := by decide
  have hmem : 'F' ∈ "1AF".toList := by decide
  have hcase : upperCase "1aF".toList = "1AF".toList := by decide
  have hchars : ∀ c ∈ "0110101111".toList, c = '0' ∨ c = '1' :=
    List.forall_iff_forall_mem.1 (by decide)
  have hchars' : ∀ c ∈ "1aF".toList, c ∈ "0123456789abcdefABCDEF".toList :=
    List.forall_iff_forall_mem.1 (by decide)
  have hsmall : ∀ i, 10 ≤ i → (Numeral.value 16 "1aF".toList).testBit i = false := fun i hi =>
    Nat.testBit_lt_two_pow (lt_two_pow_of_le (by decide) hi)
  exact ⟨⟨hbits, hbinary, a.width_pos, hplaces 0 a.width_pos, hmark, hreadBinary _ hmark⟩,
    ⟨hdigits, hhex, hmem, hcapitals _ hmem, hmark', hcase, hreadHex _ hmark' _ hcase⟩,
    ⟨by decide, hchars, full_digits_read_back.2.1 (by decide) hbits (by decide) hchars⟩,
    by decide, hchars', hsmall,
    full_digits_read_back.2.2 (by decide) hdigits (by decide) hchars' hsmall⟩

end ExactCalc.Word
