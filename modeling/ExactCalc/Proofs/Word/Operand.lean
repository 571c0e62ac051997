import ExactCalc.Proofs.Text.Places
import ExactCalc.Proofs.Word.Literal

/-!
Operands as a grammar. An operand is a decimal integer of any length, or it has a mark in front, in
either letter case, and digits of the mark's radix behind, no more of them than the width takes. The
reader takes the operands and nothing else, each for the residue of the number that it spells, and
the mark alone decides with which kind of fault anything else is refused.
-/

namespace ExactCalc

open Text Numeral

theorem Numeral.kind_of_parseInteger {text : String} {fault : Fault}
    (h : parseInteger text = .error fault) : fault.kind = .format := by
  rw [parseInteger] at h
  split at h
  · cases h
  · obtain rfl := Except.error.inj h
    rfl

namespace Word

variable {width : Nat} {text : String} {cs digits : List Char} {i : Int} {a : Word} {fault : Fault}

/-! ### The grammar -/

/-- The texts that are operands of a width, and the numbers that they spell. -/
inductive Operand (width : Nat) : List Char → Int → Prop
  | marked {mark : Mark} {cs digits : List Char} {n : Nat} (hmark : mark.Leads cs digits)
      (hdigits : RadixDigits mark.radix digits n) (hlength : digits.length ≤ mark.limit width) :
      Operand width cs n
  | decimal {cs : List Char} {i : Int} (hinteger : Integer cs i) : Operand width cs i

/-! ### The readers behind the marks -/

namespace Mark

variable {mark : Mark}

theorem parse_eq_ok_iff (hwidth : 0 < width) (h : mark.Leads (trim text.toList) digits) :
    mark.parse text width = .ok a ↔
      ∃ n, RadixDigits mark.radix digits n ∧ digits.length ≤ mark.limit width ∧
        a = wrap width hwidth n := by
  have hdrop := dropMark_of_leads h
  constructor
  · intro hread
    rw [mark.parse_eq hdrop, if_neg hwidth.ne'] at hread
    split at hread
    · contradiction
    · next hlimit =>
      split at hread
      · next n hdigits =>
        rw [byteLength_of_natural? (mark.radix_le.trans (by decide)) hdigits, Nat.not_lt] at hlimit
        rw [ofNat_of_pos hwidth, truncate_eq_wrap, Except.ok.injEq] at hread
        exact ⟨n, (natural?_iff_radixDigits mark.radix_le).1 hdigits, hlimit, hread.symm⟩
      · contradiction
  · rintro ⟨n, hdigits, hlength, rfl⟩
    have hread := (natural?_iff_radixDigits mark.radix_le).2 hdigits
    exact mark.parse_of_dropMark hwidth hdrop hread hlength

theorem kind_of_parse (h : mark.parse text width = .error fault) : fault.kind = .argument := by
  rw [mark.parse_eq rfl] at h
  split at h
  · obtain rfl := Except.error.inj h
    rfl
  · next hwidth =>
    split at h
    · obtain rfl := Except.error.inj h
      cases mark <;> rfl
    · split at h
      · rw [ofNat_of_pos (Nat.pos_of_ne_zero hwidth)] at h
        contradiction
      · obtain rfl := Except.error.inj h
        cases mark <;> rfl

theorem parse_zero_ne_ok : mark.parse text 0 ≠ .ok a := by
  rw [mark.parse_eq rfl, if_pos rfl]
  exact nofun

end Mark

/-! ### The reader of operands -/

/-- Behind a mark there are digits of the mark, and nothing else is an operand. -/
theorem Mark.Leads.operand_iff {mark : Mark} (h : mark.Leads cs digits) :
    Operand width cs i ↔
      ∃ n : Nat, RadixDigits mark.radix digits n ∧ digits.length ≤ mark.limit width ∧ i = n := by
  constructor
  · intro hoperand
    cases hoperand with
    | marked hmark hdigits hlength =>
        obtain ⟨rfl, rfl⟩ := h.unique hmark
        exact ⟨_, hdigits, hlength, rfl⟩
    | decimal hinteger => exact absurd ⟨mark, digits, h⟩ (not_marked_of_integer hinteger)
  · rintro ⟨n, hdigits, hlength, rfl⟩
    exact .marked h hdigits hlength

theorem operand_iff_integer (h : ¬Marked cs) : Operand width cs i ↔ Integer cs i := by
  constructor
  · intro hoperand
    cases hoperand with
    | marked hmark hdigits hlength => exact absurd ⟨_, _, hmark⟩ h
    | decimal hinteger => exact hinteger
  · exact .decimal

/-- The operands of a width are read, each as the word of the number that it spells. -/
theorem parseOperand_eq_ok_iff (hwidth : 0 < width) :
    parseOperand text width = .ok a ↔
      ∃ i, Operand width (trim text.toList) i ∧ a = wrap width hwidth i := by
  by_cases hmarked : Marked (trim text.toList)
  · obtain ⟨mark, digits, hmark⟩ := hmarked
    have htrim : mark.Leads (trim (String.ofList (trim text.toList)).toList) digits := by
      rwa [String.toList_ofList, trim_trim]
    rw [parseOperand_of_leads hmark, Mark.parse_eq_ok_iff hwidth htrim]
    simp only [hmark.operand_iff]
    constructor
    · rintro ⟨n, hdigits, hlength, rfl⟩
      exact ⟨n, ⟨n, hdigits, hlength, rfl⟩, rfl⟩
    · rintro ⟨_, ⟨n, hdigits, hlength, rfl⟩, rfl⟩
      exact ⟨n, hdigits, hlength, rfl⟩
  · rw [parseOperand_of_not_marked hmarked, bind_eq_ok_iff]
    refine exists_congr fun i => ?_
    rw [parseInteger_eq_ok_iff, String.toList_ofList, integer?_iff, trim_trim,
      operand_iff_integer hmarked, ofInt_of_pos hwidth, Except.ok.injEq]
    exact and_congr_right fun _ => eq_comm

/-- The mark of a text decides with which kind of fault it is refused. -/
theorem kind_of_parseOperand (hwidth : 0 < width) (h : parseOperand text width = .error fault) :
    (Marked (trim text.toList) → fault.kind = .argument) ∧
      (¬Marked (trim text.toList) → fault.kind = .format) := by
  constructor
  · rintro ⟨mark, digits, hmark⟩
    rw [parseOperand_of_leads hmark] at h
    exact Mark.kind_of_parse h
  · intro hmarked
    rw [parseOperand_of_not_marked hmarked, bind_eq_error_iff] at h
    rcases h with hrefused | ⟨i, -, hmade⟩
    · exact kind_of_parseInteger hrefused
    · rw [ofInt_of_pos hwidth] at hmade
      contradiction

theorem parseOperand_zero_ne_ok : parseOperand text 0 ≠ .ok a := by
  intro h
  by_cases hmarked : Marked (trim text.toList)
  · obtain ⟨mark, digits, hmark⟩ := hmarked
    rw [parseOperand_of_leads hmark] at h
    exact Mark.parse_zero_ne_ok h
  · rw [parseOperand_of_not_marked hmarked, bind_eq_ok_iff] at h
    obtain ⟨i, -, hmade⟩ := h
    contradiction

/-- A word is read from the operands of its width, as the residue of the number that is spelled, and
what is refused is refused for its mark or for its form. No text is an operand of width zero. -/
theorem operands_read (text : String) (width : Nat) :
    (0 < width →
      (∀ a, parseOperand text width = .ok a ↔
        ∃ i, Operand width (trim text.toList) i ∧ a.width = width ∧
          (a.value : Int) = i % 2 ^ width) ∧
      ∀ fault, parseOperand text width = .error fault →
        (Marked (trim text.toList) → fault.kind = .argument) ∧
          (¬Marked (trim text.toList) → fault.kind = .format)) ∧
    ∀ a, parseOperand text 0 ≠ .ok a := by
  refine ⟨fun hwidth => ⟨fun a => ?_, fun fault => kind_of_parseOperand hwidth⟩,
    fun a => parseOperand_zero_ne_ok⟩
  simp only [parseOperand_eq_ok_iff hwidth, eq_wrap_iff]

/-- Five bits take two hexadecimal digits, although these hold eight, and no more than two. A mark
behind a sign is no mark. -/
theorem operands_read_of_five_bits :
    let ones := wrap 5 (by decide) 255
    let least := wrap 5 (by decide) (-16)
    0 < 5 ∧
    (Operand 5 (trim " 0XfF\n".toList) 255 ∧ parseOperand " 0XfF\n" 5 = .ok ones ∧
      ones.value = 31) ∧
    (Operand 5 (trim "-16".toList) (-16) ∧ parseOperand "-16" 5 = .ok least ∧ least.value = 16) ∧
    (∃ fault, parseOperand "0x001" 5 = .error fault ∧ Marked (trim "0x001".toList) ∧
      fault.kind = .argument) ∧
    (∃ fault, parseOperand "+0x1" 5 = .error fault ∧ ¬Marked (trim "+0x1".toList) ∧
      fault.kind = .format) ∧
    ∀ a, parseOperand "7" 0 ≠ .ok a := by
  intro ones least
  have hwidth : 0 < 5 := by decide
  have hhex : Operand 5 (trim " 0XfF\n".toList) 255 :=
    .marked (show Mark.hex.Leads _ ['f', 'F'] from .inr (by decide))
      ⟨by decide, List.forall_iff_forall_mem.1 (by decide), by decide⟩ (by decide)
  have hminus : Operand 5 (trim "-16".toList) (-16) :=
    .decimal (.minus ⟨16, ⟨by decide, List.forall_iff_forall_mem.1 (by decide), rfl⟩, rfl⟩)
  have hmarked : Marked (trim "0x001".toList) := ⟨.hex, ['0', '0', '1'], .inl (by decide)⟩
  have hplain : ¬Marked (trim "+0x1".toList) := by
    rintro ⟨mark, digits, h | h⟩ <;> exact absurd (List.cons.inj h).1 (by decide)
  have hlong : parseOperand "0x001" 5 = .error (.tooManyHexDigits 3 2 5) := rfl
  have hsigned : parseOperand "+0x1" 5 = .error (.malformed "integer format" "+0x1") := rfl
  exact ⟨hwidth,
    ⟨hhex, (((operands_read _ 5).1 hwidth).1 ones).2 ⟨255, hhex, rfl, by decide⟩, by decide⟩,
    ⟨hminus, (((operands_read _ 5).1 hwidth).1 least).2 ⟨-16, hminus, rfl, by decide⟩, by decide⟩,
    ⟨_, hlong, hmarked, (((operands_read _ 5).1 hwidth).2 _ hlong).1 hmarked⟩,
    ⟨_, hsigned, hplain, (((operands_read _ 5).1 hwidth).2 _ hsigned).2 hplain⟩,
    (operands_read "7" 0).2⟩

end Word

end ExactCalc
