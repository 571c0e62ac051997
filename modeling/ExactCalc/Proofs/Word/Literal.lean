import ExactCalc.Proofs.Text.Numeral
import ExactCalc.Proofs.Text.Radix
import ExactCalc.Proofs.Word.Residue
import ExactCalc.Word.Literal
import Mathlib.Algebra.Order.Floor.Div
import Mathlib.GroupTheory.GroupAction.Ring

/-!
Operands that are accepted. A mark in front of an operand says in which radix its digits are, and no
decimal integer starts like a mark, so each operand has one reader. Digits after a mark are read as
their number as long as there are no more of them than the width takes, and a decimal integer is
read at any length.
-/

namespace ExactCalc

open Text Numeral

/-! ### Marks -/

/-- A mark that has a character which the text lacks is not in front of the text. -/
theorem Text.dropMark?_eq_none {mark cs : List Char} {m : Char} (hm : m ∈ mark)
    (h : ∀ c ∈ cs, sameLetter m c = false) : dropMark? mark cs = none := by
  induction mark generalizing cs with
  | nil => contradiction
  | cons first mark ih =>
      cases cs with
      | nil => rfl
      | cons c cs =>
          rw [dropMark?]
          split
          · next hsame =>
            rcases List.mem_cons.1 hm with rfl | hm
            · rw [h c List.mem_cons_self] at hsame
              contradiction
            · exact ih hm fun c hc => h c (List.mem_cons_of_mem _ hc)
          · rfl

theorem Numeral.digitValue_eq_of_sameLetter {a b : Char} (h : sameLetter a b = true) :
    digitValue a = digitValue b := by
  rw [← digitValue_toLower a, beq_iff_eq.1 h, digitValue_toLower]

/-- A letter is the same as its two cases and as no other letter. -/
theorem Text.sameLetter_iff {m c : Char} :
    sameLetter m c = true ↔ c = m ∨ c = m.toUpper ∨ c = m.toLower := by
  simp only [sameLetter, beq_iff_eq, ← Char.toNat_inj, toNat_toLower, toNat_toUpper]
  split_ifs <;> omega

namespace Word

variable {cs digits : List Char}

inductive Mark where
  | hex
  | binary

namespace Mark

def letter : Mark → Char
  | hex => 'x'
  | binary => 'b'

def radix : Mark → Nat
  | hex => 16
  | binary => 2

/-- How many digits a width takes. -/
def limit (width : Nat) : Mark → Nat
  | hex => width ⌈/⌉ 4
  | binary => width

/-- A text that begins with the mark, in either letter case, and what follows. -/
def Leads (mark : Mark) (cs digits : List Char) : Prop :=
  cs = '0' :: mark.letter :: digits ∨ cs = '0' :: mark.letter.toUpper :: digits

theorem radix_le (mark : Mark) : mark.radix ≤ 16 := by
  cases mark <;> decide

variable {mark mark' : Mark} {digits' : List Char}

theorem dropMark?_eq_some_iff (mark : Mark) :
    dropMark? ['0', mark.letter] cs = some digits ↔ mark.Leads cs digits := by
  have hzero {c : Char} : sameLetter '0' c = true ↔ c = '0' := by
    rw [sameLetter_iff, show '0'.toUpper = '0' from rfl, show '0'.toLower = '0' from rfl, or_self,
      or_self]
  have hletter {c : Char} :
      sameLetter mark.letter c = true ↔ c = mark.letter ∨ c = mark.letter.toUpper := by
    have hlower : mark.letter.toLower = mark.letter := by cases mark <;> rfl
    rw [sameLetter_iff, hlower, or_left_comm, or_self, or_comm]
  rcases cs with _ | ⟨zero, _ | ⟨c, rest⟩⟩
  · simp [dropMark?, Leads]
  · simp [dropMark?, Leads]
  · simp only [dropMark?, Option.ite_none_right_eq_some, hzero, hletter, Leads, List.cons.injEq,
      Option.some.injEq, or_and_right, and_or_left]

theorem Leads.unique (h : mark.Leads cs digits) (h' : mark'.Leads cs digits') :
    mark = mark' ∧ digits = digits' := by
  rcases h with rfl | rfl <;> rcases h' with h' | h' <;>
    cases mark <;> cases mark' <;> simp_all [letter]

theorem dropMark_of_leads (h : mark.Leads cs digits) : dropMark ['0', mark.letter] cs = digits := by
  rw [dropMark, mark.dropMark?_eq_some_iff.2 h, Option.getD_some]

end Mark

def Marked (cs : List Char) : Prop :=
  ∃ mark digits, Mark.Leads mark cs digits

/-- An integer is made of figures and signs, and a mark holds a letter. -/
theorem not_marked_of_integer {i : Int} (h : Integer cs i) : ¬Marked cs := by
  rintro ⟨mark, digits, rfl | rfl⟩
  · have hletter := h.forall_mem mark.letter (by simp)
    cases mark <;> exact absurd hletter (by decide)
  · have hletter := h.forall_mem mark.letter.toUpper (by simp)
    cases mark <;> exact absurd hletter (by decide)

/-! ### Readers -/

variable {width radix n : Nat} {text : String}

theorem hexDigitCount_eq_ceilDiv (width : Nat) : hexDigitCount width = width ⌈/⌉ 4 :=
  (Nat.ceilDiv_eq_add_pred_div width 4).symm

theorem byteLength_of_natural? (hradix : radix ≤ 36) (h : natural? radix digits = some n) :
    byteLength digits = digits.length := by
  have hsize := fun c hc => utf8Size_of_digitValue_lt
    ((digitValue_lt_of_natural? h c hc).trans_le hradix)
  clear h
  induction digits with
  | nil => rfl
  | cons c digits ih =>
      have hrest := ih fun c hc => hsize c (List.mem_cons_of_mem _ hc)
      rw [byteLength] at hrest ⊢
      rw [List.foldr_cons, hrest, hsize c List.mem_cons_self, List.length_cons, Nat.add_comm]

/-- Neither digits nor a mark in front of them are trimmed. -/
theorem trim_marked {m : Char} (hm : isBlank m = false) (hradix : radix ≤ 36)
    (hread : natural? radix digits = some n) :
    trim ('0' :: m :: digits) = '0' :: m :: digits := by
  refine trim_eq_self_of_forall (List.forall_mem_cons.2 ⟨by decide, ?_⟩)
  refine List.forall_mem_cons.2 ⟨hm, fun c hc => ?_⟩
  exact isBlank_of_digitValue_lt ((digitValue_lt_of_natural? hread c hc).trans_le hradix)

/-- Digits of a radix do not begin with a mark whose letter is none of them. -/
theorem dropMark_trim_digits {m : Char} (hm : radix ≤ digitValue m) (hradix : radix ≤ 36)
    (hread : natural? radix digits = some n) : dropMark ['0', m] (trim digits) = digits := by
  have hdigit := digitValue_lt_of_natural? hread
  have htrim : trim digits = digits := trim_eq_self_of_forall fun c hc =>
    isBlank_of_digitValue_lt ((hdigit c hc).trans_le hradix)
  have hnone : dropMark? ['0', m] digits = none := by
    refine Text.dropMark?_eq_none (m := m) (by simp) fun c hc => Bool.eq_false_iff.2 fun hsame => ?_
    have hvalue := digitValue_eq_of_sameLetter hsame
    exact absurd (hdigit c hc) (by omega)
  rw [htrim, dropMark, hnone, Option.getD_none]

/-- A mark in either letter case is dropped. -/
theorem dropMark_trim_marked {m c : Char} (hsame : sameLetter m c = true)
    (hm : digitValue m < 36) (hradix : radix ≤ 36) (hread : natural? radix digits = some n) :
    dropMark ['0', m] (trim ('0' :: c :: digits)) = digits := by
  have hblank : isBlank c = false := by
    rw [digitValue_eq_of_sameLetter hsame] at hm
    exact isBlank_of_digitValue_lt hm
  have hzero : sameLetter '0' '0' = true := rfl
  rw [trim_marked hblank hradix hread, dropMark, dropMark?, if_pos hzero, dropMark?, if_pos hsame]
  rfl

/-- A mark may stand in front of digits, in either letter case, or be missing. -/
theorem dropMark_trim_append {m : Char} {mark : List Char}
    (hmark : mark = [] ∨ ∃ c, mark = ['0', c] ∧ sameLetter m c = true)
    (hlow : radix ≤ digitValue m) (hm : digitValue m < 36)
    (hread : natural? radix digits = some n) :
    dropMark ['0', m] (trim (mark ++ digits)) = digits := by
  have hradix : radix ≤ 36 := hlow.trans hm.le
  rcases hmark with rfl | ⟨c, rfl, hsame⟩
  · exact dropMark_trim_digits hlow hradix hread
  · exact dropMark_trim_marked hsame hm hradix hread

namespace Mark

def parse : Mark → String → Nat → Except Fault Word
  | hex => parseHex
  | binary => parseBinary

def tooMany (given width : Nat) : Mark → Fault
  | hex => .tooManyHexDigits given (hexDigitCount width) width
  | binary => .tooManyBinaryDigits given width

def bad (text : String) : Mark → Fault
  | hex => .badHexDigits text
  | binary => .badBinaryDigits text

/-- Either reader looks at the width, at the number of digits and at the digits in turn. -/
theorem parse_eq (mark : Mark) (hdrop : dropMark ['0', mark.letter] (trim text.toList) = digits)
    (width : Nat) :
    mark.parse text width =
      if width = 0 then .error .emptyWidth
      else if mark.limit width < byteLength digits then
        .error (mark.tooMany (byteLength digits) width)
      else match natural? mark.radix digits with
        | some n => ofNat width n
        | none => .error (mark.bad text) := by
  subst hdrop
  cases mark with
  | hex =>
      rw [limit, ← hexDigitCount_eq_ceilDiv]
      rfl
  | binary => rfl

/-- Digits behind a mark are read as long as there are no more of them than the width takes. -/
theorem parse_of_dropMark (mark : Mark) (hwidth : 0 < width)
    (hdrop : dropMark ['0', mark.letter] (trim text.toList) = digits)
    (hread : natural? mark.radix digits = some n) (hlimit : digits.length ≤ mark.limit width) :
    mark.parse text width = .ok (wrap width hwidth n) := by
  rw [mark.parse_eq hdrop, byteLength_of_natural? (mark.radix_le.trans (by decide)) hread,
    if_neg hwidth.ne', if_neg (Nat.not_lt.2 hlimit), hread, ← truncate_eq_wrap]
  exact dif_pos hwidth

end Mark

theorem parseOperand_of_leads {mark : Mark} (h : mark.Leads (trim text.toList) digits)
    (width : Nat) :
    parseOperand text width = mark.parse (String.ofList (trim text.toList)) width := by
  cases mark with
  | hex =>
      have hsome : dropMark? ['0', 'x'] (trim text.toList) = some digits :=
        Mark.hex.dropMark?_eq_some_iff.2 h
      rw [parseOperand, hsome]
      rfl
  | binary =>
      have hsome : dropMark? ['0', 'b'] (trim text.toList) = some digits :=
        Mark.binary.dropMark?_eq_some_iff.2 h
      have hnone : dropMark? ['0', 'x'] (trim text.toList) = none := by
        refine Option.eq_none_iff_forall_ne_some.2 fun digits' hother => ?_
        have hsame := (h.unique (Mark.hex.dropMark?_eq_some_iff.1 hother)).1
        contradiction
      rw [parseOperand, hnone, hsome]
      rfl

theorem parseOperand_of_not_marked (h : ¬Marked (trim text.toList)) (width : Nat) :
    parseOperand text width =
      Numeral.parseInteger (String.ofList (trim text.toList)) >>= ofInt width := by
  have hnone (mark : Mark) : dropMark? ['0', mark.letter] (trim text.toList) = none :=
    Option.eq_none_iff_forall_ne_some.2 fun digits hsome =>
      h ⟨mark, digits, mark.dropMark?_eq_some_iff.1 hsome⟩
  have hhex : dropMark? ['0', 'x'] (trim text.toList) = none := hnone .hex
  have hbinary : dropMark? ['0', 'b'] (trim text.toList) = none := hnone .binary
  rw [parseOperand, hhex, hbinary]
  rfl

/-- A decimal integer is wrapped, whatever blanks are around it. -/
theorem parseOperand_of_integer {i : Int} (h : Integer (trim text.toList) i) (width : Nat) :
    parseOperand text width = ofInt width i := by
  have hread : Numeral.parseInteger (String.ofList (trim text.toList)) = .ok i := by
    rw [parseInteger_eq_ok_iff, String.toList_ofList, integer?_iff, trim_trim]
    exact h
  rw [parseOperand_of_not_marked (not_marked_of_integer h), hread]
  rfl

theorem parseOperand_marked (mark : Mark) (hwidth : 0 < width)
    (hread : natural? mark.radix digits = some n) (hlimit : digits.length ≤ mark.limit width) :
    parseOperand (String.ofList ('0' :: mark.letter :: digits)) width =
      .ok (wrap width hwidth n) := by
  have hblank : isBlank mark.letter = false := by cases mark <;> rfl
  have htrim := trim_marked hblank (mark.radix_le.trans (by decide)) hread
  have hleads : mark.Leads (trim (String.ofList ('0' :: mark.letter :: digits)).toList) digits := by
    rw [String.toList_ofList, htrim]
    exact .inl rfl
  rw [parseOperand_of_leads hleads]
  refine mark.parse_of_dropMark hwidth (Mark.dropMark_of_leads ?_) hread hlimit
  rwa [String.toList_ofList, trim_trim]

end Word

end ExactCalc
