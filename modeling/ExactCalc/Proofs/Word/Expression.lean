import ExactCalc.Json.Exchange
import ExactCalc.Proofs.Word.Operations
import ExactCalc.Word.Bytes
import ExactCalc.Word.Literal
import Mathlib.Data.Nat.Digits.Defs

/-!
Words that come out of a composition of calls. An expression starts from the ways to read a word
from outside and goes on with operations on words, with whatever arguments. Its value, where it has
one, stores what plain arithmetic with one reduction for each call stores, so it fits its width, and
its bits are all there is to it.
-/

namespace ExactCalc.Word

open Stored Text

inductive Source where
  | integer (width : Nat) (i : Int)
  | natural (width n : Nat)
  | zero (width : Nat)
  | one (width : Nat)
  | allOnes (width : Nat)
  | signBit (width : Nat)
  | bytes (content : List UInt8) (width : Nat) (order : ByteOrder)
  | hex (text : String) (width : Nat)
  | binary (text : String) (width : Nat)
  | operand (text : String) (width : Nat)
  | json (text : String)

namespace Source

def word? : Source → Option Word
  | .integer width i => (ofInt width i).toOption
  | .natural width n => (ofNat width n).toOption
  | .zero width => (Word.zero width).toOption
  | .one width => (Word.one width).toOption
  | .allOnes width => (Word.allOnes width).toOption
  | .signBit width => (Word.signBit width).toOption
  | .bytes content width order => (ofBytes content width order).toOption
  | .hex text width => (parseHex text width).toOption
  | .binary text width => (parseBinary text width).toOption
  | .operand text width => (parseOperand text width).toOption
  | .json text => ofJson? text

/-- The number in the digits of a radix after an optional mark, if there are not too many. -/
def markedNumber? (mark : List Char) (radix limit : Nat) (literal : List Char) : Option Int :=
  let digits := dropMark mark (trim literal)
  if byteLength digits ≤ limit then (Numeral.natural? radix digits).map Int.ofNat else none

def width? : Source → Option Nat
  | .integer width _ | .natural width _ | .zero width | .one width | .allOnes width
  | .signBit width | .bytes _ width _ | .hex _ width | .binary _ width | .operand _ width =>
      some width
  | .json text => do
      let (_, size) ← fields? (← Json.parse? text)
      let width ← size.asNatural?
      if maxWidth < width then none else some width

/-- The number that a source spells, before any of its bits are cut off. -/
def number? : Source → Option Int
  | .integer _ i => some i
  | .natural _ n => some n
  | .zero _ => some 0
  | .one _ => some 1
  | .allOnes _ => some (-1)
  | .signBit width => some (2 ^ (width - 1))
  | .bytes content width order =>
      let lowFirst := if order = .littleEndian then content else content.reverse
      if content.length ≤ byteCount width then
        some (Nat.ofDigits 256 (lowFirst.map UInt8.toNat) : Nat)
      else none
  | .hex text width => markedNumber? ['0', 'x'] 16 (hexDigitCount width) text.toList
  | .binary text width => markedNumber? ['0', 'b'] 2 width text.toList
  | .operand text width =>
      let literal := trim text.toList
      if (dropMark? ['0', 'x'] literal).isSome then
        markedNumber? ['0', 'x'] 16 (hexDigitCount width) literal
      else if (dropMark? ['0', 'b'] literal).isSome then
        markedNumber? ['0', 'b'] 2 width literal
      else Numeral.integer? literal
  | .json text => do
      let (value, _) ← fields? (← Json.parse? text)
      let i ← Numeral.integer? (← value.asText?).toList
      if i < 0 then none else some i

def stored? (s : Source) : Option Stored := do
  ofNumber (← s.width?) (← s.number?)

theorem stored?_of_width? {s : Source} {width : Nat} (h : s.width? = some width) :
    s.stored? = s.number?.bind (ofNumber width) := by
  rw [stored?, h]
  rfl

theorem ofBytesLowFirst_eq_ofDigits (bytes : List UInt8) :
    ofBytesLowFirst bytes = Nat.ofDigits 256 (bytes.map UInt8.toNat) := by
  induction bytes with
  | nil => rfl
  | cons byte bytes ih =>
      rw [List.map_cons, Nat.ofDigits_cons, ← ih]
      rfl

theorem bind_ofNumber_zero (number? : Option Int) : number?.bind (ofNumber 0) = none := by
  cases number? <;> rfl

theorem stored_bytes (content : List UInt8) (width : Nat) (order : ByteOrder) :
    (ofBytes content width order).toOption.map stored =
      (Source.bytes content width order).stored? := by
  rw [stored?_of_width? rfl, number?, ofBytes.eq_def]
  by_cases hwidth : width = 0
  · subst hwidth
    rw [if_pos rfl, bind_ofNumber_zero]
    rfl
  · rw [if_neg hwidth]
    by_cases hlong : byteCount width < content.length
    · rw [if_pos hlong, if_neg (Nat.not_le_of_lt hlong)]
      rfl
    · rw [if_neg hlong, if_pos (Nat.le_of_not_lt hlong)]
      cases order <;> simp [stored_ofNat, ofBytesLowFirst_eq_ofDigits]

/-- Both readers of marked digits look at the width, then at the length, then at the digits. -/
theorem stored_marked (mark : List Char) (radix limit width : Nat) (literal : List Char)
    (tooLong bad : Fault) :
    (if width = 0 then .error .emptyWidth
      else if limit < byteLength (dropMark mark (trim literal)) then .error tooLong
      else match Numeral.natural? radix (dropMark mark (trim literal)) with
        | some n => ofNat width n
        | none => .error bad : Except Fault Word).toOption.map stored =
      (markedNumber? mark radix limit literal).bind (ofNumber width) := by
  by_cases hwidth : width = 0
  · subst hwidth
    rw [if_pos rfl, bind_ofNumber_zero]
    rfl
  · rw [if_neg hwidth, markedNumber?]
    by_cases hlong : limit < byteLength (dropMark mark (trim literal))
    · rw [if_pos hlong, if_neg (Nat.not_le_of_lt hlong)]
      rfl
    · rw [if_neg hlong, if_pos (Nat.le_of_not_lt hlong)]
      cases Numeral.natural? radix (dropMark mark (trim literal)) with
      | none => rfl
      | some n => exact stored_ofNat width n

theorem stored_hex (text : String) (width : Nat) :
    (parseHex text width).toOption.map stored =
      (markedNumber? ['0', 'x'] 16 (hexDigitCount width) text.toList).bind (ofNumber width) :=
  stored_marked _ _ _ _ _ _ _

theorem stored_binary (text : String) (width : Nat) :
    (parseBinary text width).toOption.map stored =
      (markedNumber? ['0', 'b'] 2 width text.toList).bind (ofNumber width) :=
  stored_marked _ _ _ _ _ _ _

theorem toOption_bind_ofInt (width : Nat) (number : Except Fault Int) :
    (number >>= ofInt width).toOption.map stored = number.toOption.bind (ofNumber width) := by
  cases number with
  | error fault => rfl
  | ok i => exact stored_ofInt width i

theorem stored_operand (text : String) (width : Nat) :
    (parseOperand text width).toOption.map stored =
      (Source.operand text width).stored? := by
  rw [stored?_of_width? rfl, number?, parseOperand]
  split
  · rw [stored_hex, String.toList_ofList]
  · split
    · rw [stored_binary, String.toList_ofList]
    · rw [toOption_bind_ofInt, Numeral.toOption_parseInteger, String.toList_ofList]

theorem stored_ofFields? (digits : String) (width : Nat) :
    (ofFields? digits width).map stored =
      (Numeral.integer? digits.toList).bind fun i =>
        if i < 0 then none else if maxWidth < width then none else ofNumber width i := by
  rw [ofFields?, Numeral.toOption_parseInteger]
  cases Numeral.integer? digits.toList with
  | none => rfl
  | some i =>
      have hofInt := stored_ofInt width i
      by_cases hneg : i < 0
      · simp [hneg]
      · by_cases hmax : maxWidth < width
        · simp [hmax]
        · simpa [hneg, hmax] using hofInt

theorem stored_json (text : String) :
    (ofJson? text).map stored = (Source.json text).stored? := by
  rw [ofJson?, stored?, width?, number?]
  cases Json.parse? text with
  | none => rfl
  | some json =>
      cases hfields : fields? json with
      | none => simp [hfields]
      | some members =>
          obtain ⟨value, size⟩ := members
          simp only [hfields, Option.bind_eq_bind, Option.bind_some]
          cases value.asText? with
          | none => simp
          | some digits =>
              cases size.asNatural? with
              | none => rfl
              | some width =>
                  simp only [Option.bind_some, stored_ofFields?]
                  cases Numeral.integer? digits.toList with
                  | none => simp
                  | some i =>
                      by_cases hneg : i < 0 <;> by_cases hmax : maxWidth < width <;>
                        simp [hneg, hmax]

theorem stored_word? (s : Source) : s.word?.map stored = s.stored? := by
  cases s with
  | integer width i => exact stored_ofInt width i
  | natural width n => exact stored_ofNat width n
  | zero width => exact stored_ofNat width 0
  | one width => exact stored_ofNat width 1
  | allOnes width =>
      refine (stored_ofNat width _).trans (ofNumber_congr (Int.modEq_iff_dvd.2 ⟨-1, ?_⟩))
      have hpos := Nat.two_pow_pos width
      rw [← natCast_two_pow]
      omega
  | signBit width =>
      refine (stored_ofNat width _).trans ?_
      rw [natCast_two_pow]
      rfl
  | bytes content width order => exact stored_bytes content width order
  | hex text width =>
      rw [stored?_of_width? rfl, number?]
      exact stored_hex text width
  | binary text width =>
      rw [stored?_of_width? rfl, number?]
      exact stored_binary text width
  | operand text width => exact stored_operand text width
  | json text => exact stored_json text

theorem inRange {s : Source} {t : Stored} (h : s.stored? = some t) : t.InRange := by
  obtain ⟨width, -, h⟩ := Option.bind_eq_some_iff.1 h
  obtain ⟨number, -, h⟩ := Option.bind_eq_some_iff.1 h
  exact inRange_of_ofNumber h

end Source

theorem Unary.inRange {op : Unary} {s t : Stored} (h : op.stored s = some t) : t.InRange := by
  cases op <;> simp only [Unary.stored, rotated, Option.ite_none_left_eq_some,
    Option.ite_none_right_eq_some] at h
  case neg | not | resize => exact inRange_of_ofNumber h
  all_goals exact inRange_of_ofNumber h.2

theorem Binary.inRange {op : Binary} {s t r : Stored} (h : op.stored s t = some r) :
    r.InRange := by
  rw [Binary.stored, Option.ite_none_right_eq_some] at h
  exact inRange_of_ofNumber h.2

theorem Division.inRange {op : Division} {s t r : Stored} (h : op.stored s t = some r) :
    r.InRange := by
  rw [Division.stored, Option.ite_none_right_eq_some] at h
  exact inRange_of_ofNumber h.2

theorem Stored.inRange_concat {high low r : Stored} (h : high.concat low = some r) :
    r.InRange := by
  rw [Stored.concat, Option.ite_none_right_eq_some] at h
  exact inRange_of_ofNumber h.2

inductive Expression where
  | source (s : Source)
  | unary (op : Unary) (operand : Expression)
  | binary (op : Binary) (left right : Expression)
  | division (op : Division) (dividend divisor : Expression)
  | concat (high low : Expression)

namespace Expression

/-- The word that the calls give, if none of them refuses. -/
def word? : Expression → Option Word
  | source s => s.word?
  | unary op operand => do (op.apply (← operand.word?)).toOption
  | binary op left right => do (op.apply (← left.word?) (← right.word?)).toOption
  | division op dividend divisor => do (op.apply (← dividend.word?) (← divisor.word?)).toOption
  | concat high low => do ((← high.word?).concat (← low.word?)).toOption

/-- What plain arithmetic stores for the same calls. -/
def stored? : Expression → Option Stored
  | source s => s.stored?
  | unary op operand => do op.stored (← operand.stored?)
  | binary op left right => do op.stored (← left.stored?) (← right.stored?)
  | division op dividend divisor => do op.stored (← dividend.stored?) (← divisor.stored?)
  | concat high low => do (← high.stored?).concat (← low.stored?)

/-- If two calls of one operation agree on what they store, so do their compositions. -/
theorem stored_bind₂ {apply : Word → Word → Except Fault Word}
    {plain : Stored → Stored → Option Stored}
    (h : ∀ a b, (apply a b).toOption.map stored = plain a.stored b.stored)
    (left? right? : Option Word) :
    (do (apply (← left?) (← right?)).toOption).map stored =
      (do plain (← left?.map stored) (← right?.map stored)) := by
  cases left? with
  | none => rfl
  | some a =>
      cases right? with
      | none => rfl
      | some b => exact h a b

/-- Words and plain arithmetic agree along every composition, refusals included. -/
theorem stored_word? (e : Expression) : e.word?.map stored = e.stored? := by
  induction e with
  | source s => exact s.stored_word?
  | unary op operand ih =>
      rw [word?, stored?, ← ih]
      cases operand.word? with
      | none => rfl
      | some a => exact op.stored_apply a
  | binary op left right ihl ihr =>
      rw [word?, stored?, ← ihl, ← ihr]
      exact stored_bind₂ op.stored_apply _ _
  | division op dividend divisor ihl ihr =>
      rw [word?, stored?, ← ihl, ← ihr]
      exact stored_bind₂ op.stored_apply _ _
  | concat high low ihh ihl =>
      rw [word?, stored?, ← ihh, ← ihl]
      exact stored_bind₂ stored_concat _ _

theorem inRange_of_bind₂ {plain : Stored → Stored → Option Stored}
    (hplain : ∀ {s t r : Stored}, plain s t = some r → r.InRange) {left? right? : Option Stored}
    {r : Stored} (h : (do plain (← left?) (← right?)) = some r) : r.InRange := by
  obtain ⟨_, -, h⟩ := Option.bind_eq_some_iff.1 h
  obtain ⟨_, -, h⟩ := Option.bind_eq_some_iff.1 h
  exact hplain h

/-- Every call ends in one reduction, whatever its operands are, so only the last call counts. -/
theorem inRange {e : Expression} {s : Stored} (h : e.stored? = some s) : s.InRange := by
  cases e with
  | source _ => exact Source.inRange h
  | unary op _ =>
      obtain ⟨_, -, hop⟩ := Option.bind_eq_some_iff.1 h
      exact Unary.inRange hop
  | binary op _ _ => exact inRange_of_bind₂ Binary.inRange h
  | division op _ _ => exact inRange_of_bind₂ Division.inRange h
  | concat _ _ => exact inRange_of_bind₂ inRange_concat h

theorem inRange_stored {e : Expression} {a : Word} (h : e.word? = some a) : a.stored.InRange := by
  apply inRange (e := e)
  rw [← stored_word?, h, Option.map_some]

end Expression

/-- Values that fit a width differ in a bit below it if they differ at all. -/
theorem eq_iff_bit {a b : Word} (ha : a.stored.InRange) (hb : b.stored.InRange)
    (hwidth : a.width = b.width) : a = b ↔ ∀ i < a.width, a.bit i = b.bit i := by
  constructor
  · rintro rfl i -
    rfl
  · intro hbits
    refine ext hwidth (Nat.eq_of_testBit_eq fun i => ?_)
    by_cases hi : i < a.width
    · have hi' : i < b.width := hwidth ▸ hi
      simpa [bit, hi, hi'] using hbits i hi
    -- Neither value has a bit there, since both fit.
    · have hle : a.width ≤ i := Nat.le_of_not_lt hi
      have hlta : a.value < 2 ^ i := lt_two_pow_of_le ha.2 hle
      have hltb : b.value < 2 ^ i := lt_two_pow_of_le hb.2 (hwidth.ge.trans hle)
      rw [Nat.testBit_lt_two_pow hlta, Nat.testBit_lt_two_pow hltb]

/-- What a composition of calls gives stores exactly what plain arithmetic stores, a value that fits
its width, and is determined at that width by its bits. -/
theorem Expression.word_canonical (e f : Expression) :
    e.word?.map stored = e.stored? ∧
    (∀ a, e.word? = some a → 1 ≤ a.width ∧ a.value < 2 ^ a.width) ∧
    ∀ a b, e.word? = some a → f.word? = some b → a.width = b.width →
      (a = b ↔ ∀ i < a.width, a.bit i = b.bit i) := by
  refine ⟨e.stored_word?, fun a ha => inRange_stored ha, ?_⟩
  intro a b ha hb hwidth
  exact eq_iff_bit (inRange_stored ha) (inRange_stored hb) hwidth

/-- The difference `3 - 5` at four bits, extended by its sign, beside `-3` at eight. -/
theorem Expression.extended_difference_canonical :
    let e := unary (.extend 4 true) (binary .sub (source (.integer 4 3)) (source (.integer 4 5)))
    let f := source (.integer 8 (-3))
    let a := wrap 8 (by decide) (-2)
    let b := wrap 8 (by decide) (-3)
    e.word? = some a ∧ f.word? = some b ∧ 1 ≤ a.width ∧ a.value < 2 ^ a.width ∧
      a.width = b.width ∧ (a = b ↔ ∀ i < a.width, a.bit i = b.bit i) := by
  intro e f a b
  have ha : e.word? = some a := by decide
  have hb : f.word? = some b := by decide
  have hcanonical := Expression.word_canonical e f
  obtain ⟨hpos, hlt⟩ := hcanonical.2.1 a ha
  exact ⟨ha, hb, hpos, hlt, rfl, hcanonical.2.2 a b ha hb rfl⟩

end ExactCalc.Word
