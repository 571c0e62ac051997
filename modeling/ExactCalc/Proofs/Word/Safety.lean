import ExactCalc.Proofs.Word.Checked
import ExactCalc.Proofs.Word.Expression
import ExactCalc.Proofs.Word.Widths

/-!
Safety of the operations on words. A composition of calls whose widths fit 32 bits is run with every
step checked, from what is read outside to its last word. No step leaves its range, and the run ends
as the calls on words do. This rests on two facts about every word on the way: its value fits its
width, and its width fits 32 bits.
-/

namespace ExactCalc.Word

open Stored Text

variable {a b c : Word} {width : Nat} {α : Type}

/-! ### Words from outside -/

namespace Checked

def wide (n : Nat) : Checked Nat :=
  if n < 2 ^ 64 then .ok n else .error .outOfRange

def byteCount (width : Nat) : Checked Nat := do
  return (← wide (width + 7)) / 8

def hexDigitCount (width : Nat) : Checked Nat := do
  return (← wide (width + 3)) / 4

def given : Option α → Checked α
  | some x => .ok x
  | none => .error .unread

def ofBytes (bytes : List UInt8) (width : Nat) (order : ByteOrder) : Checked Stored := do
  nonEmpty width
  let limit ← byteCount width
  if limit < bytes.length then throw (.refused (.tooManyBytes bytes.length limit width))
  else
    match order with
    | .littleEndian => fill width (ofBytesLowFirst bytes)
    | .bigEndian => fill width (ofBytesLowFirst bytes.reverse)

def ofDigits (radix limit width : Nat) (digits : List Char) (tooLong bad : Fault) :
    Checked Stored :=
  if limit < byteLength digits then throw (.refused tooLong)
  else
    match Numeral.natural? radix digits with
    | some n => fill width n
    | none => throw (.refused bad)

def parseHex (text : String) (width : Nat) : Checked Stored := do
  let digits := dropMark ['0', 'x'] (trim text.toList)
  nonEmpty width
  let limit ← hexDigitCount width
  ofDigits 16 limit width digits (.tooManyHexDigits (byteLength digits) limit width)
    (.badHexDigits text)

def parseBinary (text : String) (width : Nat) : Checked Stored := do
  let digits := dropMark ['0', 'b'] (trim text.toList)
  nonEmpty width
  ofDigits 2 width width digits (.tooManyBinaryDigits (byteLength digits) width)
    (.badBinaryDigits text)

def parseOperand (text : String) (width : Nat) : Checked Stored :=
  let literal := trim text.toList
  if (dropMark? ['0', 'x'] literal).isSome then
    parseHex (String.ofList literal) width
  else if (dropMark? ['0', 'b'] literal).isSome then
    parseBinary (String.ofList literal) width
  else do
    ofInt width (← outcome (Numeral.parseInteger (String.ofList literal)))

def ofFields (digits : String) (width : Nat) : Checked Stored := do
  let i ← given (Numeral.parseInteger digits).toOption
  if i < 0 ∨ maxWidth < width then throw .unread else ofInt width i

def ofJson (text : String) : Checked Stored := do
  let (value, size) ← given (fields? (← given (Json.parse? text)))
  ofFields (← given value.asText?) (← given size.asNatural?)

def source : Source → Checked Stored
  | .integer width i => ofInt width i
  | .natural width n => ofNat width n
  | .zero width => ofNat width 0
  | .one width => ofNat width 1
  | .allOnes width => do
      nonEmpty width
      fill width (← mask width)
  | .signBit width => do
      nonEmpty width
      fill width (1 <<< (← minus width 1))
  | .bytes content width order => ofBytes content width order
  | .hex text width => parseHex text width
  | .binary text width => parseBinary text width
  | .operand text width => parseOperand text width
  | .json text => ofJson text

/-- A checked run leaves no range and gives what the calls on words give. -/
structure Agrees (run : Checked Stored) (word? : Option Word) : Prop where
  inRange : run ≠ .error .outOfRange
  same : run.toOption = word?.map stored

theorem agrees_of_eq {run : Checked Stored} {result : Except Fault Word}
    (h : run = outcome (result.map stored)) : Agrees run result.toOption := by
  subst h
  cases result with
  | error fault => exact ⟨nofun, rfl⟩
  | ok a => exact ⟨nofun, rfl⟩

theorem agrees_unread : Agrees (.error .unread) none :=
  ⟨nofun, rfl⟩

theorem Agrees.bind {run : Checked Stored} {word? : Option Word} {f : Stored → Checked Stored}
    {g : Word → Option Word} (h : Agrees run word?)
    (hnext : ∀ a, word? = some a → Agrees (f a.stored) (g a)) :
    Agrees (run >>= f) (word? >>= g) := by
  obtain ⟨hrange, hsame⟩ := h
  cases word? with
  | none =>
      cases run with
      | error stop => exact ⟨hrange, rfl⟩
      | ok s => contradiction
  | some a =>
      cases run with
      | error stop => contradiction
      | ok s =>
          obtain rfl : s = a.stored := Option.some.inj hsame
          exact hnext a rfl

theorem Agrees.given {x? : Option α} {f : α → Checked Stored} {g : α → Option Word}
    (hnext : ∀ x, Agrees (f x) (g x)) : Agrees (given x? >>= f) (x? >>= g) := by
  cases x? with
  | none => exact agrees_unread
  | some x => exact hnext x

theorem wide_of_le {n : Nat} (h : n ≤ maxWidth + 7) : wide n = .ok n :=
  if_pos (h.trans_lt (by decide))

theorem byteCount_eq (hmax : width ≤ maxWidth) :
    byteCount width = .ok (Word.byteCount width) := by
  rw [byteCount, wide_of_le (Nat.add_le_add_right hmax 7)]
  rfl

theorem hexDigitCount_eq (hmax : width ≤ maxWidth) :
    hexDigitCount width = .ok (Word.hexDigitCount width) := by
  rw [hexDigitCount, wide_of_le (Nat.add_le_add hmax (by decide))]
  rfl

theorem ofBytes_eq (bytes : List UInt8) (order : ByteOrder) (hmax : width ≤ maxWidth) :
    ofBytes bytes width order = outcome ((Word.ofBytes bytes width order).map stored) := by
  rw [ofBytes.eq_def, Word.ofBytes.eq_def, byteCount_eq hmax]
  rcases Nat.eq_zero_or_pos width with rfl | hwidth
  · rfl
  · rw [nonEmpty_of_pos hwidth, if_neg hwidth.ne', bind_ok, bind_ok]
    split
    · rfl
    · cases order <;> exact (fill_eq hwidth _).trans (outcome_ofNat hwidth _).symm

/-- Both readers of marked digits look at the length and then at the digits. -/
theorem ofDigits_eq (radix limit : Nat) (hwidth : 0 < width) (digits : List Char)
    (tooLong bad : Fault) :
    ofDigits radix limit width digits tooLong bad =
      outcome ((if limit < byteLength digits then .error tooLong
        else match Numeral.natural? radix digits with
          | some n => Word.ofNat width n
          | none => .error bad : Except Fault Word).map stored) := by
  rw [ofDigits]
  split
  · rfl
  · cases Numeral.natural? radix digits with
    | none => rfl
    | some n => exact (fill_eq hwidth _).trans (outcome_ofNat hwidth _).symm

theorem parseHex_eq (text : String) (hmax : width ≤ maxWidth) :
    parseHex text width = outcome ((Word.parseHex text width).map stored) := by
  rw [parseHex, Word.parseHex]
  rcases Nat.eq_zero_or_pos width with rfl | hwidth
  · rfl
  · simp only [nonEmpty_of_pos hwidth, hexDigitCount_eq hmax, bind_ok, if_neg hwidth.ne']
    exact ofDigits_eq 16 _ hwidth _ _ _

theorem parseBinary_eq (text : String) (width : Nat) :
    parseBinary text width = outcome ((Word.parseBinary text width).map stored) := by
  rw [parseBinary, Word.parseBinary]
  rcases Nat.eq_zero_or_pos width with rfl | hwidth
  · rfl
  · simp only [nonEmpty_of_pos hwidth, bind_ok, if_neg hwidth.ne']
    exact ofDigits_eq 2 _ hwidth _ _ _

theorem parseOperand_eq (text : String) (hmax : width ≤ maxWidth) :
    parseOperand text width = outcome ((Word.parseOperand text width).map stored) := by
  rw [parseOperand, Word.parseOperand]
  split
  · exact parseHex_eq _ hmax
  · split
    · exact parseBinary_eq _ width
    · cases Numeral.parseInteger (String.ofList (trim text.toList)) with
      | error fault => rfl
      | ok i => exact ofInt_eq width i

theorem allOnes_eq (width : Nat) :
    source (.allOnes width) = outcome ((Word.allOnes width).map stored) := by
  rw [source, mask_eq]
  exact ofNat_eq width _

theorem signBit_eq (width : Nat) :
    source (.signBit width) = outcome ((Word.signBit width).map stored) := by
  rw [source]
  rcases Nat.eq_zero_or_pos width with rfl | hwidth
  · rfl
  · rw [minus_of_le hwidth, bind_ok, Nat.one_shiftLeft]
    exact ofNat_eq width _

theorem agrees_ofFields (digits : String) (width : Nat) :
    Agrees (ofFields digits width) (ofFields? digits width) := by
  rw [ofFields, ofFields?]
  refine Agrees.given fun i => ?_
  by_cases h : i < 0 ∨ maxWidth < width
  · rw [if_pos h, if_pos (by simpa using h)]
    exact agrees_unread
  · rw [if_neg h, if_neg (by simpa using h)]
    exact agrees_of_eq (ofInt_eq width i)

theorem agrees_ofJson (text : String) : Agrees (ofJson text) (ofJson? text) := by
  rw [ofJson, ofJson?]
  refine Agrees.given fun json => ?_
  refine Agrees.given fun members => ?_
  refine Agrees.given fun digits => ?_
  exact Agrees.given fun width => agrees_ofFields digits width

theorem agrees_source {s : Source} (hmax : ∀ width, s.width? = some width → width ≤ maxWidth) :
    Agrees (source s) s.word? := by
  cases s with
  | integer width i => exact agrees_of_eq (ofInt_eq width i)
  | natural width n => exact agrees_of_eq (ofNat_eq width n)
  | zero width => exact agrees_of_eq (ofNat_eq width 0)
  | one width => exact agrees_of_eq (ofNat_eq width 1)
  | allOnes width => exact agrees_of_eq (allOnes_eq width)
  | signBit width => exact agrees_of_eq (signBit_eq width)
  | bytes content width order => exact agrees_of_eq (ofBytes_eq content order (hmax width rfl))
  | hex text width => exact agrees_of_eq (parseHex_eq text (hmax width rfl))
  | binary text width => exact agrees_of_eq (parseBinary_eq text width)
  | operand text width => exact agrees_of_eq (parseOperand_eq text (hmax width rfl))
  | json text => exact agrees_ofJson text

end Checked

/-! ### Widths -/

def Source.Bounded (s : Source) : Prop :=
  ∀ width, s.width? = some width → width ≤ maxWidth

/-- A width that is named fits 32 bits. The other operations refuse what grows too wide. -/
def Unary.Bounded : Unary → Prop
  | .resize width _ => width ≤ maxWidth
  | _ => True

def Expression.Bounded : Expression → Prop
  | source s => s.Bounded
  | unary op operand => op.Bounded ∧ operand.Bounded
  | binary _ left right | division _ left right | concat left right =>
      left.Bounded ∧ right.Bounded

theorem Source.width_le {s : Source} (hs : s.Bounded) (h : s.word? = some a) :
    a.width ≤ maxWidth := by
  have hstored : s.stored? = some a.stored := by rw [← stored_word?, h, Option.map_some]
  obtain ⟨width, hwidth, hnumber⟩ := Option.bind_eq_some_iff.1 hstored
  obtain ⟨number, -, hnumber⟩ := Option.bind_eq_some_iff.1 hnumber
  exact (width_of_ofNumber hnumber).trans_le (hs width hwidth)

theorem Unary.width_le {op : Unary} (hop : op.Bounded) (ha : a.width ≤ maxWidth)
    (h : op.apply a = .ok b) : b.width ≤ maxWidth := by
  have hstored := op.stored_eq_some h
  cases op <;> simp only [Unary.stored, rotated, Option.ite_none_left_eq_some,
    Option.ite_none_right_eq_some] at hstored
  case neg | not => exact (width_of_ofNumber hstored).trans_le ha
  case resize => exact (width_of_ofNumber hstored).trans_le hop
  case extract high low =>
    obtain ⟨⟨-, hhigh⟩, hstored⟩ := hstored
    rw [width_stored] at hhigh
    refine (width_of_ofNumber hstored).trans_le ?_
    omega
  case extend => exact (width_of_ofNumber hstored.2).trans_le hstored.1
  case replicate => exact (width_of_ofNumber hstored.2).trans_le hstored.1.2
  all_goals exact (width_of_ofNumber hstored.2).trans_le ha

theorem width_le_of_concat (h : a.concat b = .ok c) : c.width ≤ maxWidth := by
  have hstored : a.stored.concat b.stored = some c.stored := by
    rw [← stored_concat, h]
    rfl
  rw [Stored.concat, Option.ite_none_right_eq_some] at hstored
  exact (width_of_ofNumber hstored.2).trans_le hstored.1

theorem Expression.width_le {e : Expression} (he : e.Bounded) (h : e.word? = some a) :
    a.width ≤ maxWidth := by
  induction e generalizing a with
  | source s => exact Source.width_le he h
  | unary op operand ih =>
      obtain ⟨b, hb, h⟩ := Option.bind_eq_some_iff.1 h
      exact Unary.width_le he.1 (ih he.2 hb) (toOption_eq_some_iff.1 h)
  | binary op left right ihl _ =>
      obtain ⟨b, hb, h⟩ := Option.bind_eq_some_iff.1 h
      obtain ⟨_, -, h⟩ := Option.bind_eq_some_iff.1 h
      rw [op.width_of_apply (toOption_eq_some_iff.1 h)]
      exact ihl he.1 hb
  | division op dividend divisor ihl _ =>
      obtain ⟨b, hb, h⟩ := Option.bind_eq_some_iff.1 h
      obtain ⟨_, -, h⟩ := Option.bind_eq_some_iff.1 h
      rw [op.width_of_apply (toOption_eq_some_iff.1 h)]
      exact ihl he.1 hb
  | concat high low _ _ =>
      obtain ⟨_, -, h⟩ := Option.bind_eq_some_iff.1 h
      obtain ⟨_, -, h⟩ := Option.bind_eq_some_iff.1 h
      exact width_le_of_concat (toOption_eq_some_iff.1 h)

/-! ### Runs -/

namespace Checked

def run : Expression → Checked Stored
  | .source s => source s
  | .unary op operand => do unary op (← run operand)
  | .binary op left right => do binary op (← run left) (← run right)
  | .division op dividend divisor => do division op (← run dividend) (← run divisor)
  | .concat high low => do concat (← run high) (← run low)

theorem Agrees.bind₂ {left right : Checked Stored} {left? right? : Option Word}
    {call : Stored → Stored → Checked Stored} {apply : Word → Word → Except Fault Word}
    (hleft : Agrees left left?) (hright : Agrees right right?)
    (hcall : ∀ a b, call a.stored b.stored = outcome ((apply a b).map stored)) :
    Agrees (do call (← left) (← right)) (do (apply (← left?) (← right?)).toOption) := by
  refine hleft.bind fun a _ => ?_
  exact hright.bind fun b _ => agrees_of_eq (hcall a b)

/-- Each call gets words whose widths fit 32 bits, and its steps agree on those. -/
theorem agrees_run {e : Expression} (he : e.Bounded) : Agrees (run e) e.word? := by
  induction e with
  | source s => exact agrees_source he
  | unary op operand ih =>
      refine (ih he.2).bind fun a ha => ?_
      exact agrees_of_eq (unary_stored op (Expression.width_le he.2 ha))
  | binary op left right ihl ihr =>
      exact (ihl he.1).bind₂ (ihr he.2) (binary_stored op)
  | division op dividend divisor ihl ihr =>
      exact (ihl he.1).bind₂ (ihr he.2) (division_stored op)
  | concat high low ihh ihl => exact (ihh he.1).bind₂ (ihl he.2) concat_stored

end Checked

/-! ### Widths that grow -/

/-- The result of a call that asks for a width: a word of that width, or a refusal of the arguments
when no word is of that width. -/
def Sized (width : Nat) (result : Except Fault Word) : Prop :=
  if 0 < width ∧ width ≤ maxWidth then ∃ c, result = .ok c ∧ c.width = width
  else ∃ fault, result = .error fault ∧ fault.kind = .argument

theorem sized_widened {extra : Nat} {f : Nat → Except Fault Word} (hwidth : 0 < width)
    (hf : ∃ c, f (width + extra) = .ok c ∧ c.width = width + extra) :
    Sized (width + extra) (do f (← widened width extra)) := by
  rw [Sized, widened]
  split
  · next h =>
    rw [if_pos h.2]
    exact hf
  · next h =>
    rw [if_neg fun hmax => h ⟨Nat.add_pos_left hwidth extra, hmax⟩]
    exact ⟨_, rfl, rfl⟩

theorem sized_extend (a : Word) (extra : Nat) (signed : Bool) :
    Sized (a.width + extra) ((Unary.extend extra signed).apply a) := by
  have hwidth : 0 < a.width + extra := Nat.add_pos_left a.width_pos extra
  cases signed with
  | false => exact sized_widened a.width_pos ⟨_, dif_pos hwidth, rfl⟩
  | true => exact sized_widened a.width_pos ⟨_, dif_pos hwidth, rfl⟩

theorem sized_concat (a b : Word) : Sized (a.width + b.width) (a.concat b) :=
  sized_widened a.width_pos ⟨_, dif_pos (Nat.add_pos_left a.width_pos b.width), rfl⟩

theorem sized_replicate (a : Word) (count : Nat) :
    Sized (a.width * count) (a.replicate count) := by
  rw [Sized, Word.replicate]
  split
  · next h =>
    have hcount : count ≠ 0 := fun hzero => by simp [hzero] at h
    rw [if_neg hcount, if_pos h.2]
    exact ⟨_, dif_pos h.1, rfl⟩
  · next h =>
    by_cases hcount : count = 0
    · exact ⟨_, if_pos hcount, rfl⟩
    · have hwidth : 0 < a.width * count := Nat.mul_pos a.width_pos (Nat.pos_of_ne_zero hcount)
      rw [if_neg hcount, if_neg fun hmax => h ⟨hwidth, hmax⟩]
      exact ⟨_, rfl, rfl⟩

/-! ### Steps on words that are reached -/

/-- Checked steps on what a word stores give what its calls give. -/
structure SafeAlone (a : Word) : Prop where
  width_le : a.width ≤ maxWidth
  isNegative : Checked.isNegative a.stored = .ok a.isNegative
  reading (signed : Bool) : Checked.reading a.stored signed = .ok (a.reading signed)
  onesCount : Checked.onesCount a.stored = .ok a.onesCount
  leadingZeros : Checked.leadingZeros a.stored = .ok a.leadingZeros
  trailingZeros : Checked.trailingZeros a.stored = .ok a.trailingZeros
  byteCount : Checked.byteCount a.width = .ok (byteCount a.width)
  hexDigitCount : Checked.hexDigitCount a.width = .ok (hexDigitCount a.width)
  unary (op : Unary) : Checked.unary op a.stored = outcome ((op.apply a).map stored)
  extend (extra : Nat) (signed : Bool) :
    Sized (a.width + extra) ((Unary.extend extra signed).apply a)
  replicate (count : Nat) : Sized (a.width * count) (a.replicate count)

structure SafeTogether (a b : Word) : Prop where
  order (signed : Bool) : Checked.order a.stored b.stored signed = outcome (a.order b signed)
  binary (op : Binary) :
    Checked.binary op a.stored b.stored = outcome ((op.apply a b).map stored)
  division (op : Division) :
    Checked.division op a.stored b.stored = outcome ((op.apply a b).map stored)
  udivRem :
    Checked.udivRem a.stored b.stored = outcome ((a.udivRem b).map (Prod.map stored stored))
  concat : Checked.concat a.stored b.stored = outcome ((a.concat b).map stored)
  sized_concat : Sized (a.width + b.width) (a.concat b)

theorem safeAlone (hmax : a.width ≤ maxWidth) : SafeAlone a where
  width_le := hmax
  isNegative := Checked.isNegative_stored a
  reading := Checked.reading_stored a
  onesCount := Checked.onesCount_stored hmax
  leadingZeros := Checked.leadingZeros_stored hmax
  trailingZeros := Checked.trailingZeros_stored hmax
  byteCount := Checked.byteCount_eq hmax
  hexDigitCount := Checked.hexDigitCount_eq hmax
  unary op := Checked.unary_stored op hmax
  extend := sized_extend a
  replicate := sized_replicate a

theorem safeTogether (a b : Word) : SafeTogether a b where
  order := Checked.order_stored a b
  binary op := Checked.binary_stored op a b
  division op := Checked.division_stored op a b
  udivRem := Checked.udivRem_stored a b
  concat := Checked.concat_stored a b
  sized_concat := sized_concat a b

/-- No step of a composition of calls leaves its range, nor does any step of a further call on the
word that it gives, alone or with another word. -/
theorem Expression.steps_in_range {e : Expression} (he : e.Bounded) :
    Checked.Agrees (Checked.run e) e.word? ∧
    ∀ a, e.word? = some a → SafeAlone a ∧ ∀ b, SafeTogether a b :=
  ⟨Checked.agrees_run he, fun a ha => ⟨safeAlone (width_le he ha), safeTogether a⟩⟩

/-- All the bits of a word of the greatest width, whose highest bit has the greatest index. -/
theorem Expression.steps_in_range_of_greatest_width :
    let e := unary (.extract (maxWidth - 1) 0) (source (.natural maxWidth 1))
    let a := wrap maxWidth (by decide) 1
    e.Bounded ∧ e.word? = some a ∧
      Checked.Agrees (Checked.run e) e.word? ∧ SafeAlone a ∧ SafeTogether a a := by
  intro e a
  have he : e.Bounded := ⟨trivial, fun width h => (Option.some.inj h).ge⟩
  have ha : e.word? = some a := by decide
  obtain ⟨hrun, hsafe⟩ := Expression.steps_in_range he
  obtain ⟨halone, htogether⟩ := hsafe a ha
  exact ⟨he, ha, hrun, halone, htogether a⟩

end ExactCalc.Word
