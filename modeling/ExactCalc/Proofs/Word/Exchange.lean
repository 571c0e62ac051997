import ExactCalc.Json.Exchange
import ExactCalc.Proofs.Json.Object
import ExactCalc.Proofs.Word.Residue

/-!
Words that are exchanged as records. A text is first read as a record, the text of a value and a
size, and the record then as a word. Every record has a text that is read as this record; the record
of a word is read as the word, and any other one as the residue of its number, if it has one.
-/

namespace ExactCalc.Word

open Numeral Text

variable {text digits : String} {size : Nat} {a : Word} {i : Int}

def recordJson (digits : String) (size : Nat) : String :=
  "\x7b\"value\":" ++ Json.quote digits ++ ",\"size\":" ++ toString size ++ "\x7d"

/-- The record that a text holds. A size takes 32 bits. -/
def record? (text : String) : Option (String × Nat) := do
  let (value, size) ← fields? (← Json.parse? text)
  let digits ← value.asText?
  let size ← size.asNatural?
  if maxWidth < size then none else some (digits, size)

/-! ### A text and its record -/

theorem toList_recordJson (digits : String) (size : Nat) :
    (recordJson digits size).toList =
      '\x7b' :: Json.named "value".toList ++ (Json.quoted digits.toList ++
        ',' :: (Json.named "size".toList ++ (Nat.toDigits 10 size ++ ['\x7d']))) := by
  have hvalue : "\x7b\"value\":".toList = '\x7b' :: Json.named "value".toList := by decide
  have hsize : ",\"size\":".toList = ',' :: Json.named "size".toList := by decide
  have hbrace : "\x7d".toList = ['\x7d'] := rfl
  have hprint : (toString size).toList = Nat.toDigits 10 size := Nat.toList_repr
  simp only [recordJson, String.toList_append, Json.quote, String.toList_ofList, hvalue, hsize,
    hbrace, hprint, List.append_assoc, List.cons_append]

def membersOf (members : List (String × Json)) : List (List Nat × Json) :=
  members.map fun (name, value) => (name.toList.map Char.toNat, value)

theorem namedMembers?_membersOf (members : List (String × Json)) :
    namedMembers? (membersOf members) = some members := by
  induction members with
  | nil => rfl
  | cons member members ih =>
      rw [membersOf] at ih ⊢
      simp only [List.map_cons, namedMembers?, Json.text?_map_toNat, ih, Option.bind_eq_bind,
        Option.bind_some, String.ofList_toList]

/-- The text of a record is an object of its two members. -/
theorem parse?_recordJson (digits : String) (size : Nat) :
    Json.parse? (recordJson digits size) = some (.object (membersOf
      [("value", .string (digits.toList.map Char.toNat)),
        ("size", .number (Nat.toDigits 10 size))])) := by
  have hends : Json.EndsNumber ['\x7d'] := by
    intro c hc
    obtain rfl := Option.some.inj hc
    decide
  have hvalue (steps : Nat) : Json.value? (steps + 4) (recordJson digits size).toList = some
      (.object (membersOf [("value", .string (digits.toList.map Char.toNat)),
        ("size", .number (Nat.toDigits 10 size))]), []) := by
    rw [toList_recordJson, Json.value?_brace, Json.members?_comma (Json.value?_quoted _ _ _),
      Json.members?_brace (Json.value?_toDigits _ size hends)]
    rfl
  -- An object of two members takes four steps, and its text allows for more.
  obtain ⟨count, hcount⟩ : ∃ count, 2 * (recordJson digits size).toList.length + 2 = count + 4 := by
    rw [toList_recordJson, List.cons_append, List.length_cons]
    exact ⟨_, rfl⟩
  rw [Json.parse?]
  simp only [hcount, hvalue]
  rfl

/-- Every record has a text. -/
theorem record?_recordJson (digits : String) (hsize : size ≤ maxWidth) :
    record? (recordJson digits size) = some (digits, size) := by
  have hfields (value number : Json) :
      fields? (.object (membersOf [("value", value), ("size", number)])) =
        some (value, number) := by
    rw [fields?, namedMembers?_membersOf]
    rfl
  simp only [record?, parse?_recordJson, Option.bind_eq_bind, Option.bind_some, hfields,
    Json.asText?_string, Json.asNatural?_toDigits]
  exact if_neg (Nat.not_lt.2 hsize)

theorem ofFields?_of_maxWidth_lt (hsize : maxWidth < size) : ofFields? digits size = none := by
  rw [ofFields?]
  cases (parseInteger digits).toOption with
  | none => rfl
  | some i => exact if_pos (by simp [hsize])

/-- A text is read through its record. -/
theorem ofJson?_eq (text : String) :
    ofJson? text = (record? text).bind fun record => ofFields? record.1 record.2 := by
  rw [ofJson?, record?]
  cases Json.parse? text with
  | none => rfl
  | some json =>
      simp only [Option.bind_eq_bind, Option.bind_some]
      cases fields? json with
      | none => rfl
      | some members =>
          simp only [Option.bind_some]
          cases members.1.asText? with
          | none => rfl
          | some digits =>
              cases members.2.asNatural? with
              | none => rfl
              | some size =>
                  by_cases hsize : maxWidth < size
                  · simp [hsize, ofFields?_of_maxWidth_lt hsize]
                  · simp [hsize]

theorem ofJson?_of_record? (h : record? text = some (digits, size)) :
    ofJson? text = ofFields? digits size := by
  rw [ofJson?_eq, h, Option.bind_some]

theorem size_le_of_record? (h : record? text = some (digits, size)) : size ≤ maxWidth := by
  simp only [record?, Option.bind_eq_bind, Option.bind_eq_some_iff, Option.ite_none_left_eq_some,
    Option.some.injEq, Prod.mk.injEq] at h
  obtain ⟨json, -, members, -, digits', -, size', -, hsize, -, rfl⟩ := h
  exact Nat.not_lt.1 hsize

/-! ### A record and its word -/

/-- A record of a natural number is read like the number itself. -/
theorem ofFields?_of_integer (hsize : size ≤ maxWidth) (hi : 0 ≤ i)
    (h : Integer (trim digits.toList) i) : ofFields? digits size = (ofInt size i).toOption := by
  rw [ofFields?, toOption_parseInteger, integer?_iff.2 h]
  exact if_neg (by simp [hi, hsize])

theorem ofFields?_eq_some (h : ofFields? digits size = some a) :
    ∃ i : Int, 0 ≤ i ∧ Integer (trim digits.toList) i ∧ ofInt size i = .ok a := by
  rw [ofFields?, toOption_parseInteger] at h
  obtain ⟨i, hi, ha⟩ := Option.bind_eq_some_iff.1 h
  simp only [Option.ite_none_left_eq_some, Bool.or_eq_true, decide_eq_true_eq, not_or] at ha
  exact ⟨i, Int.not_lt.1 ha.1.1, integer?_iff.1 hi, toOption_eq_some_iff.1 ha.2⟩

theorem pos_of_ofInt (h : ofInt size i = .ok a) : 0 < size := by
  by_contra hsize
  rw [ofInt, dif_neg hsize] at h
  contradiction

/-- A record is read exactly if there are bits and its text is a numeral of a natural number. -/
theorem exists_ofFields?_iff (hsize : size ≤ maxWidth) :
    (∃ a, ofFields? digits size = some a) ↔
      1 ≤ size ∧ ∃ i : Int, 0 ≤ i ∧ Integer (trim digits.toList) i := by
  constructor
  · rintro ⟨a, ha⟩
    obtain ⟨i, hi, hread, hok⟩ := ofFields?_eq_some ha
    exact ⟨pos_of_ofInt hok, i, hi, hread⟩
  · rintro ⟨hpos, i, hi, hread⟩
    rw [ofFields?_of_integer hsize hi hread, ofInt_of_pos hpos]
    exact ⟨_, rfl⟩

theorem ofJson?_eq_some (hrecord : record? text = some (digits, size)) (h : ofJson? text = some a) :
    a.width = size ∧ ∃ i : Int, 0 ≤ i ∧ Integer (trim digits.toList) i ∧
      (a.value : Int) = i % 2 ^ size := by
  rw [ofJson?_of_record? hrecord] at h
  obtain ⟨i, hi, hread, hok⟩ := ofFields?_eq_some h
  have hpos := pos_of_ofInt hok
  rw [ofInt_of_pos hpos] at hok
  rw [← Except.ok.inj hok]
  exact ⟨rfl, i, hi, hread, value_wrap size hpos i⟩

/-- What is read has the width of a record, which is not too great. -/
theorem width_le_of_ofJson? (h : ofJson? text = some a) : a.width ≤ maxWidth := by
  have hread := h
  rw [ofJson?_eq] at hread
  obtain ⟨⟨digits, size⟩, hrecord, -⟩ := Option.bind_eq_some_iff.1 hread
  rw [(ofJson?_eq_some hrecord h).1]
  exact size_le_of_record? hrecord

/-- A word is read from its record. -/
theorem ofJson?_toJson (hmax : a.width ≤ maxWidth) : ofJson? a.toJson = some a := by
  have hprint : Integer (toString a.value).toList a.value := integer_toString a.value
  have hread : Integer (trim (toString a.value).toList) a.value := by
    rw [Integer.trim_eq hprint]
    exact hprint
  rw [toJson, ← recordJson, ofJson?_of_record? (record?_recordJson _ hmax),
    ofFields?_of_integer hmax (Int.natCast_nonneg _) hread, ofInt_of_pos a.width_pos, wrap_value]
  rfl

/-- Reading and writing a second time changes nothing, whether the first time succeeds or not. -/
theorem rewrite_idempotent (text : String) :
    ((ofJson? text).map toJson).bind (fun written => (ofJson? written).map toJson) =
      (ofJson? text).map toJson := by
  cases h : ofJson? text with
  | none => rfl
  | some a =>
      rw [Option.map_some, Option.bind_some, ofJson?_toJson (width_le_of_ofJson? h),
        Option.map_some]

/-- Words come back from their records. A record is read exactly if it has bits and its text,
without blanks around it, is a numeral of a number that is not negative, and then as the word of
this number, its residue at the width. -/
theorem records_read_back :
    (∀ a : Word, a.width ≤ maxWidth →
      record? a.toJson = some (toString a.value, a.width) ∧ ofJson? a.toJson = some a) ∧
    (∀ (digits : String) (size : Nat), size ≤ maxWidth →
      record? (recordJson digits size) = some (digits, size)) ∧
    (∀ text, record? text = none → ofJson? text = none) ∧
    (∀ text digits size, record? text = some (digits, size) →
      ((∃ a, ofJson? text = some a) ↔
        1 ≤ size ∧ ∃ i : Int, 0 ≤ i ∧ Integer (trim digits.toList) i) ∧
      (∀ i : Int, 0 ≤ i → Integer (trim digits.toList) i →
        ofJson? text = (ofInt size i).toOption) ∧
      ∀ a, ofJson? text = some a → a.width = size ∧
        ∃ i : Int, 0 ≤ i ∧ Integer (trim digits.toList) i ∧ (a.value : Int) = i % 2 ^ size) ∧
    (∀ text, ((ofJson? text).map toJson).bind (fun written => (ofJson? written).map toJson) =
      (ofJson? text).map toJson) ∧
    ∀ text a, ofJson? text = some a →
      1 ≤ a.width ∧ a.width ≤ maxWidth ∧ a.value < 2 ^ a.width := by
  refine ⟨fun a hmax => ⟨record?_recordJson _ hmax, ofJson?_toJson hmax⟩,
    fun digits size hsize => record?_recordJson digits hsize, fun text h => ?_,
    fun text digits size hrecord => ⟨?_, ?_, fun a => ofJson?_eq_some hrecord⟩,
    rewrite_idempotent, fun text a h => ⟨a.width_pos, width_le_of_ofJson? h, a.value_lt⟩⟩
  · rw [ofJson?_eq, h, Option.bind_none]
  · rw [ofJson?_of_record? hrecord]
    exact exists_ofFields?_iff (size_le_of_record? hrecord)
  · intro i hi hread
    rw [ofJson?_of_record? hrecord]
    exact ofFields?_of_integer (size_le_of_record? hrecord) hi hread

/-- A record of `300` has eight bits to fill and is read as `44`, whose own record is read as the
same word; a record of `-0` is read as zero. -/
theorem records_read_back_of_eight_bits :
    let a := wrap 8 (by decide) 44
    8 ≤ maxWidth ∧ ofJson? a.toJson = some a ∧
      record? (recordJson "300" 8) = some ("300", 8) ∧ ofJson? (recordJson "300" 8) = some a ∧
      record? (recordJson " -0 " 8) = some (" -0 ", 8) ∧
      ofJson? (recordJson " -0 " 8) = some (wrap 8 (by decide) 0) := by
  intro a
  have hmax : 8 ≤ maxWidth := by decide
  obtain ⟨hword, hrecords, -, hread, -⟩ := records_read_back
  have hlarge := hrecords "300" 8 hmax
  have hzero := hrecords " -0 " 8 hmax
  have hlargeDigits : Integer (trim "300".toList) 300 := integer?_iff.1 rfl
  have hzeroDigits : Integer (trim " -0 ".toList) 0 := integer?_iff.1 rfl
  refine ⟨hmax, (hword a hmax).2, hlarge, ?_, hzero, ?_⟩
  · rw [(hread _ _ _ hlarge).2.1 300 (by decide) hlargeDigits]
    rfl
  · rw [(hread _ _ _ hzero).2.1 0 (by decide) hzeroDigits]
    rfl

end ExactCalc.Word
