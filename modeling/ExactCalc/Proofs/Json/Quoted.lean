import ExactCalc.Json.Value
import Mathlib.Data.List.Basic

/-!
A text written as a JSON string reads as the same text. One character is written as itself or as
one escape, and reading takes back exactly what that character was written as, whatever follows;
the units that are read are code points of characters, among which there are no halves of
surrogate pairs.
-/

namespace ExactCalc.Json

open Numeral

/-! ### One character -/

theorem shortEscaped?_of_shortEscape? {c e : Char} (h : shortEscape? c = some e) :
    shortEscaped? e = some c ∧ e ≠ 'u' := by
  unfold shortEscape? at h
  split at h
  all_goals first | contradiction | (cases h; decide)

theorem units?_shortEscape {e c : Char} (hshort : shortEscaped? e = some c) (hne : e ≠ 'u')
    (rest : List Char) :
    units? ('\\' :: e :: rest) =
      (units? rest).map fun (units, rest) => (c.toNat :: units, rest) := by
  rw [units?, hshort]
  exact fun _ _ _ _ _ h => absurd h hne

theorem units?_codeUnit {hex : List Char} {unit : Nat} (hlength : hex.length = 4)
    (hhex : natural? 16 hex = some unit) (rest : List Char) :
    units? ('\\' :: 'u' :: hex ++ rest) =
      (units? rest).map fun (units, rest) => (unit :: units, rest) := by
  match hex, hlength with
  | [a, b, c, d], _ =>
      show units? ('\\' :: 'u' :: a :: b :: c :: d :: rest) = _
      rw [units?, hhex]

theorem units?_self {c : Char} (hquote : c ≠ '"') (hslash : c ≠ '\\') (hcontrol : ¬c.toNat < 0x20)
    (rest : List Char) :
    units? (c :: rest) = (units? rest).map fun (units, rest) => (c.toNat :: units, rest) := by
  have hplain : ¬(decide (c.toNat < 0x20) || c == '\\') = true := by simp [hcontrol, hslash]
  rw [units?, if_neg hplain]
  -- No earlier pattern of the reader matches: they all begin with a quote or a backslash.
  · exact hquote
  · exact fun _ _ _ _ _ h => absurd h hslash
  · exact fun _ _ h => absurd h hslash

theorem codeUnit_lowerHex : ∀ n < 0x20,
    (padded 4 (lowerHex n)).length = 4 ∧ natural? 16 (padded 4 (lowerHex n)) = some n := by
  decide

/-- A character is read from what it is written as. -/
theorem units?_escape (c : Char) (rest : List Char) :
    units? (escape c ++ rest) =
      (units? rest).map fun (units, rest) => (c.toNat :: units, rest) := by
  rw [escape]
  cases hshort : shortEscape? c with
  | some e =>
      obtain ⟨hread, hne⟩ := shortEscaped?_of_shortEscape? hshort
      exact units?_shortEscape hread hne rest
  | none =>
      by_cases hcontrol : c.toNat < 0x20
      · obtain ⟨hlength, hread⟩ := codeUnit_lowerHex c.toNat hcontrol
        rw [if_pos hcontrol]
        exact units?_codeUnit hlength hread rest
      · have hquote : c ≠ '"' := by rintro rfl; contradiction
        have hslash : c ≠ '\\' := by rintro rfl; contradiction
        rw [if_neg hcontrol]
        exact units?_self hquote hslash hcontrol rest

/-! ### A text -/

theorem units?_flatMap_escape (text rest : List Char) :
    units? (text.flatMap escape ++ '"' :: rest) = some (text.map Char.toNat, rest) := by
  induction text with
  | nil => rfl
  | cons c text ih => rw [List.flatMap_cons, List.append_assoc, units?_escape, ih]; rfl

/-- A character is not half of a surrogate pair. -/
theorem isSurrogate_toNat (c : Char) :
    isHighSurrogate c.toNat = false ∧ isLowSurrogate c.toNat = false := by
  have hvalid : c.toNat < 0xD800 ∨ 0xDFFF < c.toNat ∧ c.toNat < 0x110000 := c.valid
  simp only [isHighSurrogate, isLowSurrogate, Bool.and_eq_false_iff, decide_eq_false_iff_not]
  omega

theorem text?_map_toNat (text : List Char) : text? (text.map Char.toNat) = some text := by
  induction text with
  | nil => rfl
  | cons c text ih =>
      obtain ⟨hhigh, hlow⟩ := isSurrogate_toNat c
      rw [List.map_cons, text?.eq_def]
      simp only [hhigh, hlow, ih, Char.ofNat_toNat, Option.map_some, Bool.false_eq_true, if_false]

/-- A text is read back from its string, whatever follows. -/
theorem value?_quoted (steps : Nat) (text rest : List Char) :
    value? (steps + 1) (quoted text ++ rest) = some (.string (text.map Char.toNat), rest) := by
  have hquoted : quoted text ++ rest = '"' :: (text.flatMap escape ++ '"' :: rest) := by
    rw [quoted, List.cons_append, List.cons_append, List.append_assoc]
    rfl
  have hblanks (cs : List Char) : skipBlanks ('"' :: cs) = '"' :: cs := rfl
  rw [hquoted, value?, hblanks]
  simp only [units?_flatMap_escape, Option.map_some]

theorem parse?_quote (text : String) :
    parse? (quote text) = some (.string (text.toList.map Char.toNat)) := by
  have hvalue (steps : Nat) := value?_quoted steps text.toList []
  simp only [List.append_nil] at hvalue
  rw [parse?, quote, String.toList_ofList, hvalue]
  rfl

theorem asText?_string (text : String) :
    asText? (.string (text.toList.map Char.toNat)) = some text := by
  rw [asText?, text?_map_toNat, Option.map_some, String.ofList_toList]

/-- A text that is written as a string is read as that text. -/
theorem asText?_parse?_quote (text : String) : (parse? (quote text)).bind asText? = some text := by
  rw [parse?_quote, Option.bind_some, asText?_string]

end ExactCalc.Json
