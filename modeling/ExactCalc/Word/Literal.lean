import ExactCalc.Text.LetterCase
import ExactCalc.Text.Numeral
import ExactCalc.Word.Basic

/-!
Word literals of a given width. Hexadecimal and binary literals may hold no more digits than the
width takes; a decimal literal may be any integer and is wrapped. A zero width is refused before
the digits of a hexadecimal or binary literal are looked at, and after those of a decimal one.
-/

namespace ExactCalc.Word

open Text

/-- The length of a text in the encoding with one to four bytes a character. -/
def byteLength (cs : List Char) : Nat :=
  cs.foldr (fun c bytes => c.utf8Size + bytes) 0

def hexDigitCount (width : Nat) : Nat := (width + 3) / 4

def parseHex (text : String) (width : Nat) : Except Fault Word :=
  let digits := dropMark ['0', 'x'] (trim text.toList)
  if width = 0 then
    .error .emptyWidth
  else if hexDigitCount width < byteLength digits then
    .error (.tooManyHexDigits (byteLength digits) (hexDigitCount width) width)
  else
    match Numeral.natural? 16 digits with
    | some n => ofNat width n
    | none => .error (.badHexDigits text)

def parseBinary (text : String) (width : Nat) : Except Fault Word :=
  let digits := dropMark ['0', 'b'] (trim text.toList)
  if width = 0 then
    .error .emptyWidth
  else if width < byteLength digits then
    .error (.tooManyBinaryDigits (byteLength digits) width)
  else
    match Numeral.natural? 2 digits with
    | some n => ofNat width n
    | none => .error (.badBinaryDigits text)

/-- An operand: hexadecimal after `0x`, binary after `0b`, otherwise a signed decimal integer. -/
def parseOperand (text : String) (width : Nat) : Except Fault Word :=
  let literal := trim text.toList
  if (dropMark? ['0', 'x'] literal).isSome then
    parseHex (String.ofList literal) width
  else if (dropMark? ['0', 'b'] literal).isSome then
    parseBinary (String.ofList literal) width
  else do
    ofInt width (← Numeral.parseInteger (String.ofList literal))

end ExactCalc.Word
