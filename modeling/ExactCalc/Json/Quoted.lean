import ExactCalc.Text.Numeral

/-!
Texts as JSON strings. Writing escapes quotes, backslashes and control characters only. Reading
accepts every escape; it first gives code units, since an escape may name half of a surrogate pair,
and the units form a text only if all halves are paired.
-/

namespace ExactCalc.Json

def shortEscape? (c : Char) : Option Char :=
  match c with
  | '"' => some '"'
  | '\\' => some '\\'
  | '\n' => some 'n'
  | '\r' => some 'r'
  | '\t' => some 't'
  | '\x08' => some 'b'
  | '\x0c' => some 'f'
  | _ => none

def escape (c : Char) : List Char :=
  match shortEscape? c with
  | some e => ['\\', e]
  | none =>
      if c.toNat < 0x20 then '\\' :: 'u' :: Numeral.padded 4 (Numeral.lowerHex c.toNat) else [c]

def quoted (text : List Char) : List Char :=
  '"' :: text.flatMap escape ++ ['"']

def quote (text : String) : String :=
  String.ofList (quoted text.toList)

/-- What a short escape stands for; a slash may be escaped too. -/
def shortEscaped? (c : Char) : Option Char :=
  match c with
  | '"' => some '"'
  | '\\' => some '\\'
  | '/' => some '/'
  | 'n' => some '\n'
  | 'r' => some '\r'
  | 't' => some '\t'
  | 'b' => some '\x08'
  | 'f' => some '\x0c'
  | _ => none

/-- The code units of a string whose opening quote has been read, and what follows its closing
quote. -/
def units? : List Char → Option (List Nat × List Char)
  | [] => none
  | '"' :: rest => some ([], rest)
  | '\\' :: 'u' :: a :: b :: c :: d :: rest =>
      match Numeral.natural? 16 [a, b, c, d] with
      | some unit => (units? rest).map fun (units, rest) => (unit :: units, rest)
      | none => none
  | '\\' :: e :: rest =>
      match shortEscaped? e with
      | some c => (units? rest).map fun (units, rest) => (c.toNat :: units, rest)
      | none => none
  | c :: rest =>
      if c.toNat < 0x20 || c == '\\' then none
      else (units? rest).map fun (units, rest) => (c.toNat :: units, rest)

def isHighSurrogate (unit : Nat) : Bool := 0xD800 ≤ unit && unit < 0xDC00

def isLowSurrogate (unit : Nat) : Bool := 0xDC00 ≤ unit && unit < 0xE000

/-- The text of code units in which every half of a surrogate pair meets its other half. -/
def text? : List Nat → Option (List Char)
  | [] => some []
  | unit :: rest =>
      if isLowSurrogate unit then none
      else if isHighSurrogate unit then
        match rest with
        | low :: rest =>
            if isLowSurrogate low then
              (text? rest).map
                (Char.ofNat (0x10000 + (unit - 0xD800) * 0x400 + (low - 0xDC00)) :: ·)
            else none
        | [] => none
      else (text? rest).map (Char.ofNat unit :: ·)

end ExactCalc.Json
