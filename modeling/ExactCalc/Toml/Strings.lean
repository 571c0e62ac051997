import ExactCalc.Text.Numeral
import ExactCalc.Toml.Lines

/-!
The four forms of a TOML string: with or without escapes, on one line or over several. Each reader
starts behind the opening quotes and gives the text and what follows the closing quotes.
-/

namespace ExactCalc.Toml

def apostrophe : Char := Char.ofNat 0x27

def codePoint? (digits : List Char) : Option Char := do
  let n ← Numeral.natural? 16 digits
  if n.isValidChar then some (Char.ofNat n) else none

def shortEscape? : Char → Option Char
  | 'b' => some '\x08'
  | 't' => some '\t'
  | 'n' => some '\n'
  | 'f' => some '\x0c'
  | 'r' => some '\r'
  | '"' => some '"'
  | '\\' => some '\\'
  | _ => none

/-- The character of the escape behind a backslash, and how many characters the escape has. -/
def escape? : List Char → Option (Char × Nat)
  | 'u' :: rest =>
      if rest.length < 4 then none else (codePoint? (rest.take 4)).map fun c => (c, 5)
  | 'U' :: rest =>
      if rest.length < 8 then none else (codePoint? (rest.take 8)).map fun c => (c, 9)
  | e :: _ => (shortEscape? e).map fun c => (c, 1)
  | [] => none

/-- The first `n` characters are passed over; then a string with escapes on one line is read. -/
def basic? : Nat → List Char → Option (List Char × List Char)
  | _, [] => none
  | passed + 1, _ :: rest => basic? passed rest
  | 0, '"' :: rest => some ([], rest)
  | 0, '\\' :: rest =>
      match escape? rest with
      | some (c, length) =>
          (basic? length rest).map fun (text, rest) => (c :: text, rest)
      | none => none
  | 0, c :: rest =>
      if isPlain c then (basic? 0 rest).map fun (text, rest) => (c :: text, rest) else none

def literal? : List Char → Option (List Char × List Char)
  | [] => none
  | c :: rest =>
      if c == apostrophe then some ([], rest)
      else if isPlain c then (literal? rest).map fun (text, rest) => (c :: text, rest)
      else none

/-- Three quotes close a string, and up to two more belong to its text. What they add to the text
and what follows. -/
def closing? (quote : Char) (cs : List Char) : Option (List Char × List Char) :=
  let run := (cs.takeWhile (· == quote)).length
  if run < 3 then none
  else if 5 ≤ run then some ([quote, quote], cs.drop 5)
  else some (List.replicate (run - 3) quote, cs.drop run)

/-- Whether a reader of several lines is behind a backslash that ends its line. -/
inductive Joining where
  | no
  | beforeBreak
  | afterBreak

/-- A string with escapes over several lines. A backslash at the end of a line takes away the line
break and all white space behind it. The first `n` characters are passed over. -/
def multiBasic? : Nat → Joining → List Char → Option (List Char × List Char)
  | _, _, [] => none
  | passed + 1, joining, _ :: rest => multiBasic? passed joining rest
  | 0, .beforeBreak, '\n' :: rest => multiBasic? 0 .afterBreak rest
  | 0, .beforeBreak, '\r' :: '\n' :: rest => multiBasic? 0 .afterBreak rest
  | 0, .beforeBreak, c :: rest => if isBlank c then multiBasic? 0 .beforeBreak rest else none
  | 0, .afterBreak, '\n' :: rest => multiBasic? 0 .afterBreak rest
  | 0, .afterBreak, '\r' :: '\n' :: rest => multiBasic? 0 .afterBreak rest
  | 0, .no, '\n' :: rest => (multiBasic? 0 .no rest).map fun (text, rest) => ('\n' :: text, rest)
  | 0, .no, '\r' :: '\n' :: rest =>
      (multiBasic? 0 .no rest).map fun (text, rest) => ('\n' :: text, rest)
  | 0, joining, c :: rest =>
      if isBlank c && joining matches .afterBreak then multiBasic? 0 .afterBreak rest
      else if c == '"' then
        match closing? '"' (c :: rest) with
        | some closed => some closed
        | none => (multiBasic? 0 .no rest).map fun (text, rest) => (c :: text, rest)
      else if c == '\\' then
        match escape? rest with
        | some (c, length) =>
            (multiBasic? length .no rest).map fun (text, rest) => (c :: text, rest)
        | none => multiBasic? 0 .beforeBreak rest
      else if isPlain c then
        (multiBasic? 0 .no rest).map fun (text, rest) => (c :: text, rest)
      else none

def multiLiteral? : List Char → Option (List Char × List Char)
  | [] => none
  | '\n' :: rest => (multiLiteral? rest).map fun (text, rest) => ('\n' :: text, rest)
  | '\r' :: '\n' :: rest => (multiLiteral? rest).map fun (text, rest) => ('\n' :: text, rest)
  | c :: rest =>
      if c == apostrophe then
        match closing? apostrophe (c :: rest) with
        | some closed => some closed
        | none => (multiLiteral? rest).map fun (text, rest) => (c :: text, rest)
      else if isPlain c then (multiLiteral? rest).map fun (text, rest) => (c :: text, rest)
      else none

def skipFirstBreak (cs : List Char) : List Char :=
  (newline? cs).getD cs

def lineString? : List Char → Option (List Char × List Char)
  | [] => none
  | c :: rest =>
      if c == '"' then basic? 0 rest
      else if c == apostrophe then literal? rest
      else none

def string? (cs : List Char) : Option (List Char × List Char) :=
  match cs with
  | a :: b :: c :: rest =>
      if a == b && b == c then
        if a == '"' then multiBasic? 0 .no (skipFirstBreak rest)
        else if a == apostrophe then multiLiteral? (skipFirstBreak rest)
        else none
      else lineString? cs
  | _ => lineString? cs

end ExactCalc.Toml
