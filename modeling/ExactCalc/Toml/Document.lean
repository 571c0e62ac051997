import ExactCalc.Toml.Draft
import ExactCalc.Toml.Moments
import ExactCalc.Toml.Numbers
import ExactCalc.Toml.Strings

/-!
TOML documents: dotted keys, values, and the lines that assign values and open tables.
-/

namespace ExactCalc.Toml

/-- How deep arrays and tables may be nested within a value, and how many parts a dotted key may
have. -/
def depthLimit : Nat := 80

def isKeyChar (c : Char) : Bool :=
  c.isAlphanum || c == '_' || c == '-'

def simpleKey? (cs : List Char) : Option (String × List Char) :=
  match lineString? cs with
  | some (text, rest) => some (String.ofList text, rest)
  | none =>
      let run := cs.takeWhile isKeyChar
      if run.isEmpty then none else some (String.ofList run, cs.dropWhile isKeyChar)

def keyParts? : Nat → List Char → Option (List String × List Char)
  | 0, _ => none
  | parts + 1, cs => do
      let (part, rest) ← simpleKey? (skipBlanks cs)
      match skipBlanks rest with
      | '.' :: rest => (keyParts? parts rest).map fun (others, rest) => (part :: others, rest)
      | rest => some ([part], rest)

/-- A dotted key as the path to its last part and that part. -/
def key? (cs : List Char) : Option (List String × String × List Char) := do
  let (parts, rest) ← keyParts? (depthLimit - 1) cs
  some (parts.dropLast, ← parts.getLast?, rest)

def scalar? (cs : List Char) : Option (Toml × List Char) :=
  match cs with
  | 't' :: 'r' :: 'u' :: 'e' :: rest => some (.boolean true, rest)
  | 'f' :: 'a' :: 'l' :: 's' :: 'e' :: rest => some (.boolean false, rest)
  | cs =>
      match string? cs with
      | some (text, rest) => some (.string (String.ofList text), rest)
      | none =>
          match moment? cs with
          | some (time, rest) => some (.moment time, rest)
          | none => number? cs

mutual

/-- A value inside of `depth` others. Every two steps consume a character, which bounds `steps`. -/
def value? : Nat → Nat → List Char → Option (Toml × List Char)
  | 0, _, _ => none
  | steps + 1, depth, cs =>
      match cs with
      | '[' :: rest =>
          if depthLimit ≤ depth + 1 then none
          else
            (elements? steps (depth + 1) rest).map fun (elements, rest) =>
              (.array elements, rest)
      | '\x7b' :: rest =>
          if depthLimit ≤ depth + 1 then none
          else
            match skipBlanks rest with
            | '\x7d' :: rest => some (.table [], rest)
            | rest =>
                (pairs? steps (depth + 1) [] rest).map fun (entries, rest) =>
                  (.table (Draft.closeEntries entries), rest)
      | cs => scalar? cs

/-- The elements of an array and its closing bracket; a comma may follow the last element. -/
def elements? : Nat → Nat → List Char → Option (List Toml × List Char)
  | 0, _, _ => none
  | steps + 1, depth, cs =>
      match skipLines false cs with
      | ']' :: rest => some ([], rest)
      | cs => do
          let (first, cs) ← value? steps depth cs
          match skipLines false cs with
          | ',' :: rest =>
              (elements? steps depth rest).map fun (others, rest) => (first :: others, rest)
          | ']' :: rest => some ([first], rest)
          | _ => none

/-- The pairs of a table on one line, added to those before them, and its closing brace. -/
def pairs? : Nat → Nat → List (String × Draft) → List Char →
    Option (List (String × Draft) × List Char)
  | 0, _, _, _ => none
  | steps + 1, depth, entries, cs => do
      let (path, key, cs) ← key? cs
      let (value, cs) ← value? steps depth (skipBlanks (← after? '=' cs))
      let entries ← Draft.insert? value key path entries
      match skipBlanks cs with
      | ',' :: rest => pairs? steps depth entries rest
      | '\x7d' :: rest => some (entries, rest)
      | _ => none

end

/-- A document up to some line: what has been read and the path of the table that is open. -/
structure Reading where
  entries : List (String × Draft) := []
  path : List String := []

def header? (reading : Reading) (cs : List Char) : Option (Reading × List Char) := do
  match cs with
  | '[' :: cs =>
      let (path, key, cs) ← key? cs
      let entries ← Draft.openElement? path key reading.entries
      some (⟨entries, path ++ [key]⟩, ← after? ']' (← after? ']' cs))
  | cs =>
      let (path, key, cs) ← key? cs
      let entries ← Draft.openTable? path key reading.entries
      some (⟨entries, path ++ [key]⟩, ← after? ']' cs)

def assignment? (reading : Reading) (cs : List Char) : Option (Reading × List Char) := do
  let (path, key, cs) ← key? cs
  let cs := skipBlanks (← after? '=' cs)
  let (value, rest) ← value? (2 * cs.length + 2) 0 cs
  let entries ← Draft.change? (Draft.insert? value key path) reading.path reading.entries
  some (⟨entries, reading.path⟩, rest)

def statement? (reading : Reading) : List Char → Option (Reading × List Char)
  | '[' :: cs => header? reading cs
  | cs => assignment? reading cs

/-- Reads lines to the end. Every line consumes a character, which bounds `lines`. -/
def lines? : Nat → Reading → List Char → Option Reading
  | 0, _, _ => none
  | lines + 1, reading, cs =>
      match skipLines false cs with
      | [] => some reading
      | cs => do
          let (reading, cs) ← statement? reading cs
          lines? lines reading (← lineEnd? cs)

/-- The entries of a document. A byte order mark in front is passed over. -/
def parse? (text : String) : Option (List (String × Toml)) :=
  let cs := text.toList
  let cs := if cs.head? == some '\ufeff' then cs.drop 1 else cs
  (lines? (cs.length + 1) {} cs).map fun reading => Draft.closeEntries reading.entries

end ExactCalc.Toml
