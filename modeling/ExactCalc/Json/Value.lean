import ExactCalc.Json.Quoted

/-!
JSON values as they are written: strings by their code units, numbers by their digits and members of
an object in their order, repeated names included. A reader of one kind of object decides later what
it asks of them.
-/

namespace ExactCalc

inductive Json where
  | null
  | bool (value : Bool)
  | number (literal : List Char)
  | string (units : List Nat)
  | array (elements : List Json)
  | object (members : List (List Nat × Json))

namespace Json

def isBlank (c : Char) : Bool :=
  c == ' ' || c == '\n' || c == '\t' || c == '\r'

def skipBlanks (cs : List Char) : List Char :=
  cs.dropWhile isBlank

def digits? (cs : List Char) : Option (List Char × List Char) :=
  let run := cs.takeWhile Char.isDigit
  if run.isEmpty then none else some (run, cs.dropWhile Char.isDigit)

/-- Digits without a leading zero, unless zero is all there is. -/
def whole? : List Char → Option (List Char × List Char)
  | '0' :: rest => if (rest.head?.map Char.isDigit).getD false then none else some (['0'], rest)
  | cs => digits? cs

def fraction? : List Char → Option (List Char × List Char)
  | '.' :: rest => (digits? rest).map fun (run, rest) => ('.' :: run, rest)
  | cs => some ([], cs)

def exponent? : List Char → Option (List Char × List Char)
  | e :: cs =>
      if e == 'e' || e == 'E' then
        match cs with
        | '+' :: rest => (digits? rest).map fun (run, rest) => (e :: '+' :: run, rest)
        | '-' :: rest => (digits? rest).map fun (run, rest) => (e :: '-' :: run, rest)
        | _ => (digits? cs).map fun (run, rest) => (e :: run, rest)
      else some ([], e :: cs)
  | [] => some ([], [])

def unsigned? (cs : List Char) : Option (List Char × List Char) := do
  let (whole, cs) ← whole? cs
  let (fraction, cs) ← fraction? cs
  let (exponent, cs) ← exponent? cs
  some (whole ++ fraction ++ exponent, cs)

def number? : List Char → Option (Json × List Char)
  | '-' :: cs => (unsigned? cs).map fun (literal, rest) => (.number ('-' :: literal), rest)
  | cs => (unsigned? cs).map fun (literal, rest) => (.number literal, rest)

mutual

/-- A value and what follows it. Every two steps consume a character, which bounds `steps`. -/
def value? : Nat → List Char → Option (Json × List Char)
  | 0, _ => none
  | steps + 1, cs =>
      match skipBlanks cs with
      | 'n' :: 'u' :: 'l' :: 'l' :: rest => some (.null, rest)
      | 't' :: 'r' :: 'u' :: 'e' :: rest => some (.bool true, rest)
      | 'f' :: 'a' :: 'l' :: 's' :: 'e' :: rest => some (.bool false, rest)
      | '"' :: rest => (units? rest).map fun (units, rest) => (.string units, rest)
      | '[' :: rest =>
          match skipBlanks rest with
          | ']' :: rest => some (.array [], rest)
          | rest => (elements? steps rest).map fun (elements, rest) => (.array elements, rest)
      | '\x7b' :: rest =>
          match skipBlanks rest with
          | '\x7d' :: rest => some (.object [], rest)
          | rest => (members? steps rest).map fun (members, rest) => (.object members, rest)
      | rest => number? rest

def elements? : Nat → List Char → Option (List Json × List Char)
  | 0, _ => none
  | steps + 1, cs => do
      let (first, cs) ← value? steps cs
      match skipBlanks cs with
      | ',' :: rest => (elements? steps rest).map fun (others, rest) => (first :: others, rest)
      | ']' :: rest => some ([first], rest)
      | _ => none

def members? : Nat → List Char → Option (List (List Nat × Json) × List Char)
  | 0, _ => none
  | steps + 1, cs =>
      match skipBlanks cs with
      | '"' :: cs => do
          let (name, cs) ← units? cs
          match skipBlanks cs with
          | ':' :: cs =>
              let (first, cs) ← value? steps cs
              match skipBlanks cs with
              | ',' :: rest =>
                  (members? steps rest).map fun (others, rest) => ((name, first) :: others, rest)
              | '\x7d' :: rest => some ([(name, first)], rest)
              | _ => none
          | _ => none
      | _ => none

end

/-- The value that a whole text writes, blanks around it allowed. -/
def parse? (text : String) : Option Json :=
  let cs := text.toList
  match value? (2 * cs.length + 2) cs with
  | some (value, rest) => if (skipBlanks rest).isEmpty then some value else none
  | none => none

def asText? : Json → Option String
  | .string units => (text? units).map String.ofList
  | _ => none

def asNatural? : Json → Option Nat
  | .number literal => Numeral.natural? 10 literal
  | _ => none

end Json

end ExactCalc
