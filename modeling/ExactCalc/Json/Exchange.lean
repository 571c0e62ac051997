import ExactCalc.Json.Value
import ExactCalc.Rational.Literal
import ExactCalc.Word.Basic

/-!
Rationals, words and tie rules as JSON texts. A rational is the string of its literal; a word is an
object of its value, in decimal digits, and its width; a tie rule is its name. Reading refuses a
text for whatever reason without saying which.
-/

namespace ExactCalc

def Rational.toJson (a : Rational) : String :=
  Json.quote a.render

def Rational.ofJson? (text : String) : Option Rational := do
  Rational.parse? (← (← Json.parse? text).asText?)

namespace Word

def toJson (a : Word) : String :=
  "\x7b\"value\":" ++ Json.quote (toString a.value) ++ ",\"size\":" ++ toString a.width ++ "\x7d"

/-- The one member of this name, if there is exactly one. -/
def member? (name : String) (members : List (String × Json)) : Option Json :=
  match members.filter fun member => member.1 == name with
  | [(_, value)] => some value
  | _ => none

def namedMembers? : List (List Nat × Json) → Option (List (String × Json))
  | [] => some []
  | (units, value) :: rest => do
      let name ← Json.text? units
      let rest ← namedMembers? rest
      some ((String.ofList name, value) :: rest)

/-- The value and the width of a word: the members `value` and `size` of an object, in any order and
among others, or the two elements of an array. -/
def fields? : Json → Option (Json × Json)
  | .object members => do
      let members ← namedMembers? members
      some (← member? "value" members, ← member? "size" members)
  | .array [value, size] => some (value, size)
  | _ => none

/-- The word of a natural number in decimal digits, of a width that is not too great. -/
def ofFields? (digits : String) (size : Nat) : Option Word := do
  let value ← (Numeral.parseInteger digits).toOption
  if value < 0 || maxWidth < size then none
  else (ofInt size value).toOption

def ofJson? (text : String) : Option Word := do
  let (value, size) ← fields? (← Json.parse? text)
  ofFields? (← value.asText?) (← size.asNatural?)

end Word

namespace TieRule

def toJson (rule : TieRule) : String :=
  Json.quote rule.name

/-- The name as a string, or as the name of the only member of an object, whose value is null. -/
def ofJson? (text : String) : Option TieRule := do
  match ← Json.parse? text with
  | .object [(units, .null)] => named? (String.ofList (← Json.text? units))
  | value => named? (← value.asText?)

end TieRule

end ExactCalc
