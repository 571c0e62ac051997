import ExactCalc.Text.Blank

/-!
Letter case of the ASCII letters. All other characters stand for themselves, so folding never
changes the length of a text.
-/

namespace ExactCalc.Text

/-- Two characters that differ in nothing but the case of an ASCII letter. -/
def sameLetter (a b : Char) : Bool :=
  a.toLower == b.toLower

def upperCase (cs : List Char) : List Char :=
  cs.map Char.toUpper

def lowerCase (cs : List Char) : List Char :=
  cs.map Char.toLower

/-- A specifier reduced to what matters: no outer blanks, capital letters. -/
def specifierKey (spec : String) : String :=
  String.ofList (upperCase (trim spec.toList))

/-- What follows `mark` at the start of a text, if the text starts with it in any letter case. -/
def dropMark? : List Char → List Char → Option (List Char)
  | [], cs => some cs
  | _ :: _, [] => none
  | m :: mark, c :: cs => if sameLetter m c then dropMark? mark cs else none

/-- The text without a leading `mark` in any letter case, or the whole text. -/
def dropMark (mark cs : List Char) : List Char :=
  (dropMark? mark cs).getD cs

end ExactCalc.Text
