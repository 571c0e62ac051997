import ExactCalc.Rational.Round

/-!
Rational literals: a fraction `a/b` of two signed integers, a decimal, or a signed integer, each
with blanks around it. Which form is meant is decided by the first slash, then by a point.
-/

namespace ExactCalc.Rational

open Text

def splitSlash? (cs : List Char) : Option (List Char × List Char) :=
  match cs.dropWhile (· != '/') with
  | [] => none
  | _ :: rest => some (cs.takeWhile (· != '/'), rest)

/-- One side of a fraction. The fault names the side and shows it without its outer blanks. -/
def parseSide (name : String) (cs : List Char) : Except Fault Int :=
  match Numeral.integer? cs with
  | some i => .ok i
  | none => .error (.malformed name (String.ofList (trim cs)))

def parseFraction (num den : List Char) : Except Fault Rational := do
  let n ← parseSide "numerator" num
  let d ← parseSide "denominator" den
  make n d

def parse (text : String) : Except Fault Rational :=
  let literal := trim text.toList
  if literal.isEmpty then
    .error (.malformed "rational literal" text)
  else
    match splitSlash? literal with
    | some (num, den) => parseFraction num den
    | none =>
        if literal.contains '.' then
          (Decimal.parse (String.ofList literal)).map ofDecimal
        else
          (Numeral.parseInteger (String.ofList literal)).map ofInt

def parse? (text : String) : Option Rational :=
  (parse text).toOption

@[simp] theorem toOption_parseSide (name : String) (cs : List Char) :
    (parseSide name cs).toOption = Numeral.integer? cs := by
  rw [parseSide]
  cases Numeral.integer? cs <;> rfl

theorem toOption_parseFraction (num den : List Char) :
    (parseFraction num den).toOption = (do
      (make (← Numeral.integer? num) (← Numeral.integer? den)).toOption) := by
  rw [← toOption_parseSide "numerator" num, ← toOption_parseSide "denominator" den, parseFraction]
  cases parseSide "numerator" num with
  | error fault => rfl
  | ok n => cases parseSide "denominator" den <;> rfl

end ExactCalc.Rational
