import ExactCalc.CommandLine.Words
import ExactCalc.Rational.Arith
import ExactCalc.Rational.Literal
import ExactCalc.Rational.Order
import ExactCalc.Rational.Style

/-!
The commands on rationals: their operands as they are written, how a command line names them, and
the text that each one gives.
-/

namespace ExactCalc

def orderingSymbol : Ordering → String
  | .lt => "<"
  | .eq => "="
  | .gt => ">"

inductive RationalCommand where
  | add (lhs rhs : String)
  | sub (lhs rhs : String)
  | mul (lhs rhs : String)
  | div (lhs rhs : String)
  | neg (value : String)
  | abs (value : String)
  | reciprocal (value : String)
  | pow (value : String) (exponent : Int)
  | round (value : String)
  | compare (lhs rhs : String)
  | format (value spec : String)
  | parse (value : String)
  deriving DecidableEq, Repr

/-- How results are printed, and how `round` decides ties. -/
structure RationalOutput where
  style : Rational.Style
  decimalScale : Nat
  tieRule : TieRule
  deriving DecidableEq, Repr

def RationalOutput.render? (output : RationalOutput) (value : Rational) : Option String :=
  value.renderAs? output.style output.decimalScale

namespace RationalCommand

def forms : List (String × List OperandKind) :=
  [("add", [.literal, .literal]), ("sub", [.literal, .literal]), ("mul", [.literal, .literal]),
    ("div", [.literal, .literal]), ("neg", [.literal]), ("abs", [.literal]),
    ("recip", [.literal]), ("pow", [.literal, .integer]), ("round", [.literal]),
    ("cmp", [.literal, .literal]), ("fmt", [.literal, .specifier]), ("parse", [.literal])]

def ofWords? : String → List String → Option RationalCommand
  | "add", [lhs, rhs] => some (.add lhs rhs)
  | "sub", [lhs, rhs] => some (.sub lhs rhs)
  | "mul", [lhs, rhs] => some (.mul lhs rhs)
  | "div", [lhs, rhs] => some (.div lhs rhs)
  | "neg", [value] => some (.neg value)
  | "abs", [value] => some (.abs value)
  | "recip", [value] => some (.reciprocal value)
  | "pow", [value, exponent] => (IntegerType.signed32.read? exponent).map (.pow value)
  | "round", [value] => some (.round value)
  | "cmp", [lhs, rhs] => some (.compare lhs rhs)
  | "fmt", [value, spec] => some (.format value spec)
  | "parse", [value] => some (.parse value)
  | _, _ => none

def operands (lhs rhs : String) : Except Fault (Rational × Rational) := do
  return (← Rational.parse lhs, ← Rational.parse rhs)

/-- The text that a command gives, or a fault. There is neither where the text of a result is too
long to be filled up with zeros. -/
def run (command : RationalCommand) (output : RationalOutput) :
    Except Fault (Option String) := do
  match command with
  | .add lhs rhs =>
      let (a, b) ← operands lhs rhs
      return output.render? (a + b)
  | .sub lhs rhs =>
      let (a, b) ← operands lhs rhs
      return output.render? (a - b)
  | .mul lhs rhs =>
      let (a, b) ← operands lhs rhs
      return output.render? (a * b)
  | .div lhs rhs =>
      let (a, b) ← operands lhs rhs
      return output.render? (← a.div b)
  | .neg value => return output.render? (-(← Rational.parse value))
  | .abs value => return output.render? (← Rational.parse value).abs
  | .reciprocal value => return output.render? (← (← Rational.parse value).reciprocal)
  | .pow value exponent => return output.render? (← (← Rational.parse value).pow exponent)
  | .round value => return some (toString ((← Rational.parse value).round output.tieRule))
  | .compare lhs rhs =>
      let (a, b) ← operands lhs rhs
      return some (orderingSymbol (a.order b))
  | .format value spec => (← Rational.parse value).format spec
  | .parse value => return output.render? (← Rational.parse value)

end RationalCommand

end ExactCalc
