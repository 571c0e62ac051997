import ExactCalc.Rational.Round
import ExactCalc.Text.LetterCase

/-!
The styles in which a rational is printed and the specifiers that name them.
-/

namespace ExactCalc

namespace Rational

inductive Style where
  | fraction
  | decimal
  | general
  deriving DecidableEq, Repr

instance : Inhabited Style := ⟨.fraction⟩

namespace Style

def code : Style → String
  | .fraction => "F"
  | .decimal => "D"
  | .general => "G"

def parse (spec : String) : Except Fault Style :=
  match Text.specifierKey spec with
  | "F" | "FRACTION" => .ok .fraction
  | "D" | "DECIMAL" => .ok .decimal
  | "G" | "GENERAL" => .ok .general
  | _ => .error (.unknownSpecifier spec)

end Style

/-- The text of a number in a style, decimals with at most `scale` digits after the point. -/
def renderAs? (a : Rational) (style : Style) (scale : Nat) : Option String :=
  match style with
  | .fraction | .general => some a.render
  | .decimal => (a.toDecimal scale).render?

def format (a : Rational) (spec : String) : Except Fault (Option String) :=
  (Style.parse spec).map fun style => a.renderAs? style Decimal.defaultScale

end Rational

end ExactCalc
