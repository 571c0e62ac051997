import ExactCalc.Decimal
import ExactCalc.Rational.Basic
import ExactCalc.Rounding

/-!
From a rational to the nearest integer and to decimals, and from a decimal back to the rational it
stands for.
-/

namespace ExactCalc

/-- How many digits after the point a decimal expansion has at most, unless stated otherwise. -/
def Decimal.defaultScale : Nat := 28

namespace Rational

/-- The nearest integer, ties decided by the rule: the quotient truncated toward zero, or else the
next integer away from zero. -/
def round (a : Rational) (rule : TieRule) : Int :=
  if a.isInteger then a.num
  else
    let whole := a.num.tdiv a.den
    let next := if a.isNegative then whole - 1 else whole + 1
    match compare (2 * (a.num.tmod a.den).natAbs) a.den with
    | .lt => whole
    | .eq => if rule.away a.isNegative whole.natAbs then next else whole
    | .gt => next

/-- The decimal nearest to the number among those with at most `scale` digits after the point, in
its shortest form. -/
def toDecimal (a : Rational) (scale : Nat) : Decimal :=
  if a.isInteger then .ofInt a.num else .ofRatio a.num a.den scale

def ofDecimal (d : Decimal) : Rational :=
  reduce d.coefficient (10 ^ d.scale) (Nat.pow_pos (by decide))

end Rational

end ExactCalc
