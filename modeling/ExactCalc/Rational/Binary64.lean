import ExactCalc.Binary64
import ExactCalc.Rational.Round

/-!
Conversion between rationals and binary floating point numbers. Reading a finite number is exact.
Writing rounds the numerator, the denominator and then their quotient, each to nearest; where one of
the first two is out of range, the decimal expansion is rounded instead.
-/

namespace ExactCalc

def Decimal.toBinary64 (d : Decimal) : Binary64 :=
  .nearest d.isNegative d.mantissa (10 ^ d.scale)

namespace Rational

def ofBinary64 (x : Binary64) : Except Fault Rational :=
  if !x.isFinite then
    .error (.notFinite x.nonFiniteName)
  else
    .ok (reduce (Numeral.signed x.negative (x.significand * 2 ^ x.exponent.toNat))
      (2 ^ (-x.exponent).toNat) (Nat.pow_pos (by decide)))

def toBinary64 (a : Rational) : Binary64 :=
  let num := Binary64.nearest a.isNegative a.num.natAbs 1
  let den := Binary64.nearest false a.den 1
  if num.isFinite && den.isFinite then num.divide den
  else (a.toDecimal Decimal.defaultScale).toBinary64

end Rational

end ExactCalc
