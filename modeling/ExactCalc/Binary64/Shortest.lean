import ExactCalc.Binary64
import ExactCalc.Text.Numeral

/-!
The shortest decimal text of a binary number: of all grids of multiples of a power of ten, the
coarsest one with a point that reads back as the number, and on it the nearest such point, the one
farther from zero if two are equally near.
-/

namespace ExactCalc.Binary64

def fraction (x : Binary64) : Nat × Nat :=
  (x.significand * 2 ^ x.exponent.toNat, 2 ^ (-x.exponent).toNat)

/-- The binary number nearest to `digits * 10 ^ power`. -/
def ofDigits (negative : Bool) (digits : Nat) (power : Int) : Binary64 :=
  nearest negative (digits * 10 ^ power.toNat) (10 ^ (-power).toNat)

/-- The point of the grid of multiples of `10 ^ power` that reads back as the number. If the points
on both sides of it do, this is the nearer one, and the one farther from zero if the number lies
halfway between them. -/
def gridPoint? (x : Binary64) (power : Int) : Option Nat :=
  let (num, den) := x.fraction
  let (num, den) := (num * 10 ^ (-power).toNat, den * 10 ^ power.toNat)
  let below := num / den
  let fits := fun digits => ofDigits x.negative digits power == x
  match fits below, fits (below + 1) with
  | true, true => some (TieRule.quotient .awayFromZero x.negative num den)
  | true, false => some below
  | false, true => some (below + 1)
  | false, false => none

/-- The first grid with a point, from `10 ^ power` on down over the given number of grids. -/
def coarsestPoint (x : Binary64) (power : Int) : Nat → Nat × Int
  | 0 => (0, 0)
  | grids + 1 =>
      match gridPoint? x power with
      | some digits => (digits, power)
      | none => coarsestPoint x (power - 1) grids

/-- The digits of a finite number that is not zero and the power of ten they are multiplied by. -/
def shortest (x : Binary64) : Nat × Int :=
  coarsestPoint x 309 660

/-- The powers of ten of the leading digits that are shown positionally, with at least one digit
after the point. Other numbers show one digit in front of a point and an exponent. -/
structure PositionalRange where
  first : Int
  last : Int

def usualRange : PositionalRange := ⟨-4, 15⟩

def positional (digits : List Char) (power : Int) : List Char :=
  if 0 ≤ power then digits ++ List.replicate power.toNat '0' ++ ['.', '0']
  else
    let places := (-power).toNat
    let long := Numeral.padded (places + 1) digits
    long.take (long.length - places) ++ '.' :: long.drop (long.length - places)

def exponential (digits : List Char) (power : Int) : List Char :=
  let exponent := toString (power + (digits.length - 1 : Nat))
  digits.take 1 ++ (if digits.length = 1 then [] else '.' :: digits.drop 1) ++
    'e' :: exponent.toList

/-- The shortest text that reads back as the number. -/
def render (x : Binary64) : String :=
  if !x.isFinite then x.nonFiniteName
  else
    let magnitude :=
      if x.magnitude = 0 then ['0', '.', '0']
      else
        let (digits, power) := x.shortest
        let text := Numeral.decimal digits
        let lead := power + (text.length - 1 : Nat)
        if usualRange.first ≤ lead && lead ≤ usualRange.last then
          positional text power
        else exponential text power
    String.ofList (if x.negative then '-' :: magnitude else magnitude)

end ExactCalc.Binary64
