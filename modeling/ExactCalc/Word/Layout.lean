import ExactCalc.Text.Numeral
import ExactCalc.Word.Basic

/-!
Words laid out in columns: digits in a base, with an optional plus sign and base mark in front, and
filled up to a width.
-/

namespace ExactCalc

inductive Base where
  | decimal
  | binary
  | lowerHex
  | upperHex
  deriving DecidableEq, Repr

namespace Base

def digits : Base → Nat → List Char
  | .decimal => Numeral.decimal
  | .binary => Numeral.binary
  | .lowerHex => Numeral.lowerHex
  | .upperHex => Numeral.upperHex

/-- What marks the base; decimal digits have no mark. -/
def mark : Base → List Char
  | .decimal => []
  | .binary => ['0', 'b']
  | .lowerHex | .upperHex => ['0', 'x']

end Base

inductive Alignment where
  | left
  | center
  | right
  deriving DecidableEq, Repr

structure Layout where
  base : Base := .decimal
  plus : Bool := false
  marked : Bool := false
  zeroFilled : Bool := false
  alignment : Alignment := .right
  width : Nat := 0
  deriving DecidableEq, Repr

namespace Layout

def front (layout : Layout) : List Char :=
  (if layout.plus then ['+'] else []) ++ (if layout.marked then layout.base.mark else [])

/-- A text in the middle of blanks, the odd one on the right. -/
def align (alignment : Alignment) (blanks : Nat) (cs : List Char) : List Char :=
  match alignment with
  | .left => cs ++ List.replicate blanks ' '
  | .right => List.replicate blanks ' ' ++ cs
  | .center => List.replicate (blanks / 2) ' ' ++ cs ++ List.replicate (blanks - blanks / 2) ' '

/-- The text of a natural number. Zeros that fill a column stand between the front and the
digits; blanks stand outside of both. -/
def render (layout : Layout) (n : Nat) : String :=
  let digits := layout.base.digits n
  let front := layout.front
  String.ofList <|
    if layout.zeroFilled then front ++ Numeral.padded (layout.width - front.length) digits
    else
      align layout.alignment (layout.width - (front.length + digits.length)) (front ++ digits)

end Layout

def Word.layOut (a : Word) (layout : Layout) : String :=
  layout.render a.value

end ExactCalc
