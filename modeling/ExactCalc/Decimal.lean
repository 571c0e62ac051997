import ExactCalc.Text.Numeral

/-!
Decimals: a sign, a natural number of digits and a scale, the number of digits after the point. Two
decimals of different scales may stand for the same number; stripping the trailing zeros of the
fraction gives each number one form, and by that form decimals are compared and fed to a hasher. A
zero may be written down with a sign, but no function here gives one.
-/

namespace ExactCalc

open Text

/-- A sign and a magnitude, whether or not the magnitude is zero. -/
structure SignedMagnitude where
  isNegative : Bool
  mantissa : Nat
  deriving DecidableEq, Repr, Inhabited

/-- A number that is written without a sign. -/
instance (n : Nat) : OfNat SignedMagnitude n := ⟨⟨false, n⟩⟩

/-- The number `mantissa / 10 ^ scale` with its sign. -/
structure Decimal extends SignedMagnitude where
  scale : Nat
  deriving DecidableEq, Repr, Inhabited

/-- What a hasher is fed. A natural number of any size is one datum here, however the hasher takes
it apart. -/
inductive HashDatum where
  | truth (value : Bool)
  | natural (value : Nat)
  | count (value : Nat)
  deriving DecidableEq, Repr

namespace Decimal

/-- A zero has no sign, whatever `negative` says. -/
def ofParts (negative : Bool) (mantissa scale : Nat) : Decimal :=
  { isNegative := negative && mantissa != 0, mantissa, scale }

def ofInt (value : Int) : Decimal :=
  ofParts (value < 0) value.natAbs 0

def isZero (d : Decimal) : Bool :=
  d.mantissa == 0

def coefficient (d : Decimal) : Int :=
  Numeral.signed d.isNegative d.mantissa

/-- Drops trailing zeros of the mantissa, at most `scale` of them. The mantissa and the scale that
are left. -/
def strip (mantissa : Nat) : Nat → Nat × Nat
  | 0 => (mantissa, 0)
  | scale + 1 =>
      if mantissa % 10 = 0 then strip (mantissa / 10) scale else (mantissa, scale + 1)

/-- The same number in its shortest form. -/
def normalized (d : Decimal) : Decimal :=
  if d.isZero then ofInt 0
  else
    let (mantissa, scale) := strip d.mantissa d.scale
    ofParts d.isNegative mantissa scale

def sameNumber (a b : Decimal) : Bool :=
  a.normalized == b.normalized

/-- The data that a decimal feeds to a hasher, in their order: all of its shortest form. -/
def hashData (d : Decimal) : List HashDatum :=
  let n := d.normalized
  [.truth n.isNegative, .natural n.mantissa, .count n.scale]

/-- The fraction `num / den` to at most `scale` digits after the point. The last digit goes up where
what is cut off is more than half of it, or half of it after an odd digit. The denominator is not
zero. -/
def ofRatio (num : Int) (den scale : Nat) : Decimal :=
  let scaled := num.natAbs * 10 ^ scale
  let whole := scaled / den
  let twice := 2 * (scaled % den)
  let up := den < twice || (twice == den && whole % 2 == 1)
  normalized (ofParts (num < 0) (if up then whole + 1 else whole) scale)

def isDigitsOrEmpty (cs : List Char) : Bool :=
  cs.isEmpty || Numeral.isDigits 10 cs

def splitPoint (cs : List Char) : List Char × List Char :=
  (cs.takeWhile (· != '.'), (cs.dropWhile (· != '.')).drop 1)

def maxScale : Nat := 2 ^ 32 - 1

/-- Digits with at most one point among them, and at least one digit. -/
def unsigned? (cs : List Char) : Option (Nat × Nat) :=
  let (whole, fraction) := splitPoint cs
  if (whole.isEmpty && fraction.isEmpty) || !isDigitsOrEmpty whole || !isDigitsOrEmpty fraction then
    none
  else if maxScale < fraction.length then none
  else some (Numeral.value 10 (whole ++ fraction), fraction.length)

/-- A decimal literal between blanks, its scale the number of digits written after the point. -/
def literal? (cs : List Char) : Option Decimal :=
  let (negative, body) := Numeral.splitSign (trim cs)
  (unsigned? body).map fun (mantissa, scale) => ofParts negative mantissa scale

def parse (text : String) : Except Fault Decimal :=
  match literal? text.toList with
  | some d => .ok d
  | none => .error (.malformed "decimal format" text)

/-- The digits with a point before the last `scale` of them. -/
def pointed? (digits : List Char) : Nat → Option (List Char)
  | 0 => some digits
  | scale + 1 =>
      (Numeral.padded? (scale + 2) digits).map fun long =>
        long.take (long.length - (scale + 1)) ++ '.' :: long.drop (long.length - (scale + 1))

/-- The text of a decimal: as many digits after the point as its scale says, at least one in front.
There is none for a scale that zeros cannot be filled up to. -/
def render? (d : Decimal) : Option String :=
  (pointed? (Numeral.decimal d.mantissa) d.scale).map fun digits =>
    String.ofList (if d.isNegative then '-' :: digits else digits)

@[simp] theorem ofParts_zero (negative : Bool) (scale : Nat) :
    ofParts negative 0 scale = ⟨0, scale⟩ := by
  cases negative <;> rfl

@[simp] theorem toOption_parse (text : String) :
    (parse text).toOption = literal? text.toList := by
  rw [parse]
  cases literal? text.toList <;> rfl

theorem strip_scale_le (mantissa scale : Nat) : (strip mantissa scale).2 ≤ scale := by
  induction scale generalizing mantissa with
  | zero => exact Nat.le_refl 0
  | succ scale ih =>
      rw [strip]
      split
      · exact Nat.le_succ_of_le (ih _)
      · exact Nat.le_refl _

/-- Stripping changes the form of a number and not the number. -/
theorem strip_value (mantissa scale : Nat) :
    (strip mantissa scale).1 * 10 ^ (scale - (strip mantissa scale).2) = mantissa := by
  induction scale generalizing mantissa with
  | zero => exact Nat.mul_one mantissa
  | succ scale ih =>
      rw [strip]
      split
      · next h =>
        rw [Nat.succ_sub (strip_scale_le _ _), Nat.pow_succ, ← Nat.mul_assoc, ih]
        exact Nat.div_mul_cancel (Nat.dvd_of_mod_eq_zero h)
      · rw [Nat.sub_self, Nat.pow_zero, Nat.mul_one]

end Decimal

end ExactCalc
