import ExactCalc.Rounding

/-!
Binary floating point numbers of 64 bits, held as a sign and the remaining 63 bits read as a natural
number. Among finite numbers of one sign that number grows with the value, and its successor is the
next value, so rounding to nearest is rounding of one quotient, and a carry into the exponent needs
no case of its own.
-/

namespace ExactCalc

structure Binary64 where
  negative : Bool
  magnitude : Nat
  magnitude_lt : magnitude < 2 ^ 63
  deriving DecidableEq, Repr

namespace Binary64

/-- How many magnitudes share one exponent. -/
def bandSize : Nat := 2 ^ 52

/-- The magnitude of the infinities; those above it are not numbers. -/
def infinity : Nat := 2047 * bandSize

theorem infinity_lt : infinity < 2 ^ 63 := by decide

def ofBits (bits : Nat) : Binary64 :=
  ⟨bits / 2 ^ 63 % 2 == 1, bits % 2 ^ 63, Nat.mod_lt _ (by decide)⟩

def toBits (x : Binary64) : Nat :=
  (if x.negative then 2 ^ 63 else 0) + x.magnitude

def isFinite (x : Binary64) : Bool :=
  x.magnitude < infinity

/-- The integer that a power of two scales to the value. Only the band of the smallest numbers
lacks the leading bit. -/
def significand (x : Binary64) : Nat :=
  if x.magnitude < bandSize then x.magnitude else bandSize + x.magnitude % bandSize

def exponent (x : Binary64) : Int :=
  if x.magnitude < bandSize then -1074 else (x.magnitude / bandSize : Nat) - 1075

/-- The name of a value that is no finite number. The sign of a value that is not a number is not
shown. -/
def nonFiniteName (x : Binary64) : String :=
  if infinity < x.magnitude then "NaN" else if x.negative then "-inf" else "inf"

/-- The exponent of the greatest power of two that does not exceed `num / den`, for positive
numbers. -/
def floorLog2 (num den : Nat) : Int :=
  let guess : Int := (num.log2 : Int) - den.log2
  let (n, d) := (num * 2 ^ (-guess).toNat, den * 2 ^ guess.toNat)
  if d ≤ n then guess else guess - 1

/-- The number nearest to `num / den` with the given sign, a tie going to the even magnitude and
everything from halfway past the greatest number on to infinity. The denominator is not zero. -/
def nearest (negative : Bool) (num den : Nat) : Binary64 :=
  if num = 0 then ⟨negative, 0, by decide⟩
  else
    let exponent := max (floorLog2 num den - 52) (-1074)
    let steps := TieRule.quotient .toEven negative (num * 2 ^ (-exponent).toNat)
      (den * 2 ^ exponent.toNat)
    let magnitude := (exponent + 1074).toNat * bandSize + steps
    if h : magnitude < infinity then ⟨negative, magnitude, Nat.lt_trans h infinity_lt⟩
    else ⟨negative, infinity, infinity_lt⟩

def divide (x y : Binary64) : Binary64 :=
  let shift := x.exponent - y.exponent
  nearest (x.negative != y.negative) (x.significand * 2 ^ shift.toNat)
    (y.significand * 2 ^ (-shift).toNat)

theorem toBits_ofBits {bits : Nat} (h : bits < 2 ^ 64) : (ofBits bits).toBits = bits := by
  have hdiv : bits / 2 ^ 63 % 2 = bits / 2 ^ 63 := by omega
  simp only [toBits, ofBits, hdiv, beq_iff_eq]
  split <;> omega

end Binary64

end ExactCalc
