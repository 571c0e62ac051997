import ExactCalc.Rational.Basic

/-!
Field operations on rationals. Sums, differences, products and negation always have a result;
quotients and reciprocals refuse a zero divisor, and so does a negative power of zero.
-/

namespace ExactCalc.Rational

def add (a b : Rational) : Rational :=
  reduce (a.num * b.den + b.num * a.den) (a.den * b.den) (Nat.mul_pos a.den_pos b.den_pos)

def sub (a b : Rational) : Rational :=
  reduce (a.num * b.den - b.num * a.den) (a.den * b.den) (Nat.mul_pos a.den_pos b.den_pos)

def mul (a b : Rational) : Rational :=
  reduce (a.num * b.num) (a.den * b.den) (Nat.mul_pos a.den_pos b.den_pos)

def neg (a : Rational) : Rational where
  num := -a.num
  den := a.den
  den_pos := a.den_pos
  coprime := by rw [Int.natAbs_neg]; exact a.coprime

def abs (a : Rational) : Rational :=
  if a.isNegative then a.neg else a

instance : Add Rational := ⟨add⟩

instance : Sub Rational := ⟨sub⟩

instance : Mul Rational := ⟨mul⟩

instance : Neg Rational := ⟨neg⟩

def div (a b : Rational) : Except Fault Rational :=
  if h : b.num = 0 then .error .zeroDivisor
  else
    .ok (ofFraction (a.num * b.den) (a.den * b.num)
      (Int.mul_ne_zero (by have := a.den_pos; omega) h))

def reciprocal (a : Rational) : Except Fault Rational :=
  if h : a.num = 0 then .error .reciprocalOfZero else .ok (ofFraction a.den a.num h)

/-- The bits of the exponent from the lowest on: `result` takes in the base where the bit is set,
and the base is squared as long as bits are left. -/
def powLoop (result base : Rational) (exponent : Nat) : Rational :=
  if exponent = 0 then result
  else
    powLoop (if exponent % 2 = 1 then result * base else result)
      (if exponent / 2 = 0 then base else base * base) (exponent / 2)
termination_by exponent

def powNat (a : Rational) (exponent : Nat) : Rational :=
  powLoop one a exponent

/-- An integer power. A negative exponent takes the reciprocal of the power. -/
def pow (a : Rational) (exponent : Int) : Except Fault Rational :=
  if exponent < 0 then (a.powNat exponent.natAbs).reciprocal else .ok (a.powNat exponent.natAbs)

def sum (terms : List Rational) : Rational :=
  terms.foldl (· + ·) zero

def product (factors : List Rational) : Rational :=
  factors.foldl (· * ·) one

theorem add_def (a b : Rational) : a + b =
    reduce (a.num * b.den + b.num * a.den) (a.den * b.den) (Nat.mul_pos a.den_pos b.den_pos) :=
  rfl

theorem sub_def (a b : Rational) : a - b =
    reduce (a.num * b.den - b.num * a.den) (a.den * b.den) (Nat.mul_pos a.den_pos b.den_pos) :=
  rfl

theorem mul_def (a b : Rational) : a * b =
    reduce (a.num * b.num) (a.den * b.den) (Nat.mul_pos a.den_pos b.den_pos) :=
  rfl

@[simp] theorem num_neg (a : Rational) : (-a).num = -a.num := rfl

@[simp] theorem den_neg (a : Rational) : (-a).den = a.den := rfl

end ExactCalc.Rational
