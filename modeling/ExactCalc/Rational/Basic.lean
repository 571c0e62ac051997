import ExactCalc.Fault

/-!
Exact rational numbers in lowest terms: the denominator is positive and has no factor in common
with the numerator, so equal numbers are equal structures.
-/

namespace ExactCalc

structure Rational where
  num : Int
  den : Nat
  den_pos : 0 < den
  coprime : Nat.Coprime num.natAbs den
  deriving DecidableEq, Repr

namespace Rational

@[ext] theorem ext {a b : Rational} (hnum : a.num = b.num) (hden : a.den = b.den) : a = b := by
  cases a
  cases b
  simp_all

def ofInt (value : Int) : Rational :=
  ⟨value, 1, Nat.one_pos, Nat.coprime_one_right _⟩

instance : Inhabited Rational := ⟨ofInt 0⟩

def zero : Rational := ofInt 0

def one : Rational := ofInt 1

def minusOne : Rational := ofInt (-1)

theorem gcd_dvd_num (num : Int) (den : Nat) : (Nat.gcd num.natAbs den : Int) ∣ num :=
  Int.ofNat_dvd_left.2 (Nat.gcd_dvd_left _ _)

theorem natAbs_ediv_gcd (num : Int) (den : Nat) :
    (num / (Nat.gcd num.natAbs den : Int)).natAbs = num.natAbs / Nat.gcd num.natAbs den := by
  rw [Int.natAbs_ediv_of_dvd (gcd_dvd_num num den), Int.natAbs_natCast]

/-- The fraction `num / den` in lowest terms. -/
def reduce (num : Int) (den : Nat) (hden : 0 < den) : Rational where
  num := num / (Nat.gcd num.natAbs den : Int)
  den := den / Nat.gcd num.natAbs den
  den_pos := Nat.div_pos (Nat.gcd_le_right _ hden) (Nat.gcd_pos_of_pos_right _ hden)
  coprime := by
    rw [natAbs_ediv_gcd]
    exact Nat.coprime_div_gcd_div_gcd (Nat.gcd_pos_of_pos_right _ hden)

/-- The fraction `num / den` for a nonzero integer denominator of either sign. -/
def ofFraction (num den : Int) (hden : den ≠ 0) : Rational :=
  reduce (if den < 0 then -num else num) den.natAbs (Int.natAbs_pos.2 hden)

/-- The fraction `num / den`, refused when the denominator is zero. -/
def make (num den : Int) : Except Fault Rational :=
  if h : den = 0 then .error .zeroDenominator else .ok (ofFraction num den h)

def isZero (a : Rational) : Bool := a.num == 0

def isInteger (a : Rational) : Bool := a.den == 1

def isPositive (a : Rational) : Bool := 0 < a.num

def isNegative (a : Rational) : Bool := a.num < 0

def sign (a : Rational) : Int := a.num.sign

/-- The canonical text: `num/den`, or the numerator alone for an integer. -/
def render (a : Rational) : String :=
  if a.isInteger then s!"{a.num}" else s!"{a.num}/{a.den}"

/-- The number itself when it is an integer that the target type holds. -/
def toInteger (a : Rational) (target : IntegerType) : Except Fault Int :=
  if !a.isInteger then .error (.notInteger a.num a.den target)
  else if target.holds a.num then .ok a.num
  else .error (.integerTooLarge a.num target)

@[simp] theorem num_ofInt (value : Int) : (ofInt value).num = value := rfl

@[simp] theorem den_ofInt (value : Int) : (ofInt value).den = 1 := rfl

/-- Reducing keeps the proportion of numerator and denominator. -/
theorem reduce_num_mul (num : Int) (den : Nat) (hden : 0 < den) :
    (reduce num den hden).num * den = num * (reduce num den hden).den := by
  have hnum := Int.ediv_mul_cancel (gcd_dvd_num num den)
  have hden' := Nat.div_mul_cancel (Nat.gcd_dvd_right num.natAbs den)
  have hcast : ((den / Nat.gcd num.natAbs den : Nat) : Int) * (Nat.gcd num.natAbs den : Int) =
      den := by
    rw [← Int.natCast_mul, hden']
  calc num / (Nat.gcd num.natAbs den : Int) * den
      = num / (Nat.gcd num.natAbs den : Int) *
          (((den / Nat.gcd num.natAbs den : Nat) : Int) * (Nat.gcd num.natAbs den : Int)) := by
        rw [hcast]
    _ = num / (Nat.gcd num.natAbs den : Int) * (Nat.gcd num.natAbs den : Int) *
          ((den / Nat.gcd num.natAbs den : Nat) : Int) := by
        rw [Int.mul_comm ((den / Nat.gcd num.natAbs den : Nat) : Int), Int.mul_assoc]
    _ = num * ((den / Nat.gcd num.natAbs den : Nat) : Int) := by rw [hnum]

/-- Two numbers in the same proportion are the same number. -/
theorem eq_of_num_mul_den {a b : Rational} (h : a.num * b.den = b.num * a.den) : a = b := by
  have habs : a.num.natAbs * b.den = b.num.natAbs * a.den := by
    simpa [Int.natAbs_mul] using congrArg Int.natAbs h
  have hab : a.den ∣ b.den :=
    a.coprime.symm.dvd_of_dvd_mul_left ⟨b.num.natAbs, by rw [habs, Nat.mul_comm]⟩
  have hba : b.den ∣ a.den :=
    b.coprime.symm.dvd_of_dvd_mul_left ⟨a.num.natAbs, by rw [← habs, Nat.mul_comm]⟩
  have hden : a.den = b.den := Nat.dvd_antisymm hab hba
  have hpos : (b.den : Int) ≠ 0 := by
    have := b.den_pos
    omega
  refine ext ?_ hden
  rw [hden] at h
  exact Int.eq_of_mul_eq_mul_right hpos h

end Rational

end ExactCalc
