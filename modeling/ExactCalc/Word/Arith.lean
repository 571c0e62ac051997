import ExactCalc.Word.Basic

/-!
Arithmetic on words of one width, modulo `2 ^ width`. Division comes unsigned and signed; signed
quotients truncate, `srem` has the sign of the dividend and `smod` that of the divisor. Operands of
different widths are refused first, a zero divisor after that.
-/

namespace ExactCalc.Word

def add (a b : Word) : Except Fault Word := do
  matching a b
  return a.withValue (a.value + b.value)

def sub (a b : Word) : Except Fault Word := do
  matching a b
  return a.withInt (a.value - b.value)

def mul (a b : Word) : Except Fault Word := do
  matching a b
  return a.withValue (a.value * b.value)

def neg (a : Word) : Word :=
  a.withInt (-a.value)

/-- The operands of a division: of one width, the divisor not zero. -/
def divisible (a b : Word) : Except Fault Unit := do
  matching a b
  if b.isZero then throw (.zeroWordDivisor a.width)

def udiv (a b : Word) : Except Fault Word := do
  divisible a b
  return a.withValue (a.value / b.value)

def urem (a b : Word) : Except Fault Word := do
  divisible a b
  return a.withValue (a.value % b.value)

def udivRem (a b : Word) : Except Fault (Word × Word) := do
  divisible a b
  return (a.withValue (a.value / b.value), a.withValue (a.value % b.value))

def sdiv (a b : Word) : Except Fault Word := do
  divisible a b
  return a.withInt (a.toInt.tdiv b.toInt)

def srem (a b : Word) : Except Fault Word := do
  divisible a b
  return a.withInt (a.toInt.tmod b.toInt)

/-- A truncating remainder moved by one divisor where its sign is not the divisor's. -/
def floorRemainder (dividend divisor : Int) : Int :=
  let rest := dividend.tmod divisor
  if rest ≠ 0 ∧ (rest < 0) ≠ (divisor < 0) then rest + divisor else rest

def smod (a b : Word) : Except Fault Word := do
  divisible a b
  return a.withInt (floorRemainder a.toInt b.toInt)

theorem matching_eq_ok_iff {a b : Word} : matching a b = .ok () ↔ a.width = b.width := by
  simp only [matching]
  split <;> simp_all

theorem divisible_eq_ok_iff {a b : Word} :
    divisible a b = .ok () ↔ a.width = b.width ∧ b.value ≠ 0 := by
  by_cases hwidth : a.width = b.width <;> by_cases hzero : b.value = 0 <;>
    simp [divisible, matching, isZero, hwidth, hzero, bind, Except.bind, pure, Except.pure, throw,
      throwThe, MonadExceptOf.throw]

end ExactCalc.Word
