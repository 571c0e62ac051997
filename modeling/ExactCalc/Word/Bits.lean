import ExactCalc.Word.Basic

/-!
Operations on the bits of words: logic bit by bit, shifts, rotations and counts. Shifts and
rotations refuse a negative amount; a shift by the width or more empties the word, a rotation goes
by the amount modulo the width.
-/

namespace ExactCalc.Word

def and (a b : Word) : Except Fault Word := do
  matching a b
  return a.withValue (a.value &&& b.value)

def or (a b : Word) : Except Fault Word := do
  matching a b
  return a.withValue (a.value ||| b.value)

def xor (a b : Word) : Except Fault Word := do
  matching a b
  return a.withValue (a.value ^^^ b.value)

def not (a : Word) : Word :=
  a.withValue (a.value ^^^ (2 ^ a.width - 1))

def amount (move : BitMove) (distance : Int) : Except Fault Nat :=
  if distance < 0 then .error (.negativeAmount move distance) else .ok distance.toNat

def shiftLeft (a : Word) (distance : Int) : Except Fault Word := do
  let count ← amount .shift distance
  return if a.width ≤ count then a.withValue 0 else a.withValue (a.value <<< count)

/-- Shifts right, filling with the sign bit if `signed` and with zeros if not. -/
def shiftRight (a : Word) (distance : Int) (signed : Bool) : Except Fault Word := do
  let count ← amount .shift distance
  return if signed then a.withInt (a.toInt >>> min count a.width)
    else if a.width ≤ count then a.withValue 0
    else a.withValue (a.value >>> count)

def rotateLeft (a : Word) (distance : Int) : Except Fault Word := do
  let count := (← amount .rotation distance) % a.width
  return if count = 0 then a
    else a.withValue (a.value <<< count ||| a.value >>> (a.width - count))

def rotateRight (a : Word) (distance : Int) : Except Fault Word := do
  let count := (← amount .rotation distance) % a.width
  return if count = 0 then a
    else a.withValue (a.value >>> count ||| a.value <<< (a.width - count))

def onesIn (n : Nat) : Nat :=
  if n = 0 then 0 else n % 2 + onesIn (n / 2)
termination_by n

def zerosEnding (n : Nat) : Nat :=
  if n = 0 then 0 else if n % 2 = 1 then 0 else zerosEnding (n / 2) + 1
termination_by n

/-- How many binary digits a number has, none for zero. -/
def bitLength (n : Nat) : Nat :=
  if n = 0 then 0 else n.log2 + 1

def onesCount (a : Word) : Nat := onesIn a.value

def leadingZeros (a : Word) : Nat := a.width - bitLength a.value

def trailingZeros (a : Word) : Nat := if a.isZero then a.width else zerosEnding a.value

theorem bitLength_le (a : Word) : bitLength a.value ≤ a.width := by
  simp only [bitLength]
  split
  · exact Nat.zero_le _
  · next h => exact (Nat.log2_lt h).2 a.value_lt

end ExactCalc.Word
