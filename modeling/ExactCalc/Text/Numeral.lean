import ExactCalc.Fault
import ExactCalc.Text.Blank

/-!
Numbers written in digits: the value of a digit sequence in a radix, the digits of a number, and
signed decimal integers between blanks.
-/

namespace ExactCalc.Numeral

open Text

/-- What a digit or letter counts for, letters of either case from ten on. Every other character
counts for more than any digit of a radix up to 36. -/
def digitValue (c : Char) : Nat :=
  if '0' ≤ c ∧ c ≤ '9' then c.toNat - '0'.toNat
  else if 'a' ≤ c ∧ c ≤ 'z' then c.toNat - 'a'.toNat + 10
  else if 'A' ≤ c ∧ c ≤ 'Z' then c.toNat - 'A'.toNat + 10
  else 36

def isDigits (radix : Nat) (cs : List Char) : Bool :=
  !cs.isEmpty && cs.all fun c => digitValue c < radix

/-- The number that a digit sequence stands for, the most significant digit first. -/
def value (radix : Nat) (cs : List Char) : Nat :=
  cs.foldl (fun v c => radix * v + digitValue c) 0

def natural? (radix : Nat) (cs : List Char) : Option Nat :=
  if isDigits radix cs then some (value radix cs) else none

def splitSign : List Char → Bool × List Char
  | '-' :: rest => (true, rest)
  | '+' :: rest => (false, rest)
  | rest => (false, rest)

def signed (negative : Bool) (magnitude : Nat) : Int :=
  if negative then -(magnitude : Int) else magnitude

/-- A decimal integer with an optional sign, nothing around it. -/
def bareInteger? (cs : List Char) : Option Int :=
  (natural? 10 (splitSign cs).2).map (signed (splitSign cs).1)

def integer? (cs : List Char) : Option Int :=
  bareInteger? (trim cs)

def parseInteger (text : String) : Except Fault Int :=
  match integer? text.toList with
  | some i => .ok i
  | none => .error (.malformed "integer format" text)

def padded (length : Nat) (digits : List Char) : List Char :=
  List.replicate (length - digits.length) '0' ++ digits

/-- The greatest length that can be asked for where it is computed. -/
def maxPadding : Nat := 2 ^ 16 - 1

/-- The digits up to a length that is computed. There is no text of a greater length than can be
asked for, not even where the digits alone are as long. -/
def padded? (length : Nat) (digits : List Char) : Option (List Char) :=
  if length ≤ maxPadding then some (padded length digits) else none

def decimal (n : Nat) : List Char :=
  Nat.toDigits 10 n

def binary (n : Nat) : List Char :=
  Nat.toDigits 2 n

def lowerHex (n : Nat) : List Char :=
  Nat.toDigits 16 n

def upperHex (n : Nat) : List Char :=
  (Nat.toDigits 16 n).map Char.toUpper

theorem value_append_singleton (radix : Nat) (cs : List Char) (c : Char) :
    value radix (cs ++ [c]) = radix * value radix cs + digitValue c := by
  simp [value]

theorem natural?_eq_some_iff {radix n : Nat} {cs : List Char} :
    natural? radix cs = some n ↔ isDigits radix cs = true ∧ value radix cs = n := by
  simp [natural?]

theorem padded?_eq_some_iff {length : Nat} {digits text : List Char} :
    padded? length digits = some text ↔ length ≤ maxPadding ∧ padded length digits = text := by
  simp [padded?]

theorem padded?_eq_none_iff {length : Nat} {digits : List Char} :
    padded? length digits = none ↔ maxPadding < length := by
  simp [padded?]

theorem signed_mul (negative : Bool) (m n : Nat) :
    signed negative (m * n) = signed negative m * n := by
  cases negative with
  | false => exact Int.natCast_mul m n
  | true =>
      show -((m * n : Nat) : Int) = -(m : Int) * n
      rw [Int.natCast_mul, Int.neg_mul]

/-- An integer is its magnitude with its sign. -/
theorem signed_natAbs (i : Int) : signed (decide (i < 0)) i.natAbs = i := by
  by_cases hneg : i < 0
  · rw [decide_eq_true hneg]
    exact (Int.eq_neg_natAbs_of_nonpos (Int.le_of_lt hneg)).symm
  · rw [decide_eq_false hneg]
    exact Int.natAbs_of_nonneg (Int.not_lt.1 hneg)

theorem parseInteger_eq_ok_iff {text : String} {i : Int} :
    parseInteger text = .ok i ↔ integer? text.toList = some i := by
  simp only [parseInteger]
  split <;> simp_all

@[simp] theorem toOption_parseInteger (text : String) :
    (parseInteger text).toOption = integer? text.toList := by
  rw [parseInteger]
  cases integer? text.toList <;> rfl

end ExactCalc.Numeral
