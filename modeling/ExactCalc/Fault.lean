import ExactCalc.IntegerType

/-!
What can go wrong with a value: the causes, the kind each one belongs to, and the one place that
puts them into words.
-/

namespace ExactCalc

inductive FaultKind where
  | argument
  | division
  | overflow
  | format
  | operation
  deriving DecidableEq, Repr

namespace FaultKind

def name : FaultKind → String
  | .argument => "argument"
  | .division => "division"
  | .overflow => "overflow"
  | .format => "format"
  | .operation => "invalid-operation"

def heading : FaultKind → String
  | .argument => "Invalid argument"
  | .division => "Division by zero"
  | .overflow => "Overflow"
  | .format => "Invalid format string"
  | .operation => "Invalid operation"

end FaultKind

inductive BitMove where
  | shift
  | rotation
  deriving DecidableEq, Repr

def BitMove.name : BitMove → String
  | .shift => "Shift"
  | .rotation => "Rotation"

inductive Fault where
  | emptyWidth
  | widthMismatch (left right : Nat)
  | widthSumTooLarge (width extra : Nat)
  | widthProductTooLarge (width count : Nat)
  | noRepeats
  | highBitOutOfRange (high width : Nat)
  | lowBitAboveHigh (low high : Nat)
  | negativeAmount (move : BitMove) (amount : Int)
  | tooManyBytes (given allowed width : Nat)
  | tooManyHexDigits (given allowed width : Nat)
  | tooManyBinaryDigits (given width : Nat)
  | badHexDigits (text : String)
  | badBinaryDigits (text : String)
  | notFinite (name : String)
  | zeroDenominator
  | zeroDivisor
  | zeroWordDivisor (width : Nat)
  | reciprocalOfZero
  | wordTooLarge (width : Nat) (reading : Int) (target : IntegerType)
  | integerTooLarge (value : Int) (target : IntegerType)
  | notInteger (num : Int) (den : Nat) (target : IntegerType)
  | malformed (expected input : String)
  | unknownSpecifier (spec : String)
  | stated (kind : FaultKind) (detail : String)
  deriving DecidableEq, Repr

namespace Fault

def kind : Fault → FaultKind
  | emptyWidth | widthMismatch .. | widthSumTooLarge .. | widthProductTooLarge .. | noRepeats
  | highBitOutOfRange .. | lowBitAboveHigh .. | negativeAmount .. | tooManyBytes ..
  | tooManyHexDigits .. | tooManyBinaryDigits .. | badHexDigits .. | badBinaryDigits ..
  | notFinite .. => .argument
  | zeroDenominator | zeroDivisor | zeroWordDivisor .. | reciprocalOfZero => .division
  | wordTooLarge .. | integerTooLarge .. => .overflow
  | malformed .. | unknownSpecifier .. => .format
  | notInteger .. => .operation
  | stated kind _ => kind

def detail : Fault → String
  | emptyWidth => "Bit vector size must be greater than zero"
  | widthMismatch left right => s!"{left} != {right}"
  | widthSumTooLarge width extra => s!"Bit vector size {width} + {extra} is too large"
  | widthProductTooLarge width count =>
      s!"Repeating {width}-bit vector {count} times is too large"
  | noRepeats => "Repeat count must be at least one"
  | highBitOutOfRange high width =>
      s!"Extract high bit {high} is out of range for {width}-bit vector"
  | lowBitAboveHigh low high => s!"Extract low bit {low} is above high bit {high}"
  | negativeAmount move amount =>
      s!"{move.name} amount must be non-negative, got {amount}"
  | tooManyBytes given allowed width =>
      s!"Byte array length {given} exceeds maximum {allowed} bytes for {width}-bit vector"
  | tooManyHexDigits given allowed width =>
      s!"Hex string length {given} exceeds maximum {allowed} digits for {width}-bit vector"
  | tooManyBinaryDigits given width =>
      s!"Binary string length {given} exceeds maximum {width} bits for {width}-bit vector"
  | badHexDigits text => s!"Invalid hexadecimal string: {text}"
  | badBinaryDigits text => s!"Invalid binary string: {text}"
  | notFinite name => s!"Cannot convert non-finite value {name} to Real"
  | zeroDenominator => "Denominator must be non-zero"
  | zeroDivisor => "Division by zero is not allowed"
  | zeroWordDivisor width => s!"Cannot divide {width}-bit vector by zero"
  | reciprocalOfZero => "Cannot take reciprocal of zero"
  | wordTooLarge width reading target =>
      s!"{width}-bit value {reading} does not fit in {target.name}"
  | integerTooLarge value target => s!"{value} does not fit in {target.name}"
  | notInteger num den target =>
      s!"Cannot convert non-integer value {num}/{den} to {target.name}"
  | malformed expected input => s!"{expected}: {input}"
  | unknownSpecifier spec => spec
  | stated _ detail => detail

/-- The wording of a fault. A width mismatch and a malformed literal have headings of their own. -/
def message : Fault → String
  | widthMismatch left right => s!"BitVec size mismatch: {left} != {right}"
  | malformed expected input => s!"Invalid {expected}: {input}"
  | fault => s!"{fault.kind.heading}: {fault.detail}"

def describe (fault : Fault) : String :=
  s!"[{fault.kind.name}] {fault.message}"

end Fault

section

variable {ε α β : Type} {result : Except ε α} {next : α → Except ε β} {b : β} {fault : ε}

theorem bind_eq_ok_iff : (result >>= next) = .ok b ↔ ∃ a, result = .ok a ∧ next a = .ok b := by
  cases result <;> simp [bind, Except.bind]

theorem bind_eq_error_iff :
    (result >>= next) = .error fault ↔
      result = .error fault ∨ ∃ a, result = .ok a ∧ next a = .error fault := by
  cases result <;> simp [bind, Except.bind]

end

variable {α β : Type}

theorem toOption_map (f : α → β) (result : Except Fault α) :
    (result.map f).toOption = result.toOption.map f := by
  cases result <;> rfl

theorem toOption_eq_some_iff {result : Except Fault α} {x : α} :
    result.toOption = some x ↔ result = .ok x := by
  cases result <;> simp [Except.toOption]

end ExactCalc
