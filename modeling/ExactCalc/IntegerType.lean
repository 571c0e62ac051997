import ExactCalc.Power

/-!
The integer types that a value may be converted to.
-/

namespace ExactCalc

inductive IntegerType where
  | unbounded
  | signed32
  | unsigned32
  | signed64
  | unsigned64
  deriving DecidableEq, Repr

namespace IntegerType

def name : IntegerType → String
  | .unbounded => "BigInt"
  | .signed32 => "i32"
  | .unsigned32 => "u32"
  | .signed64 => "i64"
  | .unsigned64 => "u64"

/-- The first integer of the type and the first integer above it, where the type is bounded. -/
def bounds? : IntegerType → Option (Int × Int)
  | .unbounded => none
  | .signed32 => some (-2 ^ 31, 2 ^ 31)
  | .unsigned32 => some (0, 2 ^ 32)
  | .signed64 => some (-2 ^ 63, 2 ^ 63)
  | .unsigned64 => some (0, 2 ^ 64)

def holds (type : IntegerType) (value : Int) : Bool :=
  match type.bounds? with
  | none => true
  | some (low, high) => low ≤ value && value < high

end IntegerType

end ExactCalc
