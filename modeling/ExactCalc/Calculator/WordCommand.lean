import ExactCalc.Calculator.RationalCommand
import ExactCalc.Word.Arith
import ExactCalc.Word.Bits
import ExactCalc.Word.Literal
import ExactCalc.Word.Order
import ExactCalc.Word.Slice
import ExactCalc.Word.Style

/-!
The commands on words: their operands as they are written, how a command line names them, and the
text that each one gives.
-/

namespace ExactCalc

inductive WordCommand where
  | add (lhs rhs : String)
  | sub (lhs rhs : String)
  | mul (lhs rhs : String)
  | udiv (lhs rhs : String)
  | urem (lhs rhs : String)
  | sdiv (lhs rhs : String)
  | srem (lhs rhs : String)
  | smod (lhs rhs : String)
  | and (lhs rhs : String)
  | or (lhs rhs : String)
  | xor (lhs rhs : String)
  | not (value : String)
  | shiftLeft (value : String) (distance : Int)
  | shiftRight (value : String) (distance : Int)
  | rotateLeft (value : String) (distance : Int)
  | rotateRight (value : String) (distance : Int)
  | extract (value : String) (high low : Nat)
  | extend (value : String) (extra : Nat)
  | signExtend (value : String) (extra : Nat)
  | resize (value : String) (width : Nat)
  | compare (lhs rhs : String)
  | format (value spec : String)
  deriving DecidableEq, Repr

/-- The width of the operands, how they are read where that matters, and how results are
printed. -/
structure WordOutput where
  width : Nat
  signed : Bool
  style : Word.Style
  deriving DecidableEq, Repr

def WordOutput.render? (output : WordOutput) (value : Word) : Option String :=
  value.renderAs? output.style output.signed

namespace WordCommand

def forms : List (String × List OperandKind) :=
  [("add", [.literal, .literal]), ("sub", [.literal, .literal]), ("mul", [.literal, .literal]),
    ("div", [.literal, .literal]), ("rem", [.literal, .literal]), ("sdiv", [.literal, .literal]),
    ("srem", [.literal, .literal]), ("smod", [.literal, .literal]), ("and", [.literal, .literal]),
    ("or", [.literal, .literal]), ("xor", [.literal, .literal]), ("not", [.literal]),
    ("shl", [.literal, .integer]), ("shr", [.literal, .integer]), ("rotl", [.literal, .integer]),
    ("rotr", [.literal, .integer]), ("extract", [.literal, .natural, .natural]),
    ("extend", [.literal, .natural]), ("sext", [.literal, .natural]),
    ("resize", [.literal, .natural]), ("cmp", [.literal, .literal]),
    ("fmt", [.literal, .specifier])]

def natural? (word : String) : Option Nat :=
  (IntegerType.unsigned32.read? word).map Int.toNat

def ofWords? : String → List String → Option WordCommand
  | "add", [lhs, rhs] => some (.add lhs rhs)
  | "sub", [lhs, rhs] => some (.sub lhs rhs)
  | "mul", [lhs, rhs] => some (.mul lhs rhs)
  | "div", [lhs, rhs] => some (.udiv lhs rhs)
  | "rem", [lhs, rhs] => some (.urem lhs rhs)
  | "sdiv", [lhs, rhs] => some (.sdiv lhs rhs)
  | "srem", [lhs, rhs] => some (.srem lhs rhs)
  | "smod", [lhs, rhs] => some (.smod lhs rhs)
  | "and", [lhs, rhs] => some (.and lhs rhs)
  | "or", [lhs, rhs] => some (.or lhs rhs)
  | "xor", [lhs, rhs] => some (.xor lhs rhs)
  | "not", [value] => some (.not value)
  | "shl", [value, distance] => (IntegerType.signed32.read? distance).map (.shiftLeft value)
  | "shr", [value, distance] => (IntegerType.signed32.read? distance).map (.shiftRight value)
  | "rotl", [value, distance] => (IntegerType.signed32.read? distance).map (.rotateLeft value)
  | "rotr", [value, distance] => (IntegerType.signed32.read? distance).map (.rotateRight value)
  | "extract", [value, high, low] => do some (.extract value (← natural? high) (← natural? low))
  | "extend", [value, extra] => (natural? extra).map (.extend value)
  | "sext", [value, extra] => (natural? extra).map (.signExtend value)
  | "resize", [value, width] => (natural? width).map (.resize value)
  | "cmp", [lhs, rhs] => some (.compare lhs rhs)
  | "fmt", [value, spec] => some (.format value spec)
  | _, _ => none

def unary (output : WordOutput) (value : String) (operation : Word → Except Fault Word) :
    Except Fault (Option String) := do
  return output.render? (← operation (← Word.parseOperand value output.width))

/-- The text of an operation on two operands, the left one read first. -/
def binary (output : WordOutput) (lhs rhs : String)
    (operation : Word → Word → Except Fault Word) : Except Fault (Option String) := do
  let a ← Word.parseOperand lhs output.width
  let b ← Word.parseOperand rhs output.width
  return output.render? (← operation a b)

/-- The text that a command gives, or a fault. There is neither where the result has more bits than
can be printed in binary digits. -/
def run (command : WordCommand) (output : WordOutput) : Except Fault (Option String) :=
  match command with
  | .add lhs rhs => binary output lhs rhs Word.add
  | .sub lhs rhs => binary output lhs rhs Word.sub
  | .mul lhs rhs => binary output lhs rhs Word.mul
  | .udiv lhs rhs => binary output lhs rhs Word.udiv
  | .urem lhs rhs => binary output lhs rhs Word.urem
  | .sdiv lhs rhs => binary output lhs rhs Word.sdiv
  | .srem lhs rhs => binary output lhs rhs Word.srem
  | .smod lhs rhs => binary output lhs rhs Word.smod
  | .and lhs rhs => binary output lhs rhs Word.and
  | .or lhs rhs => binary output lhs rhs Word.or
  | .xor lhs rhs => binary output lhs rhs Word.xor
  | .not value => unary output value fun a => .ok a.not
  | .shiftLeft value distance => unary output value (·.shiftLeft distance)
  | .shiftRight value distance => unary output value (·.shiftRight distance output.signed)
  | .rotateLeft value distance => unary output value (·.rotateLeft distance)
  | .rotateRight value distance => unary output value (·.rotateRight distance)
  | .extract value high low => unary output value (·.extract high low)
  | .extend value extra => unary output value (·.extend extra)
  | .signExtend value extra => unary output value (·.signExtend extra)
  | .resize value width =>
      unary output value fun a => if output.signed then a.signResize width else a.resize width
  | .compare lhs rhs => do
      let a ← Word.parseOperand lhs output.width
      let b ← Word.parseOperand rhs output.width
      return some (orderingSymbol (← a.order b output.signed))
  | .format value spec => do (← Word.parseOperand value output.width).format spec

end WordCommand

end ExactCalc
