import ExactCalc.Text.Numeral
import ExactCalc.Word.Literal

/-!
The styles in which a word is printed and the specifiers that name them, and its digits with and
without the zeros up to its width.
-/

namespace ExactCalc.Word

inductive Style where
  | decimal
  | binary
  | hex
  | value
  deriving DecidableEq, Repr

instance : Inhabited Style := ⟨.value⟩

namespace Style

def code : Style → String
  | .decimal => "D"
  | .binary => "B"
  | .hex => "X"
  | .value => "V"

def parse (spec : String) : Except Fault Style :=
  match Text.specifierKey spec with
  | "D" | "DECIMAL" => .ok .decimal
  | "B" | "BINARY" => .ok .binary
  | "X" | "HEX" => .ok .hex
  | "V" | "VALUE" => .ok .value
  | _ => .error (.unknownSpecifier spec)

end Style

/-- The binary digits, one for each bit, if there are not too many. -/
def binaryText? (a : Word) : Option String :=
  (Numeral.padded? a.width (Numeral.binary a.value)).map String.ofList

/-- The hexadecimal digits, as many as the width takes, if there are not too many. -/
def hexText? (a : Word) : Option String :=
  (Numeral.padded? (hexDigitCount a.width) (Numeral.upperHex a.value)).map String.ofList

/-- The text of a word in a style. The readings in decimal digits are signed or unsigned; the
binary and hexadecimal digits are those of the bits, hexadecimal ones without leading zeros. So
only binary digits can be too many. -/
def renderAs? (a : Word) (style : Style) (signed : Bool) : Option String :=
  match style with
  | .value => some s!"{a.reading signed}"
  | .decimal => some s!"{a.reading signed} ({a.width}-bit)"
  | .binary => a.binaryText?.map fun digits => s!"0b{digits} ({a.width}-bit)"
  | .hex => some s!"0x{String.ofList (Numeral.upperHex a.value)} ({a.width}-bit)"

def format (a : Word) (spec : String) : Except Fault (Option String) :=
  (Style.parse spec).map fun style => a.renderAs? style false

def inspect (a : Word) : String :=
  s!"BitVec({a.value}, {a.width})"

end ExactCalc.Word
