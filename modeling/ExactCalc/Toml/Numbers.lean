import ExactCalc.Binary64
import ExactCalc.Text.Numeral
import ExactCalc.Toml.Value

/-!
TOML numbers. Digits may have single underscores between them. Integers are those of 64 bits; a
float is rounded to the nearest binary number, and one that would be rounded to positive infinity is
refused.
-/

namespace ExactCalc.Toml

/-- The longest run of digits at the start, without the underscores between them. -/
def digitRun (radix : Nat) (afterDigit : Bool) : List Char → List Char × List Char
  | [] => ([], [])
  | c :: rest =>
      if Numeral.digitValue c < radix then
        let (run, rest) := digitRun radix true rest
        (c :: run, rest)
      else if c == '_' && afterDigit && rest.head?.any (Numeral.digitValue · < radix) then
        digitRun radix false rest
      else ([], c :: rest)

def digits? (radix : Nat) (cs : List Char) : Option (List Char × List Char) :=
  let (run, rest) := digitRun radix false cs
  if run.isEmpty then none else some (run, rest)

/-- An optional sign and decimal digits without a leading zero. -/
def signedDigits? (cs : List Char) : Option (Bool × List Char × List Char) :=
  let (negative, body) := Numeral.splitSign cs
  match body with
  | '0' :: rest => some (negative, ['0'], rest)
  | body => (digits? 10 body).map fun (run, rest) => (negative, run, rest)

def within64 (value : Int) : Bool :=
  IntegerType.signed64.holds value

def radixInteger? (radix : Nat) (cs : List Char) : Option (Toml × List Char) := do
  let (run, rest) ← digits? radix cs
  let value : Int := Numeral.value radix run
  if within64 value then some (.integer value, rest) else none

def integer? (cs : List Char) : Option (Toml × List Char) :=
  match cs with
  | '0' :: 'x' :: rest => radixInteger? 16 rest
  | '0' :: 'o' :: rest => radixInteger? 8 rest
  | '0' :: 'b' :: rest => radixInteger? 2 rest
  | cs => do
      let (negative, run, rest) ← signedDigits? cs
      let value := Numeral.signed negative (Numeral.value 10 run)
      if within64 value then some (.integer value, rest) else none

def fraction? : List Char → Option (List Char × List Char)
  | '.' :: rest => digits? 10 rest
  | cs => some ([], cs)

def exponent? : List Char → Option (Int × List Char)
  | [] => some (0, [])
  | e :: cs =>
      if e == 'e' || e == 'E' then do
        let (negative, body) := Numeral.splitSign cs
        let (run, rest) ← digits? 10 body
        some (Numeral.signed negative (Numeral.value 10 run), rest)
      else some (0, e :: cs)

/-- The binary number nearest to `digits * 10 ^ power`. Powers far outside the range of binary
numbers are not formed. -/
def nearestFloat (negative : Bool) (digits : List Char) (power : Int) : Binary64 :=
  let value := Numeral.value 10 digits
  let lead := power + digits.length
  if value = 0 || lead < -400 then .nearest negative 0 1
  else if 400 + (digits.length : Int) < lead then ⟨negative, Binary64.infinity, by decide⟩
  else .nearest negative (value * 10 ^ power.toNat) (10 ^ (-power).toNat)

def positiveInfinity : Binary64 := ⟨false, Binary64.infinity, by decide⟩

def namedFloat? (cs : List Char) : Option (Toml × List Char) :=
  let (negative, body) := Numeral.splitSign cs
  match body with
  | 'i' :: 'n' :: 'f' :: rest => some (.float ⟨negative, Binary64.infinity, by decide⟩, rest)
  | 'n' :: 'a' :: 'n' :: rest => some (.float ⟨negative, 2 ^ 63 - 2 ^ 51, by decide⟩, rest)
  | _ => none

def writtenFloat? (cs : List Char) : Option (Toml × List Char) := do
  let (negative, whole, cs) ← signedDigits? cs
  let (fraction, after) ← fraction? cs
  let (exponent, rest) ← exponent? after
  if rest.length = cs.length then none
  else
    let value := nearestFloat negative (whole ++ fraction) (exponent - fraction.length)
    if value = positiveInfinity then none else some (.float value, rest)

def number? (cs : List Char) : Option (Toml × List Char) :=
  writtenFloat? cs <|> namedFloat? cs <|> integer? cs

end ExactCalc.Toml
