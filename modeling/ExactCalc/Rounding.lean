import ExactCalc.Text.Blank
import ExactCalc.Text.LetterCase
import ExactCalc.Fault

/-!
Rounding of a quotient to the nearest integer. A quotient that lies exactly halfway between two
integers is decided by a tie rule; every other quotient goes to its nearest integer under all
rules.
-/

namespace ExactCalc

/-- Where a value halfway between two integers goes. -/
inductive TieRule where
  | toEven
  | awayFromZero
  | toZero
  | toNegativeInfinity
  | toPositiveInfinity
  deriving DecidableEq, Repr, Inhabited

namespace TieRule

def name : TieRule → String
  | .toEven => "ToEven"
  | .awayFromZero => "AwayFromZero"
  | .toZero => "ToZero"
  | .toNegativeInfinity => "ToNegativeInfinity"
  | .toPositiveInfinity => "ToPositiveInfinity"

def all : List TieRule :=
  [.toEven, .awayFromZero, .toZero, .toNegativeInfinity, .toPositiveInfinity]

def named? (name : String) : Option TieRule :=
  all.find? fun rule => rule.name == name

/-- A spelling reduced to what tells rules apart: no outer blanks, hyphens or underscores, and
small letters. -/
def key (text : String) : String :=
  String.ofList (Text.lowerCase ((Text.trim text.toList).filter fun c => c != '-' && c != '_'))

def parse (text : String) : Except Fault TieRule :=
  match key text with
  | "toeven" | "even" => .ok .toEven
  | "awayfromzero" => .ok .awayFromZero
  | "tozero" => .ok .toZero
  | "tonegativeinfinity" | "floor" => .ok .toNegativeInfinity
  | "topositiveinfinity" | "ceiling" => .ok .toPositiveInfinity
  | _ => .error (.malformed "rounding mode" text)

/-- Whether the rule takes a tie away from zero, for a quotient of the given sign whose part
before the point is `whole`. -/
def away (rule : TieRule) (negative : Bool) (whole : Nat) : Bool :=
  match rule with
  | .toEven => whole % 2 == 1
  | .awayFromZero => true
  | .toZero => false
  | .toNegativeInfinity => negative
  | .toPositiveInfinity => !negative

/-- The magnitude of the integer nearest to `num / den`, read with the given sign. -/
def quotient (rule : TieRule) (negative : Bool) (num den : Nat) : Nat :=
  let whole := num / den
  match compare (2 * (num % den)) den with
  | .lt => whole
  | .eq => if rule.away negative whole then whole + 1 else whole
  | .gt => whole + 1

theorem quotient_of_dvd (rule : TieRule) (negative : Bool) {num den : Nat} (hden : 0 < den)
    (h : den ∣ num) : rule.quotient negative num den = num / den := by
  have hzero : num % den = 0 := Nat.mod_eq_zero_of_dvd h
  have hlt : compare (2 * (num % den)) den = .lt := Nat.compare_eq_lt.2 (by omega)
  simp [quotient, hlt]

end TieRule

end ExactCalc
