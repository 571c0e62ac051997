import ExactCalc.Rational.Style
import ExactCalc.Word.Style

/-!
The settings of the calculator: their built-in values, the overrides of a command line, and the
check that every text among them names something and that the width is not zero.
-/

namespace ExactCalc

structure Settings where
  rationalSpec : String := "F"
  wordSpec : String := "V"
  rounding : String := "ToEven"
  decimalScale : Nat := Decimal.defaultScale
  width : Nat := 32
  signed : Bool := false
  verbosity : Nat := 0
  jsonLogs : Bool := false
  deriving DecidableEq, Repr

/-- What a command line says about settings; what it does not mention is left alone. A verbosity of
zero mentions nothing. -/
structure Overrides where
  file : Option String := none
  rationalSpec : Option String := none
  wordSpec : Option String := none
  rounding : Option String := none
  decimalScale : Option Nat := none
  width : Option Nat := none
  signed : Option Bool := none
  verbosity : Nat := 0
  jsonLogs : Option Bool := none
  deriving DecidableEq, Repr

namespace Overrides

def onTopOf (inner outer : Overrides) : Overrides where
  file := inner.file <|> outer.file
  rationalSpec := inner.rationalSpec <|> outer.rationalSpec
  wordSpec := inner.wordSpec <|> outer.wordSpec
  rounding := inner.rounding <|> outer.rounding
  decimalScale := inner.decimalScale <|> outer.decimalScale
  width := inner.width <|> outer.width
  signed := inner.signed <|> outer.signed
  verbosity := if inner.verbosity = 0 then outer.verbosity else inner.verbosity
  jsonLogs := inner.jsonLogs <|> outer.jsonLogs

end Overrides

inductive SettingsFault where
  | rationalSpec (spec : String) (cause : Fault)
  | wordSpec (spec : String) (cause : Fault)
  | rounding (name : String) (cause : Fault)
  | zeroWidth
  deriving DecidableEq, Repr

namespace SettingsFault

def message : SettingsFault → String
  | .rationalSpec spec _ => s!"Invalid real_format: {spec}"
  | .wordSpec spec _ => s!"Invalid bitvec_format: {spec}"
  | .rounding name _ => s!"Invalid rounding: {name}"
  | .zeroWidth => "size must be greater than zero"

def cause? : SettingsFault → Option String
  | .rationalSpec _ cause | .wordSpec _ cause | .rounding _ cause => some cause.message
  | .zeroWidth => none

end SettingsFault

namespace Settings

def merge (settings : Settings) (overrides : Overrides) : Settings where
  rationalSpec := overrides.rationalSpec.getD settings.rationalSpec
  wordSpec := overrides.wordSpec.getD settings.wordSpec
  rounding := overrides.rounding.getD settings.rounding
  decimalScale := overrides.decimalScale.getD settings.decimalScale
  width := overrides.width.getD settings.width
  signed := overrides.signed.getD settings.signed
  verbosity := if overrides.verbosity = 0 then settings.verbosity else overrides.verbosity
  jsonLogs := overrides.jsonLogs.getD settings.jsonLogs

def rationalStyle (settings : Settings) : Except SettingsFault Rational.Style :=
  (Rational.Style.parse settings.rationalSpec).mapError (.rationalSpec settings.rationalSpec)

def wordStyle (settings : Settings) : Except SettingsFault Word.Style :=
  (Word.Style.parse settings.wordSpec).mapError (.wordSpec settings.wordSpec)

def tieRule (settings : Settings) : Except SettingsFault TieRule :=
  (TieRule.parse settings.rounding).mapError (.rounding settings.rounding)

/-- Checks the settings in a fixed order and reports the first that is at fault. -/
def validate (settings : Settings) : Except SettingsFault Unit := do
  let _ ← settings.rationalStyle
  let _ ← settings.wordStyle
  let _ ← settings.tieRule
  if settings.width = 0 then throw .zeroWidth

end Settings

end ExactCalc
