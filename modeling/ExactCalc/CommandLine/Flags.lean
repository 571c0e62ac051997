import ExactCalc.IntegerType
import ExactCalc.Settings

/-!
The options of the command line: how each is written, what it takes, and what it says. An option
given twice on one level is refused, except the one that counts.
-/

namespace ExactCalc

/-- Why a command line is not carried out: it is wrong, or it asks for something else. -/
inductive Stop where
  | usage
  | help
  | version
  deriving DecidableEq, Repr

inductive Flag where
  | config
  | rationalSpec
  | wordSpec
  | rounding
  | decimalScale
  | width
  | signed
  | verbosity
  | jsonLogs
  | json
  | help
  | version
  deriving DecidableEq, Repr

/-- What may come with an option: a word of its own or attached, a truth value only attached, or
nothing. -/
inductive Takes where
  | word
  | attachedTruth
  | nothing
  deriving DecidableEq, Repr

namespace Flag

def name : Flag → String
  | .config => "config"
  | .rationalSpec => "real-format"
  | .wordSpec => "bitvec-format"
  | .rounding => "rounding"
  | .decimalScale => "decimal-scale"
  | .width => "size"
  | .signed => "signed"
  | .verbosity => "verbose"
  | .jsonLogs => "log-json"
  | .json => "json"
  | .help => "help"
  | .version => "version"

def letter? : Flag → Option Char
  | .width => some 's'
  | .verbosity => some 'v'
  | .help => some 'h'
  | .version => some 'V'
  | _ => none

def takes : Flag → Takes
  | .config | .rationalSpec | .wordSpec | .rounding | .decimalScale | .width => .word
  | .signed | .jsonLogs => .attachedTruth
  | .verbosity | .json | .help | .version => .nothing

def ofSettings : List Flag :=
  [.config, .rationalSpec, .wordSpec, .rounding, .decimalScale, .width, .signed, .verbosity,
    .jsonLogs]

/-- The options that are known on every level of a command line. -/
def everywhere : List Flag := ofSettings ++ [.json, .help]

end Flag

/-- An integer of the type in decimal digits with an optional sign, nothing around it. -/
def IntegerType.read? (type : IntegerType) (text : String) : Option Int := do
  let value ← Numeral.bareInteger? text.toList
  if type.holds value then some value else none

structure Given where
  overrides : Overrides := {}
  json : Bool := false
  deriving DecidableEq, Repr

namespace Given

def onTopOf (inner outer : Given) : Given where
  overrides := inner.overrides.onTopOf outer.overrides
  json := inner.json || outer.json

/-- A value for an option that has none yet. -/
def once {α : Type} (old new : Option α) : Except Stop (Option α) :=
  match old, new with
  | none, some value => .ok (some value)
  | _, _ => .error .usage

def naturalWord? (word? : Option String) : Option Nat := do
  (← IntegerType.unsigned32.read? (← word?)).toNat

/-- The truth value attached to an option; the option alone means that it is so. -/
def truthWord? : Option String → Option Bool
  | none | some "true" => some true
  | some "false" => some false
  | some _ => none

/-- Takes in an option and the word that came with it. -/
def record (flag : Flag) (word? : Option String) (given : Given) : Except Stop Given := do
  let old := given.overrides
  match flag with
  | .config =>
      return { given with overrides.file := ← once old.file (word?.filter (· != "")) }
  | .rationalSpec => return { given with overrides.rationalSpec := ← once old.rationalSpec word? }
  | .wordSpec => return { given with overrides.wordSpec := ← once old.wordSpec word? }
  | .rounding => return { given with overrides.rounding := ← once old.rounding word? }
  | .decimalScale =>
      return { given with overrides.decimalScale := ← once old.decimalScale (naturalWord? word?) }
  | .width => return { given with overrides.width := ← once old.width (naturalWord? word?) }
  | .signed => return { given with overrides.signed := ← once old.signed (truthWord? word?) }
  | .verbosity => return { given with overrides.verbosity := min 255 (old.verbosity + 1) }
  | .jsonLogs =>
      return { given with overrides.jsonLogs := ← once old.jsonLogs (truthWord? word?) }
  | .json => if given.json then throw .usage else return { given with json := true }
  | .help => throw .help
  | .version => throw .version

end Given

end ExactCalc
