import ExactCalc.Settings
import ExactCalc.Toml.Document

/-!
Settings files. A file is a TOML document whose table `global` holds settings by the names of their
options, with hyphens or underscores. Unknown keys are passed over and reported; a value of the
wrong type makes the file unusable.
-/

namespace ExactCalc

inductive Setting where
  | rationalSpec
  | wordSpec
  | rounding
  | decimalScale
  | width
  | signed
  | verbosity
  | jsonLogs
  deriving DecidableEq, Repr

structure WrongType where
  expected : String
  found : Toml

def WrongType.message (fault : WrongType) : String :=
  s!"Expected {fault.expected}, got {fault.found.inspect}"

namespace Setting

/-- The setting of this name, in which hyphens and underscores are alike. -/
def named? (key : String) : Option Setting :=
  match String.ofList (key.toList.map fun c => if c == '-' then '_' else c) with
  | "real_format" => some .rationalSpec
  | "bitvec_format" => some .wordSpec
  | "rounding" => some .rounding
  | "decimal_scale" => some .decimalScale
  | "size" => some .width
  | "signed" => some .signed
  | "verbose" => some .verbosity
  | "log_json" => some .jsonLogs
  | _ => none

def text : Toml → Except WrongType String
  | .string text => .ok text
  | value => .error ⟨"string", value⟩

def truth : Toml → Except WrongType Bool
  | .boolean value => .ok value
  | value => .error ⟨"bool", value⟩

/-- An integer below `2 ^ bits` that is not negative. -/
def natural (bits : Nat) : Toml → Except WrongType Nat
  | .integer value =>
      if 0 ≤ value ∧ value < 2 ^ bits then .ok value.toNat
      else .error ⟨s!"u{bits}", .integer value⟩
  | value => .error ⟨s!"u{bits}", value⟩

def assign (setting : Setting) (value : Toml) (settings : Settings) :
    Except WrongType Settings :=
  match setting with
  | .rationalSpec => (text value).map fun spec => { settings with rationalSpec := spec }
  | .wordSpec => (text value).map fun spec => { settings with wordSpec := spec }
  | .rounding => (text value).map fun name => { settings with rounding := name }
  | .decimalScale => (natural 32 value).map fun scale => { settings with decimalScale := scale }
  | .width => (natural 32 value).map fun width => { settings with width := width }
  | .signed => (truth value).map fun signed => { settings with signed := signed }
  | .verbosity => (natural 8 value).map fun level => { settings with verbosity := level }
  | .jsonLogs => (truth value).map fun json => { settings with jsonLogs := json }

end Setting

namespace Settings

/-- Assigns the entries one after the other. Gives the unknown keys met on the way, and the settings
unless a value has the wrong type. -/
def assignAll (settings : Settings) :
    List (String × Toml) → List String × Except WrongType Settings
  | [] => ([], .ok settings)
  | (key, value) :: rest =>
      match Setting.named? key with
      | none =>
          let (unknown, result) := assignAll settings rest
          (key :: unknown, result)
      | some setting =>
          match setting.assign value settings with
          | .ok settings => assignAll settings rest
          | .error fault => ([], .error fault)

def ofEntries (entries : List (String × Toml)) : List String × Except WrongType Settings :=
  assignAll {} entries

end Settings

inductive FileFault where
  | unreadable (path : String)
  | malformed (path : String)
  | wrongType (path : String) (cause : WrongType)

namespace FileFault

def message : FileFault → String
  | .unreadable path => s!"Failed to read config file: {Text.inspect path}"
  | .malformed path => s!"Failed to parse config file: {Text.inspect path}"
  | .wrongType path _ => s!"Invalid config file: {Text.inspect path}"

def cause? : FileFault → Option String
  | .unreadable _ | .malformed _ => none
  | .wrongType _ cause => some cause.message

end FileFault

namespace Settings

/-- The entries of the table `global`, none if there is no such table. Refused if the document is
malformed or `global` is no table. -/
def globalEntries? (text : String) : Option (List (String × Toml)) := do
  match (← Toml.parse? text).lookup "global" with
  | none => some []
  | some (.table entries) => some entries
  | some _ => none

def ofFile (path : String) (text? : Option String) : List String × Except FileFault Settings :=
  match text? with
  | none => ([], .error (.unreadable path))
  | some text =>
      match globalEntries? text with
      | none => ([], .error (.malformed path))
      | some entries =>
          let (unknown, result) := ofEntries entries
          (unknown, result.mapError (.wrongType path))

def usualFile : String := "zwrap.toml"

/-- The file to read: the one asked for, or else the usual one if it is there. -/
def filePath? (overrides : Overrides) (usualExists : Bool) : Option String :=
  overrides.file <|> if usualExists then some usualFile else none

/-- The settings to start from: those of the file with its text, or the built-in ones. -/
def load (file? : Option (String × Option String)) : List String × Except FileFault Settings :=
  match file? with
  | none => ([], .ok {})
  | some (path, text?) => ofFile path text?

end Settings

end ExactCalc
