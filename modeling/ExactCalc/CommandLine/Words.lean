import ExactCalc.CommandLine.Flags

/-!
One level of a command line: options and operands up to a subcommand or to the end. A word that
starts with a hyphen is an option if the level knows it; otherwise it is an operand where one is due
that may start with a hyphen. Two hyphens end the options.
-/

namespace ExactCalc

inductive OperandKind where
  | literal
  | integer
  | specifier
  | natural
  deriving DecidableEq, Repr

def OperandKind.allowsHyphen : OperandKind → Bool
  | .literal | .integer => true
  | .specifier | .natural => false

structure Level where
  flags : List Flag
  subcommands : List String := []
  operands : List OperandKind := []

namespace Level

def flag? (level : Level) (name : List Char) : Option Flag :=
  level.flags.find? fun flag => flag.name.toList == name

def letter? (level : Level) (letter : Char) : Option Flag :=
  level.flags.find? fun flag => flag.letter? == some letter

end Level

/-- How far a level has been read. -/
structure Progress where
  given : Given := {}
  operands : List String := []
  pending? : Option Flag := none
  optionsEnded : Bool := false

namespace Progress

/-- Whether the operand that is due may start with a hyphen. -/
def hyphenAllowed (progress : Progress) (level : Level) : Bool :=
  (level.operands[progress.operands.length]?).any OperandKind.allowsHyphen

def record (progress : Progress) (flag : Flag) (word? : Option String) : Except Stop Progress :=
  (progress.given.record flag word?).map fun given =>
    { progress with given := given, pending? := none }

def operand (progress : Progress) (level : Level) (word : String) : Except Stop Progress :=
  if progress.operands.length < level.operands.length then
    .ok { progress with operands := progress.operands ++ [word] }
  else .error .usage

/-- A word that is no option: what the option before it takes, or else an operand. -/
def word (progress : Progress) (level : Level) (text : String) : Except Stop Progress :=
  match progress.pending? with
  | some flag => progress.record flag (some text)
  | none => progress.operand level text

/-- An option by its name, perhaps with an attached word. -/
def option (progress : Progress) (flag : Flag) (attached? : Option String) :
    Except Stop Progress :=
  if progress.pending?.isSome then .error .usage
  else
    match flag.takes, attached? with
    | .word, none => .ok { progress with pending? := some flag }
    | .nothing, some _ => .error .usage
    | _, _ => progress.record flag attached?

/-- Options by their letters. What follows the letter of an option that takes a word is that word,
after an equals sign if there is one. -/
def letters (progress : Progress) (level : Level) : List Char → Except Stop Progress
  | [] => .ok progress
  | letter :: rest =>
      match level.letter? letter with
      | none => .error .usage
      | some flag =>
          match flag.takes, rest with
          | .word, [] => progress.option flag none
          | .word, '=' :: attached => progress.option flag (some (String.ofList attached))
          | .word, attached => progress.option flag (some (String.ofList attached))
          | _, _ => do letters (← progress.option flag none) level rest

def splitEquals (cs : List Char) : List Char × Option String :=
  match cs.dropWhile (· != '=') with
  | [] => (cs, none)
  | _ :: attached => (cs.takeWhile (· != '='), some (String.ofList attached))

def next (progress : Progress) (level : Level) (text : String) : Except Stop Progress :=
  if progress.optionsEnded then progress.operand level text
  else
    match text.toList with
    | ['-', '-'] =>
        if progress.pending?.isSome then .error .usage
        else .ok { progress with optionsEnded := true }
    | '-' :: '-' :: body =>
        let (name, attached?) := splitEquals body
        match level.flag? name with
        | some flag => progress.option flag attached?
        | none => if progress.hyphenAllowed level then progress.word level text else .error .usage
    | '-' :: letter :: rest =>
        if progress.hyphenAllowed level && (letter :: rest).any (level.letter? · |>.isNone) then
          progress.word level text
        else progress.letters level (letter :: rest)
    | _ => progress.word level text

end Progress

/-- Reads a level. Gives the subcommand it ends in, if it does, with the words behind it. -/
def Level.read (level : Level) (progress : Progress) :
    List String → Except Stop (Progress × Option (String × List String))
  | [] => if progress.pending?.isSome then .error .usage else .ok (progress, none)
  | text :: rest =>
      if !progress.optionsEnded && progress.pending?.isNone && level.subcommands.contains text then
        .ok (progress, some (text, rest))
      else do
        level.read (← progress.next level text) rest

/-- Reads a level that ends in a subcommand. -/
def Level.subcommand (level : Level) (words : List String) :
    Except Stop (Given × String × List String) := do
  match ← level.read {} words with
  | (progress, some (name, rest)) =>
      if name == "help" then throw .help else return (progress.given, name, rest)
  | (_, none) => throw .usage

/-- Reads a level that ends in its operands, all of which must be there. -/
def Level.leaf (level : Level) (words : List String) : Except Stop (Given × List String) := do
  let (progress, _) ← level.read {} words
  if progress.operands.length = level.operands.length then
    return (progress.given, progress.operands)
  else throw .usage

def Overrides.ofWords (words : List String) : Except Stop Overrides := do
  let (given, _) ← Level.leaf { flags := Flag.ofSettings ++ [.help, .version] } words
  return given.overrides

end ExactCalc
