import ExactCalc.Calculator.RationalCommand
import ExactCalc.Calculator.WordCommand

/-!
Whole command lines: options, then `real` or `bv` and the name of a command, options allowed after
each, then the operands of the command with options among them. What an inner level says about an
option counts more than what an outer one says.
-/

namespace ExactCalc

inductive Command where
  | rational (command : RationalCommand)
  | word (command : WordCommand)
  deriving DecidableEq, Repr

/-- One of two sets of commands: their forms, and the command of a form with its operands. -/
structure Family where
  forms : List (String × List OperandKind)
  ofWords? : String → List String → Option Command

namespace Family

def rational : Family where
  forms := RationalCommand.forms
  ofWords? name words := (RationalCommand.ofWords? name words).map .rational

def word : Family where
  forms := WordCommand.forms
  ofWords? name words := (WordCommand.ofWords? name words).map .word

def named? : String → Option Family
  | "real" => some rational
  | "bv" => some word
  | _ => none

def parse (family : Family) (flags : List Flag) (words : List String) :
    Except Stop (Given × Command) := do
  let (outer, name, words) ←
    Level.subcommand { flags, subcommands := "help" :: family.forms.map (·.1) } words
  let (inner, operands) ←
    Level.leaf { flags, operands := (family.forms.lookup name).getD [] } words
  match family.ofWords? name operands with
  | some command => return (inner.onTopOf outer, command)
  | none => throw .usage

end Family

structure Invocation where
  given : Given
  command : Command

def Invocation.parse (words : List String) : Except Stop Invocation := do
  let (outer, name, words) ←
    Level.subcommand
      { flags := Flag.everywhere ++ [.version], subcommands := ["help", "real", "bv"] } words
  match Family.named? name with
  | some family =>
      let (inner, command) ← family.parse Flag.everywhere words
      return ⟨inner.onTopOf outer, command⟩
  | none => throw .usage

end ExactCalc
