import ExactCalc.Calculator.Report
import ExactCalc.CommandLine.Invocation
import ExactCalc.Notices
import ExactCalc.Settings.File

/-!
A run of the program as a function: from the words of the command line and the text of the settings
file to the exit code and what is printed.
-/

namespace ExactCalc

/-- What a run leaves behind. It has no exit code if it is broken off while a text is put together;
what is said about that then is not part of it. -/
structure Outcome where
  exitCode? : Option Nat
  stdout : String
  stderr : String
  deriving DecidableEq, Repr

namespace Outcome

def asLines (texts : List String) : String :=
  String.join (texts.map (· ++ "\n"))

end Outcome

/-- Why a run ends without a report. -/
inductive StartFault where
  | file (fault : FileFault)
  | settings (fault : SettingsFault)

namespace StartFault

def message : StartFault → String
  | .file fault => fault.message
  | .settings fault => fault.message

def cause? : StartFault → Option String
  | .file fault => fault.cause?
  | .settings fault => fault.cause?

/-- A text whose lines after the first are as far in as a cause is. -/
def indented (text : String) : String :=
  String.ofList (text.toList.flatMap fun c => if c == '\n' then "\n    ".toList else [c])

def report (fault : StartFault) : String :=
  match fault.cause? with
  | none => s!"Error: {fault.message}\n"
  | some cause => s!"Error: {fault.message}\n\nCaused by:\n    {indented cause}\n"

end StartFault

/-- The settings in force: those of a file under the overrides of a command line, if they pass the
check. -/
def Settings.inForce (overrides : Overrides) (fromFile : Except FileFault Settings) :
    Except StartFault Settings := do
  let settings := (← fromFile.mapError .file).merge overrides
  settings.validate.mapError .settings
  return settings

namespace Command

/-- What a command gives. The settings that it looks at are read from their texts, and refused if a
text names nothing. -/
def run (command : Command) (settings : Settings) :
    Except SettingsFault (Except Fault (Option String)) := do
  match command with
  | .rational command =>
      let style ← settings.rationalStyle
      let tieRule ← settings.tieRule
      return command.run ⟨style, settings.decimalScale, tieRule⟩
  | .word command =>
      let style ← settings.wordStyle
      return command.run ⟨settings.width, settings.signed, style⟩

/-- The report on a command, and the notices issued for it. A command without a text is not reported
on. -/
def evaluate (command : Command) (settings : Settings) :
    Except SettingsFault (Option (Report × List Notice)) := do
  match ← command.run settings with
  | .ok (some output) => return some (.ofResult (.ok output), [])
  | .ok none => return none
  | .error fault => return some (.ofResult (.error fault), [.report fault])

end Command

def unknownKeyNotice (key : String) : Notice :=
  .warningOnce s!"Ignoring unknown config key: {key}"

/-- Carries out a command under the settings of a file, given by its path and its text if it could
be read, or under the built-in ones. -/
def Invocation.run (invocation : Invocation) (file? : Option (String × Option String)) : Outcome :=
  let (unknown, fromFile) := Settings.load file?
  let warnings := unknown.map unknownKeyNotice
  let stop (fault : StartFault) : Outcome :=
    ⟨some 1, "", Outcome.asLines (Notices.lines warnings) ++ fault.report⟩
  match Settings.inForce invocation.given.overrides fromFile with
  | .error fault => stop fault
  | .ok settings =>
      match invocation.command.evaluate settings with
      | .error fault => stop (.settings fault)
      | .ok none => ⟨none, "", Outcome.asLines (Notices.lines warnings)⟩
      | .ok (some (report, complaints)) =>
          let printed :=
            if invocation.given.json then Outcome.asLines [report.toJson]
            else Outcome.asLines report.output?.toList
          ⟨some report.exitCode, printed, Outcome.asLines (Notices.lines (warnings ++ complaints))⟩

def Stop.outcome : Stop → Outcome
  | .version => ⟨some 0, "zwrap 0.0.1\n", ""⟩
  | .help => ⟨some 0, "Usage: zwrap [OPTIONS] <real|bv> <COMMAND> [OPERANDS]\n", ""⟩
  | .usage => ⟨some 2, "", "Usage: zwrap [OPTIONS] <real|bv> <COMMAND> [OPERANDS]\n"⟩

end ExactCalc
