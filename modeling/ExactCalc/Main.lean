import ExactCalc.Session

/-!
The command line program.
-/

open ExactCalc

def readText? (path : String) : IO (Option String) :=
  try
    return some (← IO.FS.readFile path)
  catch _ =>
    return none

/-- Whether the usual settings file is there. A file that cannot be opened is there all the same. -/
def usualExists : IO Bool :=
  try
    discard <| IO.FS.Handle.mk Settings.usualFile .read
    return true
  catch
    | .noFileOrDirectory .. => return false
    | _ => return true

def settingsFile? (overrides : Overrides) : IO (Option (String × Option String)) := do
  match Settings.filePath? overrides (← usualExists) with
  | none => return none
  | some path => return some (path, ← readText? path)

def main (words : List String) : IO UInt32 := do
  let outcome ←
    match Invocation.parse words with
    | .error stop => pure stop.outcome
    | .ok invocation => pure (invocation.run (← settingsFile? invocation.given.overrides))
  IO.print outcome.stdout
  IO.eprint outcome.stderr
  match outcome.exitCode? with
  | some code => return UInt32.ofNat code
  | none =>
      IO.eprintln "Formatting argument out of range"
      -- What a shell shows for a program that ends itself by a signal.
      return 134
