import ExactCalc.Fault
import ExactCalc.Json.Quoted

/-!
The outcome of a command: a text or a fault, an exit code, and the JSON line that reports them.
-/

namespace ExactCalc

structure Report where
  exitCode : Nat
  output? : Option String
  error? : Option String
  kind? : Option String
  deriving DecidableEq, Repr

namespace Report

def ofResult : Except Fault String → Report
  | .ok output => ⟨0, some output, none, none⟩
  | .error fault => ⟨1, none, some fault.message, some fault.kind.name⟩

def optional : Option String → String
  | none => "null"
  | some text => Json.quote text

def toJson (report : Report) : String :=
  "\x7b\"exitcode\":" ++ toString report.exitCode ++ ",\"output\":" ++ optional report.output? ++
    ",\"error\":" ++ optional report.error? ++ ",\"kind\":" ++ optional report.kind? ++ "\x7d"

end Report

end ExactCalc
