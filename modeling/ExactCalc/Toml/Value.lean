import ExactCalc.Binary64.Shortest
import ExactCalc.Text.Inspect

/-!
The values that a TOML document holds, and how a value is shown for inspection: its kind, then its
content, tables in the order of their keys.
-/

namespace ExactCalc

structure Date where
  year : Nat
  month : Nat
  day : Nat
  deriving DecidableEq, Repr

structure TimeOfDay where
  hour : Nat
  minute : Nat
  second : Nat
  nanosecond : Nat
  deriving DecidableEq, Repr

inductive TimeOffset where
  | universal
  | minutes (ahead : Int)
  deriving DecidableEq, Repr

/-- A date, a time of day, or both, then perhaps with an offset. -/
structure Moment where
  date? : Option Date
  time? : Option TimeOfDay
  offset? : Option TimeOffset
  deriving DecidableEq, Repr

inductive Toml where
  | string (text : String)
  | integer (value : Int)
  | float (value : Binary64)
  | boolean (value : Bool)
  | moment (value : Moment)
  | array (elements : List Toml)
  | table (entries : List (String × Toml))
  deriving Repr

def Date.inspect (d : Date) : String :=
  "Date \x7b year: " ++ toString d.year ++ ", month: " ++ toString d.month ++ ", day: " ++
    toString d.day ++ " \x7d"

def TimeOfDay.inspect (t : TimeOfDay) : String :=
  "Time \x7b hour: " ++ toString t.hour ++ ", minute: " ++ toString t.minute ++ ", second: " ++
    toString t.second ++ ", nanosecond: " ++ toString t.nanosecond ++ " \x7d"

def TimeOffset.inspect : TimeOffset → String
  | .universal => "Z"
  | .minutes ahead => "Custom \x7b minutes: " ++ toString ahead ++ " \x7d"

def inspectOption {α : Type} (inspect : α → String) : Option α → String
  | none => "None"
  | some value => "Some(" ++ inspect value ++ ")"

def Moment.inspect (m : Moment) : String :=
  "Datetime \x7b date: " ++ inspectOption Date.inspect m.date? ++ ", time: " ++
    inspectOption TimeOfDay.inspect m.time? ++ ", offset: " ++
    inspectOption TimeOffset.inspect m.offset? ++ " \x7d"

namespace Toml

def byKey {α : Type} (entries : List (String × α)) : List (String × α) :=
  entries.mergeSort fun a b => a.1 ≤ b.1

mutual

def inspect : Toml → String
  | .string text => "String(" ++ Text.inspect text ++ ")"
  | .integer value => "Integer(" ++ toString value ++ ")"
  | .float value => "Float(" ++ value.render ++ ")"
  | .boolean value => "Boolean(" ++ toString value ++ ")"
  | .moment value => "Datetime(" ++ value.inspect ++ ")"
  | .array elements => "Array([" ++ ", ".intercalate (inspectElements elements) ++ "])"
  | .table entries =>
      let shown := byKey (inspectEntries entries)
      "Table(\x7b" ++ ", ".intercalate (shown.map fun (key, text) =>
        Text.inspect key ++ ": " ++ text) ++ "\x7d)"

def inspectElements : List Toml → List String
  | [] => []
  | element :: rest => inspect element :: inspectElements rest

def inspectEntries : List (String × Toml) → List (String × String)
  | [] => []
  | (key, value) :: rest => (key, inspect value) :: inspectEntries rest

end

end Toml

end ExactCalc
