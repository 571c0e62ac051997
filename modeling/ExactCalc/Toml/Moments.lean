import ExactCalc.Text.Numeral
import ExactCalc.Toml.Value

/-!
TOML dates and times: a date, a time of day, or a date and a time between a `T` or a blank, then
perhaps with an offset.
-/

namespace ExactCalc.Toml

/-- A number of exactly `count` digits between two bounds. -/
def fixedNumber? (count low high : Nat) (cs : List Char) : Option (Nat × List Char) := do
  if cs.length < count then none
  let n ← Numeral.natural? 10 (cs.take count)
  if low ≤ n && n ≤ high then some (n, cs.drop count) else none

def after? (c : Char) : List Char → Option (List Char)
  | [] => none
  | d :: rest => if c == d then some rest else none

def isLeapYear (year : Nat) : Bool :=
  year % 4 == 0 && (year % 100 != 0 || year % 400 == 0)

def daysInMonth (year month : Nat) : Nat :=
  if month = 2 then if isLeapYear year then 29 else 28
  else if month ∈ [4, 6, 9, 11] then 30
  else 31

def date? (cs : List Char) : Option (Date × List Char) := do
  let (year, cs) ← fixedNumber? 4 0 9999 cs
  let (month, cs) ← fixedNumber? 2 1 12 (← after? '-' cs)
  let (day, cs) ← fixedNumber? 2 1 (daysInMonth year month) (← after? '-' cs)
  some (⟨year, month, day⟩, cs)

/-- The fraction of a second, of which nanoseconds are kept. -/
def nanoseconds? : List Char → Nat × List Char
  | '.' :: rest =>
      let run := rest.takeWhile Char.isDigit
      if run.isEmpty then (0, '.' :: rest)
      else
        let kept := run.take 9
        (Numeral.value 10 kept * 10 ^ (9 - kept.length), rest.dropWhile Char.isDigit)
  | cs => (0, cs)

def timeOfDay? (cs : List Char) : Option (TimeOfDay × List Char) := do
  let (hour, cs) ← fixedNumber? 2 0 23 cs
  let (minute, cs) ← fixedNumber? 2 0 59 (← after? ':' cs)
  let (second, cs) ← fixedNumber? 2 0 60 (← after? ':' cs)
  let (nanosecond, cs) := nanoseconds? cs
  some (⟨hour, minute, second, nanosecond⟩, cs)

def offsetMinutes? (negative : Bool) (cs : List Char) : Option (TimeOffset × List Char) := do
  let (hour, cs) ← fixedNumber? 2 0 23 cs
  let (minute, cs) ← fixedNumber? 2 0 59 (← after? ':' cs)
  some (.minutes (Numeral.signed negative (60 * hour + minute)), cs)

def timeOffset? : List Char → Option (TimeOffset × List Char)
  | 'Z' :: rest => some (.universal, rest)
  | 'z' :: rest => some (.universal, rest)
  | '+' :: rest => offsetMinutes? false rest
  | '-' :: rest => offsetMinutes? true rest
  | _ => none

def timeAfter? (date : Date) : List Char → Option (Moment × List Char)
  | [] => none
  | c :: cs => do
      if !(c == 'T' || c == 't' || c == ' ') then none
      let (time, cs) ← timeOfDay? cs
      match timeOffset? cs with
      | some (offset, rest) => some (⟨some date, some time, some offset⟩, rest)
      | none => some (⟨some date, some time, none⟩, cs)

def moment? (cs : List Char) : Option (Moment × List Char) :=
  match date? cs with
  | some (date, rest) => timeAfter? date rest <|> some (⟨some date, none, none⟩, rest)
  | none => (timeOfDay? cs).map fun (time, rest) => (⟨none, some time, none⟩, rest)

end ExactCalc.Toml
