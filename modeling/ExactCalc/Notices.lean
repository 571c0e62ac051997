import ExactCalc.Fault

/-!
The notices that a program prints. A notice that should appear once is remembered and not printed
again; one that may be repeated is always printed and never remembered.
-/

namespace ExactCalc

inductive Notice where
  | warning (text : String) (repeatable : Bool)
  | error (text : String) (repeatable : Bool)
  | warningOnce (text : String)
  | report (fault : Fault)
  deriving DecidableEq, Repr

namespace Notice

def text : Notice → String
  | .warning text _ | .error text _ | .warningOnce text => text
  | .report fault => fault.describe

/-- Whether the text may appear again. The report of a fault always may. -/
def repeatable : Notice → Bool
  | .warning _ repeatable | .error _ repeatable => repeatable
  | .warningOnce _ => false
  | .report _ => true

end Notice

structure Notices where
  remembered : List String := []

namespace Notices

def contains (notices : Notices) (text : String) : Bool :=
  notices.remembered.contains text

/-- Whether a notice is to be printed, and what is remembered afterwards. -/
def say (notices : Notices) (text : String) (repeatable : Bool) : Bool × Notices :=
  if repeatable then (true, notices)
  else if notices.contains text then (false, notices)
  else (true, ⟨text :: notices.remembered⟩)

/-- The line that a notice prints, if it is printed, and what is remembered afterwards. -/
def issue (notices : Notices) (notice : Notice) : Option String × Notices :=
  let (printed, notices) := notices.say notice.text notice.repeatable
  (if printed then some notice.text else none, notices)

/-- Issues notices one after the other. Gives what each of them prints, and what is remembered after
all of them. -/
def issueAll (notices : Notices) : List Notice → List (Option String) × Notices
  | [] => ([], notices)
  | notice :: rest =>
      let (line?, notices) := notices.issue notice
      let (lines, notices) := notices.issueAll rest
      (line? :: lines, notices)

def lines (issued : List Notice) : List String :=
  (({} : Notices).issueAll issued).1.filterMap id

/-- The least severe level of log lines that a verbosity lets through. -/
def level (verbosity : Nat) : String :=
  match verbosity with
  | 0 => "warn"
  | 1 => "info"
  | 2 => "debug"
  | _ => "trace"

@[simp] theorem not_contains_empty (text : String) : ({} : Notices).contains text = false := rfl

/-- Saying a notice changes at most whether that notice is remembered. -/
theorem contains_say (notices : Notices) (text other : String) (repeatable : Bool) :
    (notices.say text repeatable).2.contains other =
      (notices.contains other || (!repeatable && other == text)) := by
  cases repeatable with
  | true => simp [say]
  | false =>
      by_cases hheld : notices.contains text = true
      · by_cases hsame : other = text <;> simp_all [say]
      · simp only [say, hheld, Bool.false_eq_true, if_false, Bool.not_false, Bool.true_and]
        simp only [contains, List.contains_cons]
        exact Bool.or_comm _ _

/-- A notice is printed unless it should appear once and has appeared. -/
theorem fst_say (notices : Notices) (text : String) (repeatable : Bool) :
    (notices.say text repeatable).1 = (repeatable || !notices.contains text) := by
  cases repeatable with
  | true => rfl
  | false =>
      simp only [say, Bool.false_eq_true, if_false]
      split <;> simp_all

end Notices

end ExactCalc
