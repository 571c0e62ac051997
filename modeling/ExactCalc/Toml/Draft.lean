import ExactCalc.Toml.Value

/-!
A TOML document while it is read. A table may be named by a header, implied by a header of a table
inside it, or implied by a dotted key; which of these it is decides what may still be added to it.
Values, and with them arrays and tables written in one piece, are closed.
-/

namespace ExactCalc.Toml

inductive Origin where
  | header
  | implied
  | dotted
  deriving DecidableEq

inductive Draft where
  | value (value : Toml)
  | table (origin : Origin) (entries : List (String × Draft))
  | tables (elements : List (List (String × Draft)))

namespace Draft

def find? (key : String) : List (String × Draft) → Option Draft
  | [] => none
  | (name, draft) :: rest => if name == key then some draft else find? key rest

/-- Puts a draft in the place of the one of this key, or at the end. -/
def put (key : String) (draft : Draft) : List (String × Draft) → List (String × Draft)
  | [] => [(key, draft)]
  | (name, old) :: rest =>
      if name == key then (name, draft) :: rest else (name, old) :: put key draft rest

def changeLast? {α : Type} (change : α → Option α) : List α → Option (List α)
  | [] => none
  | [last] => (change last).map fun last => [last]
  | first :: rest => (changeLast? change rest).map (first :: ·)

/-- Puts a value under a dotted key. Tables on the way are made where there are none; a table with a
header of its own may not be entered, and the table that gets the value must be the one that the
key starts from or one made by dotted keys. -/
def insert? (value : Toml) (key : String) :
    List String → List (String × Draft) → Option (List (String × Draft))
  | [], entries =>
      if (find? key entries).isSome then none else some (put key (.value value) entries)
  | step :: path, entries =>
      match find? step entries with
      | none => (insert? value key path []).map fun inner => put step (.table .dotted inner) entries
      | some (.table origin inner) =>
          if origin = .header || (path.isEmpty && origin ≠ .dotted) then none
          else
            (insert? value key path inner).map fun inner => put step (.table origin inner) entries
      | some (.tables elements) =>
          if path.isEmpty then none
          else
            (changeLast? (insert? value key path) elements).map fun elements =>
              put step (.tables elements) entries
      | some (.value _) => none

/-- Changes the table at the path of a header. Tables on the way are implied where there are none,
and of the tables of an array the last one is entered. -/
def change? (change : List (String × Draft) → Option (List (String × Draft))) :
    List String → List (String × Draft) → Option (List (String × Draft))
  | [], entries => change entries
  | step :: path, entries =>
      match find? step entries with
      | none => (change? change path []).map fun inner => put step (.table .implied inner) entries
      | some (.table origin inner) =>
          (change? change path inner).map fun inner => put step (.table origin inner) entries
      | some (.tables elements) =>
          (changeLast? (change? change path) elements).map fun elements =>
            put step (.tables elements) entries
      | some (.value _) => none

/-- The header of a table: there is none yet of this name, or one implied by a header. -/
def openTable? (path : List String) (key : String) :
    List (String × Draft) → Option (List (String × Draft)) :=
  change? (fun entries =>
    match find? key entries with
    | none => some (put key (.table .header []) entries)
    | some (.table .implied inner) => some (put key (.table .header inner) entries)
    | _ => none) path

def openElement? (path : List String) (key : String) :
    List (String × Draft) → Option (List (String × Draft)) :=
  change? (fun entries =>
    match find? key entries with
    | none => some (put key (.tables [[]]) entries)
    | some (.tables elements) => some (put key (.tables (elements ++ [[]])) entries)
    | _ => none) path

mutual

def close : Draft → Toml
  | .value content => content
  | .table _ entries => .table (closeEntries entries)
  | .tables elements => .array (closeTables elements)

def closeEntries : List (String × Draft) → List (String × Toml)
  | [] => []
  | (key, draft) :: rest => (key, close draft) :: closeEntries rest

def closeTables : List (List (String × Draft)) → List Toml
  | [] => []
  | entries :: rest => .table (closeEntries entries) :: closeTables rest

end

end Draft

end ExactCalc.Toml
