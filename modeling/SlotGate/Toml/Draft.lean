import SlotGate.Toml.Literal

/-!
# Tables under construction

While a document is read, each table remembers how it came about, since that decides what may still
be added to it: a header opens a table once, a dotted key takes the tables on its way for itself, so
that no header opens them, and a finished value is never extended. Keys are put in ascending order
as they come.
-/
namespace SlotGate.Toml

inductive Origin where
  /-- The document, a table opened by a header, or an element of an array of tables. -/
  | opened
  /-- A table that a header passed through on its way. -/
  | passed
  /-- A table that a dotted key made, or found where a header had only passed. -/
  | dotted
  deriving DecidableEq, Repr

inductive Draft where
  | value (v : Literal)
  | table (origin : Origin) (entries : List (String × Draft))
  /-- An array of tables; the last one is open. -/
  | tables (done : List (List (String × Draft))) (last : List (String × Draft))

abbrev Entries : Type := Named Draft

mutual

def Draft.literal : Draft → Literal
  | .value v => v
  | .table _ entries => .table (finished entries)
  | .tables done last => .array (finishedTables done ++ [.table (finished last)])

/-- The entries of a finished table. -/
def finished : List (String × Draft) → List (String × Literal)
  | [] => []
  | (key, d) :: rest => (key, d.literal) :: finished rest

def finishedTables : List (List (String × Draft)) → List Literal
  | [] => []
  | entries :: rest => .table (finished entries) :: finishedTables rest

end

namespace Entries

/-- Changes the table at the end of a path, making the tables on the way that are missing. A dotted
path does not enter a table that was opened, and what it enters is dotted from then on. -/
def within (dotted : Bool) (change : Origin → Entries → Option Entries) :
    List String → Origin → Entries → Option Entries
  | [], origin, entries => change origin entries
  | key :: path, _, entries =>
    match List.lookup key entries with
    | none =>
      let origin := if dotted then Origin.dotted else Origin.passed
      (within dotted change path origin []).map fun es =>
        Named.insertSorted key (.table origin es) entries
    | some (.value _) => none
    | some (.tables done last) =>
      (within dotted change path .opened last).map fun es =>
        Named.insertSorted key (.tables done es) entries
    | some (.table origin inner) =>
      if dotted && origin = .opened then none
      else
        let origin := if dotted then .dotted else origin
        (within dotted change path origin inner).map fun es =>
          Named.insertSorted key (.table origin es) entries

/-- Adds a value under a dotted key: at its end a new key, in a dotted table exactly if the key has
dots. -/
def addValue (path : List String) (key : String) (v : Literal) (origin : Origin)
    (entries : Entries) : Option Entries :=
  within true (fun origin es =>
    if decide (origin = .dotted) = path.isEmpty then none
    else
      match List.lookup key es with
      | some _ => none
      | none => some (Named.insertSorted key (.value v) es)) path origin entries

/-- Opens the table of a header. -/
def openTable (path : List String) (key : String) (entries : Entries) : Option Entries :=
  within false (fun _ es =>
    match List.lookup key es with
    | none => some (Named.insertSorted key (.table .opened []) es)
    | some (.table .passed inner) => some (Named.insertSorted key (.table .opened inner) es)
    | some _ => none) path .opened entries

/-- Opens the next table of an array of tables. -/
def openElement (path : List String) (key : String) (entries : Entries) : Option Entries :=
  within false (fun _ es =>
    match List.lookup key es with
    | none => some (Named.insertSorted key (.tables [] []) es)
    | some (.tables done last) => some (Named.insertSorted key (.tables (done ++ [last]) []) es)
    | some _ => none) path .opened entries

end Entries

end SlotGate.Toml
