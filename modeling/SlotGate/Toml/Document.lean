import SlotGate.Toml.Reader

/-!
# Documents

A document is a sequence of lines: headers, which open tables, and keys with values, which go into
the table that was opened last. The outcome is one table, ascending by key at every level.
-/
namespace SlotGate.Toml

open SlotGate.Text (Rest Remaining)

/-- What remains behind the end of a line: only blanks and a comment may stand before it. -/
def lineEnd (ts : List Token) : Option (Remaining ts) :=
  let r := skipBlanks ts
  match h : r.1 with
  | [] => some ⟨[], Nat.zero_le _⟩
  | .newline :: s => some ⟨s, by have := r.2; rw [h] at this; exact Nat.le_of_succ_le this⟩
  | .comment :: .newline :: s =>
    some ⟨s, by have := r.2; rw [h] at this; simp only [List.length_cons] at this; omega⟩
  | [.comment] => some ⟨[], Nat.zero_le _⟩
  | _ => none

inductive Statement where
  | header (path : List String) (key : String)
  | elementHeader (path : List String) (key : String)
  | entry (k : Key) (v : Literal)

/-- The key of a header up to its closing brackets. -/
def headerKey (closing : List Token) (ts : List Token) : Option (Key × Rest ts) :=
  match key (skipBlanks ts).1 with
  | none => none
  | some (k, r) =>
    let s := skipBlanks r.1
    if s.1.take closing.length = closing then
      some (k, ⟨s.1.drop closing.length, by
        have h1 := r.2
        have h2 := s.2
        have h3 := (skipBlanks ts).2
        simp only [List.length_drop]
        omega⟩)
    else none

/-- One statement, up to the end of its line. -/
def statement (ts : List Token) : Option (Statement × Rest ts) :=
  match ts with
  | .openBracket :: .openBracket :: r =>
    match headerKey [.closeBracket, .closeBracket] r with
    | none => none
    | some (k, s) =>
      (lineEnd s.1).map fun u =>
        (.elementHeader k.path k.last,
          ⟨u.1, by have := u.2; have := s.2; simp only [List.length_cons]; omega⟩)
  | .openBracket :: r =>
    match headerKey [.closeBracket] r with
    | none => none
    | some (k, s) =>
      (lineEnd s.1).map fun u =>
        (.header k.path k.last,
          ⟨u.1, by have := u.2; have := s.2; simp only [List.length_cons]; omega⟩)
  | ts =>
    match key ts with
    | none => none
    | some (k, r) =>
      match mark isBlankToken .equals r.1 with
      | none => none
      | some s =>
        match value nestingLimit s.1 with
        | none => none
        | some (v, u) =>
          (lineEnd u.1).map fun w =>
            (.entry k v,
              ⟨w.1, by have := w.2; have := u.2; have := s.2; have := r.2; omega⟩)

/-- All statements of a document. -/
def statements (ts : List Token) : Option (List Statement) :=
  match skipFiller ts with
  | ⟨[], _⟩ => some []
  | ⟨t :: r, h⟩ =>
    match statement (t :: r) with
    | none => none
    | some (s, u) =>
      have _hu : u.1.length < ts.length := Nat.lt_of_lt_of_le u.2 h
      (statements u.1).map (s :: ·)
termination_by ts.length
decreasing_by exact _hu

/-- A document that was read up to some line: the open table and everything so far. -/
structure Reading where
  header : List String
  entries : Entries

namespace Reading

def add (r : Reading) : Statement → Option Reading
  | .header path key =>
    (Entries.openTable path key r.entries).map fun es => ⟨path ++ [key], es⟩
  | .elementHeader path key =>
    (Entries.openElement path key r.entries).map fun es => ⟨path ++ [key], es⟩
  | .entry k v =>
    (Entries.within false (Entries.addValue k.path k.last v) r.header .opened r.entries).map
      fun es => ⟨r.header, es⟩

end Reading

/-- A mark of the byte order in front of a text is not part of it. -/
def dropByteOrderMark : List Char → List Char
  | c :: r => if c = '\ufeff' then r else c :: r
  | [] => []

/-- The table that a text describes, as it is written. -/
def readTable? (text : String) : Option (Named Literal) := do
  let ts ← tokens? (dropByteOrderMark text.toList)
  let r ← (← statements ts).foldlM Reading.add ⟨[], []⟩
  some (finished r.entries)

/-- What a table of items takes: integers of 64 bits with a sign. -/
def Intake.ofItems : Intake :=
  let width : Value.IntegerKind := ⟨true, 64⟩
  ⟨width.least, width.greatest, true⟩

/-- The table of items that a text describes. Only a table inside it can stand for a date-time. -/
def Table.read? (text : String) : Option Table := (readTable? text).bind Intake.ofItems.table?

end SlotGate.Toml
