import SlotGate.Toml.DateTime

/-!
# Literals

The values of a document as they are written, with numbers of any size, and the items that they
stand for. What takes items sets bounds to its integers; no item is a number past the largest
floating-point number. A table can also stand for a date-time, by its first key.
-/
namespace SlotGate.Toml

open SlotGate.Decimal (binary64)

inductive Literal where
  | text (s : String)
  | integer (n : Int)
  /-- A number past the largest finite one has no bits. -/
  | float (bits : Option (Value.FloatBits binary64))
  | boolean (b : Bool)
  | dateTime (d : DateTime)
  | array (items : List Literal)
  | table (entries : List (String × Literal))

/-- The first key of a table that stands for the date-time under that key. -/
def dateTimeKey : String := "$__toml_private_datetime"

/-- The date-time that a text writes. -/
def Literal.writtenDateTime? : Literal → Option DateTime
  | .text s => DateTime.read? s.toList
  | _ => none

/-- What something takes of the literals of a document. -/
structure Intake where
  /-- The least and the greatest of its integers. -/
  least : Int
  greatest : Int
  /-- Whether a table can stand for a date-time. -/
  takesDateTimeTables : Bool

namespace Intake

mutual

/-- The item that a literal stands for. In a table that stands for a date-time, nothing behind the
first entry is looked at. -/
def item? (i : Intake) : Literal → Option Item
  | .text s => some (.text s)
  | .integer n => if i.least ≤ n && n ≤ i.greatest then some (.integer n) else none
  | .float bits => bits.map .float
  | .boolean b => some (.boolean b)
  | .dateTime d => some (.dateTime d)
  | .array ls => (items? i ls).map .array
  | .table [] => some (.table [])
  | .table ((key, l) :: rest) =>
    if i.takesDateTimeTables && key = dateTimeKey then l.writtenDateTime?.map .dateTime
    else do return .table ((key, ← item? i l) :: (← table? i rest))

def items? (i : Intake) : List Literal → Option (List Item)
  | [] => some []
  | l :: rest => do return (← item? i l) :: (← items? i rest)

/-- The table of all entries. -/
def table? (i : Intake) : List (String × Literal) → Option (List (String × Item))
  | [] => some []
  | (key, l) :: rest => do return (key, ← item? i l) :: (← table? i rest)

end

end Intake

end SlotGate.Toml
