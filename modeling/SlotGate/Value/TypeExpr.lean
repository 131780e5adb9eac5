import SlotGate.Value.SlotType

/-!
# Type expressions

The syntax of slot types, to any depth, over a set of names for the types that a user brings. A type
expression is read as a slot type once each of those names has one.
-/
namespace SlotGate.Value

open SlotGate.Decimal (BinaryFormat)

inductive TypeExpr (ι : Type) where
  | unit
  | bool
  | char
  | integer (k : IntegerKind)
  | float (f : BinaryFormat)
  | text
  | option (t : TypeExpr ι)
  | sequence (t : TypeExpr ι)
  | set (t : TypeExpr ι)
  | map (key value : TypeExpr ι)
  | array (n : Nat) (t : TypeExpr ι)
  | pointer (t : TypeExpr ι)
  | user (name : ι)
  deriving DecidableEq, Repr

namespace TypeExpr

def slotType {ι : Type} (users : ι → SlotType) : TypeExpr ι → SlotType
  | unit => .unit
  | bool => .bool
  | char => .char
  | integer k => .integer k
  | float f => .float f
  | text => .text
  | option t => .option (t.slotType users)
  | sequence t => .sequence (t.slotType users)
  | set t => .set (t.slotType users)
  | map key value => .map (key.slotType users) (value.slotType users)
  | array n t => .array n (t.slotType users)
  | pointer t => .pointer (t.slotType users)
  | user name => users name

end TypeExpr

end SlotGate.Value
