import SlotGate.Value.SlotType

/-!
# Three user types

A record, an enumeration and a wrapped number, as a user of the library brings them. The last one
declares null values of its own, many of them, and its default is one of these.
-/
namespace SlotGate.Value

abbrev int32 : IntegerKind := ⟨true, 32⟩

abbrev Int32Value : Type := (SlotType.integer int32).Carrier

structure Point where
  x : Int32Value
  y : Int32Value

inductive Mode where
  | first
  | second
  deriving DecidableEq, Repr

/-- A number of which every negative value counts as null. -/
structure Sentinel where
  level : Int32Value

/-- The user types by name. -/
inductive UserType where
  | point
  | mode
  | sentinel
  deriving DecidableEq, Repr

namespace Point

def slotType : SlotType where
  Carrier := Point
  default := ⟨(SlotType.integer int32).default, (SlotType.integer int32).default⟩
  isNull _ := false
  describe p := Text.fieldsLine "Point" [("x", toString p.x.val), ("y", toString p.y.val)] false
  compare a b := (Ord.compare a.x.val b.x.val).then (Ord.compare a.y.val b.y.val)

end Point

namespace Mode

def slotType : SlotType where
  Carrier := Mode
  default := first
  isNull _ := false
  describe
    | first => "First"
    | second => "Second"
  compare
    | first, second => .lt
    | second, first => .gt
    | _, _ => .eq

end Mode

namespace Sentinel

def slotType : SlotType where
  Carrier := Sentinel
  default := ⟨⟨-1, by decide⟩⟩
  isNull s := s.level.val < 0
  describe s := "Sentinel(" ++ toString s.level.val ++ ")"
  compare a b := Ord.compare a.level.val b.level.val

end Sentinel

namespace UserType

def slotType : UserType → SlotType
  | point => Point.slotType
  | mode => Mode.slotType
  | sentinel => Sentinel.slotType

end UserType

end SlotGate.Value
