import SlotGate.Decimal.Style
import SlotGate.Text.Listing
import SlotGate.Text.Quoted
import SlotGate.Value.OrderedMap

/-!
# Slot types

What a gate has to know of the type of a slot: the value that an unset slot holds, which values are
null, and how a value is written. The types that come with the library are built from these
combinators; any other type takes part by giving the same four things.

Only an absent option is null. Pointers are null when what they point to is; options, sequences,
sets, maps and arrays never ask the values inside them.
-/
namespace SlotGate.Value

open SlotGate.Decimal (BinaryFormat)
open SlotGate.Text (quoted quotedChar bracketed braced)

structure SlotType where
  Carrier : Type
  /-- The value of a slot that is not set. -/
  default : Carrier
  isNull : Carrier → Bool
  describe : Carrier → String
  /-- The order in which sets and maps hold values of the type. -/
  compare : Carrier → Carrier → Ordering

/-- The integers of a width, with a sign or without. -/
structure IntegerKind where
  signed : Bool
  bits : Nat
  deriving DecidableEq, Repr

namespace IntegerKind

def least (k : IntegerKind) : Int := if k.signed then -Nat.pow 2 (k.bits - 1) else 0

def greatest (k : IntegerKind) : Int :=
  if k.signed then Nat.pow 2 (k.bits - 1) - 1 else Nat.pow 2 k.bits - 1

def Holds (k : IntegerKind) (n : Int) : Prop := k.least ≤ n ∧ n ≤ k.greatest

instance (k : IntegerKind) (n : Int) : Decidable (k.Holds n) :=
  inferInstanceAs (Decidable (_ ∧ _))

theorem holds_zero (k : IntegerKind) : k.Holds 0 := by
  have h1 : 0 < Nat.pow 2 (k.bits - 1) := Nat.two_pow_pos _
  have h2 : 0 < Nat.pow 2 k.bits := Nat.two_pow_pos _
  unfold Holds least greatest
  split <;> omega

end IntegerKind

/-- Numbers below 10⁻⁴ and from 10¹⁶ on are written with an exponent. -/
def floatStyle : Decimal.Style := ⟨fun magnitude => -4 ≤ magnitude && magnitude ≤ 15⟩

/-- The bits of a number in a binary format. -/
abbrev FloatBits (f : BinaryFormat) : Type := BitVec (1 + f.exponentBits + f.fractionBits)

/-- The order of two lists by their first difference, a proper beginning first. -/
def compareLists {α : Type} (compare : α → α → Ordering) : List α → List α → Ordering
  | [], [] => .eq
  | [], _ :: _ => .lt
  | _ :: _, [] => .gt
  | a :: as, b :: bs => (compare a b).then (compareLists compare as bs)

namespace SlotType

def unit : SlotType where
  Carrier := Unit
  default := ()
  isNull _ := false
  describe _ := "()"
  compare _ _ := .eq

def bool : SlotType where
  Carrier := Bool
  default := false
  isNull _ := false
  describe b := if b then "true" else "false"
  compare a b := Ord.compare a b

def char : SlotType where
  Carrier := Char
  default := '\x00'
  isNull _ := false
  describe := quotedChar
  compare a b := Ord.compare a.toNat b.toNat

def integer (k : IntegerKind) : SlotType where
  Carrier := { n : Int // k.Holds n }
  default := ⟨0, k.holds_zero⟩
  isNull _ := false
  describe n := toString n.val
  compare a b := Ord.compare a.val b.val

/-- Floating-point numbers are told apart by their bits; sets and maps order them so. -/
def float (f : BinaryFormat) : SlotType where
  Carrier := FloatBits f
  default := 0
  isNull _ := false
  describe x := floatStyle.write (f.decode x.toNat)
  compare a b := Ord.compare a.toNat b.toNat

def text : SlotType where
  Carrier := String
  default := ""
  isNull _ := false
  describe := quoted
  compare a b := compareLists (fun c d : Char => Ord.compare c.toNat d.toNat) a.toList b.toList

def option (t : SlotType) : SlotType where
  Carrier := Option t.Carrier
  default := none
  isNull v := v.isNone
  describe
    | none => "None"
    | some v => "Some(" ++ t.describe v ++ ")"
  compare
    | none, none => .eq
    | none, some _ => .lt
    | some _, none => .gt
    | some a, some b => t.compare a b

def sequence (t : SlotType) : SlotType where
  Carrier := List t.Carrier
  default := []
  isNull _ := false
  describe vs := bracketed (vs.map t.describe)
  compare := compareLists t.compare

def set (t : SlotType) : SlotType where
  Carrier := OrderedMap t.Carrier Unit t.compare
  default := .empty
  isNull _ := false
  describe s := braced (s.keys.map t.describe)
  compare a b := compareLists t.compare a.keys b.keys

def map (key value : SlotType) : SlotType where
  Carrier := OrderedMap key.Carrier value.Carrier key.compare
  default := .empty
  isNull _ := false
  describe m := braced (m.entries.map fun e => key.describe e.1 ++ ": " ++ value.describe e.2)
  compare a b :=
    compareLists (fun d e => (key.compare d.1 e.1).then (value.compare d.2 e.2)) a.entries b.entries

/-- Arrays are not null, not even when all their elements are. -/
def array (n : Nat) (t : SlotType) : SlotType where
  Carrier := Vector t.Carrier n
  default := Vector.replicate n t.default
  isNull _ := false
  describe vs := bracketed (vs.toList.map t.describe)
  compare a b := compareLists t.compare a.toList b.toList

/-- A pointer stands for what it points to. -/
def pointer (t : SlotType) : SlotType where
  Carrier := t.Carrier
  default := t.default
  isNull := t.isNull
  describe := t.describe
  compare := t.compare

/-- What is stored for a value: the default for a null one, else the value. -/
def stored (t : SlotType) (v : t.Carrier) : t.Carrier := if t.isNull v then t.default else v

theorem stored_of_isNull {t : SlotType} {v : t.Carrier} (h : t.isNull v = true) :
    t.stored v = t.default := by simp [stored, h]

theorem stored_of_not_isNull {t : SlotType} {v : t.Carrier} (h : t.isNull v = false) :
    t.stored v = v := by simp [stored, h]

end SlotType

end SlotGate.Value
