import SlotGate.Named
import SlotGate.Value.SlotType

/-!
# Items of a document

The values that a configuration document holds. A table is its list of entries in ascending order of
keys by code point; the functions here keep that order, the type does not demand it.
-/
namespace SlotGate.Toml

open SlotGate.Decimal (binary64)

structure Date where
  year : Nat
  month : Nat
  day : Nat
  deriving DecidableEq, Repr

/-- A time of day to the minute, to the second, or to a fraction of it in nanoseconds. -/
structure Time where
  hour : Nat
  minute : Nat
  second : Option (Nat × Option Nat)
  deriving DecidableEq, Repr

/-- The distance of a local time from the reference time. -/
inductive Offset where
  | zero
  | minutes (n : Int)
  deriving DecidableEq, Repr

inductive DateTime where
  | date (d : Date)
  | time (t : Time)
  | dateTime (d : Date) (t : Time) (offset : Option Offset)
  deriving DecidableEq, Repr

inductive Item where
  | text (s : String)
  | integer (n : Int)
  | float (bits : Value.FloatBits binary64)
  | boolean (b : Bool)
  | dateTime (d : DateTime)
  | array (items : List Item)
  | table (entries : List (String × Item))

/-- The entries of a table. -/
abbrev Table : Type := Named Item

mutual

/-- Whether two items are the same. -/
def Item.same : Item → Item → Bool
  | .text s, .text s' => s = s'
  | .integer n, .integer n' => n = n'
  | .float bits, .float bits' => bits = bits'
  | .boolean b, .boolean b' => b = b'
  | .dateTime d, .dateTime d' => d = d'
  | .array vs, .array ws => sameItems vs ws
  | .table t, .table t' => sameEntries t t'
  | _, _ => false

def sameItems : List Item → List Item → Bool
  | [], [] => true
  | v :: vs, w :: ws => v.same w && sameItems vs ws
  | _, _ => false

def sameEntries : List (String × Item) → List (String × Item) → Bool
  | [], [] => true
  | (key, v) :: t, (key', v') :: t' => key = key' && v.same v' && sameEntries t t'
  | _, _ => false

end

mutual

theorem Item.same_iff (v w : Item) : v.same w = true ↔ v = w := by
  cases v with
  | array vs => cases w <;> simp [Item.same, sameItems_iff vs]
  | table t => cases w <;> simp [Item.same, sameEntries_iff t]
  | _ => cases w <;> simp [Item.same]

theorem sameItems_iff (vs ws : List Item) : sameItems vs ws = true ↔ vs = ws := by
  cases vs with
  | nil => cases ws <;> simp [sameItems]
  | cons v vs => cases ws <;> simp [sameItems, Item.same_iff v, sameItems_iff vs]

theorem sameEntries_iff (t t' : List (String × Item)) : sameEntries t t' = true ↔ t = t' := by
  cases t with
  | nil => cases t' <;> simp [sameEntries]
  | cons e t =>
    obtain ⟨key, v⟩ := e
    cases t' <;> simp [sameEntries, Item.same_iff v, sameEntries_iff t, Prod.ext_iff, and_assoc]

end

instance : DecidableEq Item := fun v w => decidable_of_iff _ (Item.same_iff v w)

end SlotGate.Toml
