import SlotGate.Value.TypeExpr

/-!
# Slots

A slot holds a value of its type and whether that value was supplied. A signature lists the types of
the slots of a gate, at least one. That an unset slot holds its default is kept by what gates do to
their slots and is not part of the type.
-/
namespace SlotGate

open SlotGate.Value (SlotType TypeExpr)

structure Slot (t : SlotType) where
  value : t.Carrier
  isSet : Bool

namespace Slot

variable {t : SlotType}

def vacant : Slot t := ⟨t.default, false⟩

def filled (v : t.Carrier) : Slot t := ⟨v, true⟩

def describe (s : Slot t) : String :=
  Text.fieldsLine "Slot"
    [("value", t.describe s.value), ("is_set", if s.isSet then "true" else "false")] false

end Slot

/-- The parameter types of a delegate, in order. -/
structure Signature where
  arity : Nat
  arity_pos : 0 < arity
  type : Fin arity → SlotType

namespace Signature

/-- The signature of one or more type expressions. -/
def ofExprs {ι : Type} (users : ι → SlotType) (e : TypeExpr ι) (es : List (TypeExpr ι)) :
    Signature where
  arity := (e :: es).length
  arity_pos := Nat.succ_pos _
  type i := ((e :: es).get i).slotType users

/-- The positions of a signature, in order. -/
def positions (σ : Signature) : List (Fin σ.arity) := List.finRange σ.arity

/-- One value for each parameter. -/
def Arguments (σ : Signature) : Type := (i : Fin σ.arity) → (σ.type i).Carrier

end Signature

/-- One slot for each parameter. -/
def Slots (σ : Signature) : Type := (i : Fin σ.arity) → Slot (σ.type i)

namespace Slots

variable {σ : Signature}

def vacant : Slots σ := fun _ => .vacant

def put (s : Slots σ) (i : Fin σ.arity) (x : Slot (σ.type i)) : Slots σ :=
  fun j => if h : j = i then h ▸ x else s j

@[simp] theorem put_same (s : Slots σ) (i : Fin σ.arity) (x : Slot (σ.type i)) :
    s.put i x i = x := dif_pos rfl

theorem put_other {s : Slots σ} {i j : Fin σ.arity} (x : Slot (σ.type i)) (h : j ≠ i) :
    s.put i x j = s j := dif_neg h

def allSet (s : Slots σ) : Bool := σ.positions.all fun i => (s i).isSet

theorem allSet_eq_true_iff (s : Slots σ) : s.allSet = true ↔ ∀ i, (s i).isSet = true := by
  simp [allSet, Signature.positions]

theorem allSet_vacant : (vacant : Slots σ).allSet = false := by
  rw [Bool.eq_false_iff]
  intro h
  have h0 := (allSet_eq_true_iff _).1 h ⟨0, σ.arity_pos⟩
  cases h0

theorem allSet_put_vacant (s : Slots σ) (i : Fin σ.arity) : (s.put i .vacant).allSet = false := by
  rw [Bool.eq_false_iff]
  intro h
  have hi := (allSet_eq_true_iff _).1 h i
  rw [put_same] at hi
  cases hi

/-- The set flag at an index; beyond the last slot there is none, so it is off. -/
def isSetAt (s : Slots σ) (index : Nat) : Bool :=
  if h : index < σ.arity then (s ⟨index, h⟩).isSet else false

def arguments (s : Slots σ) : σ.Arguments := fun i => (s i).value

end Slots

end SlotGate
