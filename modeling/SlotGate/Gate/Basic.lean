import SlotGate.Settings
import SlotGate.Slot
import SlotGate.Text.Identifier

/-!
# Gates

A gate is what is fixed when it is built; its state is what its operations change. A delegate of any
kind can be bound to it, or none. The names of its slots are identifiers and tell the slots apart.
-/
namespace SlotGate

open SlotGate.Text (isIdentifier)

structure Gate (σ : Signature) (δ : Type) where
  name : String
  slotNames : Vector String σ.arity
  settings : Settings
  lockMode : LockMode
  delegate : Option δ
  isIdentifier_of_mem : ∀ n ∈ slotNames.toList, isIdentifier n = true
  nodup_slotNames : slotNames.toList.Nodup

structure State (σ : Signature) where
  slots : Slots σ
  enabled : Bool
  debug : Bool

namespace Gate

variable {σ : Signature} {δ : Type}

/-- A fresh gate has vacant slots and the flags that were chosen for it. -/
def initialState (g : Gate σ δ) : State σ where
  slots := .vacant
  enabled := g.settings.enabled
  debug := g.settings.debug

def isBound (g : Gate σ δ) : Bool := g.delegate.isSome

def slotName (g : Gate σ δ) (i : Fin σ.arity) : String := g.slotNames[i]

/-- The position of the first slot of this name. -/
def indexOf (g : Gate σ δ) (name : String) : Option Nat :=
  g.slotNames.toList.findIdx? (· == name)

/-- The names of the unset slots, in order. -/
def pending (g : Gate σ δ) (s : Slots σ) : List String :=
  (σ.positions.filter fun i => !(s i).isSet).map g.slotName

end Gate

end SlotGate
