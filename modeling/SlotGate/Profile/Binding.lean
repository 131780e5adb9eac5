import SlotGate.Profile.Set

/-!
# Gates from profiles

A profile gives a builder its settings and its name. Binding a gate from a profile first looks the
profile up, then checks the lock mode, and then builds; a builder leaves the lock mode to its user.
-/
namespace SlotGate

namespace ProfileSet

variable {σ : Signature} {δ : Type}

/-- A builder with the settings of a profile, under its name. -/
def builder (s : ProfileSet) (name : String) (slotNames : List String) :
    Except ProfileError (Builder δ) := do
  let p ← s.profile name
  return { slotNames, name, settings := p.settings }

/-- The lock mode of a gate that is to be bound from a profile. -/
def checkLockMode (s : ProfileSet) (name : String) (mode : LockMode) :
    Except ProfileError Unit := do
  let p ← s.profile name
  (p.checkLockMode mode).mapError .lockMode

def bind (s : ProfileSet) (name : String) (slotNames : List String) (mode : LockMode) (d : δ) :
    Reported (Except ProfileError (Gate σ δ)) :=
  let checked : Except ProfileError (Builder δ) := do
    s.checkLockMode name mode
    s.builder name slotNames
  match checked with
  | .error e => ⟨.error e, []⟩
  | .ok b =>
    let built := (b.adjust (.delegate d)).build mode
    ⟨built.result.mapError .names, built.records⟩

end ProfileSet

end SlotGate
