/-!
# Settings of a gate

What a user chooses about a gate before it is built, apart from its names and its delegate.
-/
namespace SlotGate

/-- What a null value does when it is set. -/
inductive NullPolicy where
  /-- The slot takes its default and counts as set, but this call does not fire the gate. -/
  | suppress
  /-- A null value is treated as any other. -/
  | fire
  deriving DecidableEq, Repr

structure Settings where
  /-- Empty all slots when the gate fires, before the delegate runs. -/
  oneShot : Bool := false
  enabled : Bool := true
  debug : Bool := false
  nullPolicy : NullPolicy := .suppress
  deriving DecidableEq, Repr

/-- How the state of a gate is guarded: so that threads can share it, or for one owner only. -/
inductive LockMode where
  | threadSafe
  | unsynchronized
  deriving DecidableEq, Repr

namespace LockMode

def isThreadSafe : LockMode → Bool
  | threadSafe => true
  | unsynchronized => false

end LockMode

end SlotGate
