import SlotGate.Settings

/-!
# Profiles

A profile is what a configuration says about a kind of gate: the settings to build it with, and the
lock mode that its gates have to have.
-/
namespace SlotGate

structure Profile where
  threadSafe : Bool := false
  settings : Settings := {}
  deriving DecidableEq, Repr

/-- The keys that mean something in a profile. -/
inductive ProfileKey where
  | threadSafe
  | oneShot
  | enabled
  | debug
  | nullPolicy
  deriving DecidableEq, Repr

namespace ProfileKey

def text : ProfileKey → String
  | threadSafe => "thread-safe"
  | oneShot => "one-shot"
  | enabled => "enabled"
  | debug => "debug"
  | nullPolicy => "null-policy"

/-- All keys, in the order in which a profile is written. -/
def all : List ProfileKey := [threadSafe, oneShot, enabled, debug, nullPolicy]

/-- Whether a key of a profile has a meaning. -/
def isKnown (key : String) : Bool := (all.map text).contains key

end ProfileKey

namespace NullPolicy

def text : NullPolicy → String
  | suppress => "suppress"
  | fire => "fire"

def ofText? (s : String) : Option NullPolicy :=
  if s = suppress.text then some suppress else if s = fire.text then some fire else none

end NullPolicy

/-- How a profile and a gate disagree about the lock mode. -/
structure LockModeMismatch where
  declared : Bool
  actual : Bool
  deriving DecidableEq, Repr

namespace Profile

def checkLockMode (p : Profile) (mode : LockMode) : Except LockModeMismatch Unit :=
  if p.threadSafe = mode.isThreadSafe then .ok () else .error ⟨p.threadSafe, mode.isThreadSafe⟩

end Profile

end SlotGate
