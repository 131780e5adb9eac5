import SlotGate.Run.Operation

/-!
# The history of a run

Everything that happens to a gate, in order: operations begin and finish, critical sections change
the state, events are emitted, the delegate is called and returns. The log that a user of the gate
can follow is the visible part of it. The history holds more than the log, so that a statement can
speak of what is not logged.
-/
namespace SlotGate

/-- Who asked for an operation: the program that owns the gate, a script of the delegate, or a
reaction of the subscriber. -/
inductive Caller where
  | top
  | script
  | subscriber
  deriving DecidableEq, Repr

/-- An operation under way. Operations are numbered in the order in which they begin. -/
structure Activity where
  id : Nat
  caller : Caller
  deriving DecidableEq, Repr

/-- What a critical section did to the state. -/
inductive Change (σ : Signature) where
  /-- The gate was found disabled and nothing was done. -/
  | refused
  /-- The stored form of `value` was put into a slot. -/
  | stored (i : Fin σ.arity) (value : (σ.type i).Carrier)
  | slotCleared (i : Fin σ.arity)
  /-- All slots were emptied, `automatic` when no one asked for it but a one-shot gate that fires. -/
  | cleared (automatic : Bool)
  /-- The slots were copied in order to fire. -/
  | copied
  | enabledSet (on : Bool)
  | debugSet (on : Bool)
  /-- The state was looked at and left alone. -/
  | looked

inductive Moment (σ : Signature) where
  | began (a : Activity) (op : Operation σ)
  /-- A critical section of an operation, and the state that it leaves. -/
  | changed (a : Activity) (c : Change σ) (after : State σ)
  /-- An event was emitted, and the subscriber heard it or not. -/
  | emitted (e : Event σ) (heard : Bool) (state : State σ)
  /-- The delegate was called by an operation. -/
  | called (a : Activity) (args : σ.Arguments)
  | returned (a : Activity)
  | finished (a : Activity) (answer : Answer σ) (state : State σ)
  | panicked

/-- The moments of a run, the latest first. -/
abbrev History (σ : Signature) : Type := List (Moment σ)

/-- What a user can follow. -/
inductive Entry (σ : Signature) where
  | event (e : Event σ) (state : State σ)
  | call (args : σ.Arguments)
  /-- An operation of a script of the delegate was answered. -/
  | step (answer : Answer σ)
  | returned
  /-- An operation of a reaction of the subscriber was answered. -/
  | subscriber (answer : Answer σ)

namespace Moment

variable {σ : Signature}

def entry? : Moment σ → Option (Entry σ)
  | emitted e true s => some (.event e s)
  | called _ args => some (.call args)
  | returned _ => some .returned
  | finished ⟨_, .script⟩ answer _ => some (.step answer)
  | finished ⟨_, .subscriber⟩ answer _ => some (.subscriber answer)
  | _ => none

end Moment

namespace History

variable {σ : Signature}

/-- The visible part of a history, the earliest entry first. -/
def log (h : History σ) : List (Entry σ) := h.reverse.filterMap Moment.entry?

end History

end SlotGate
