import SlotGate.Gate.Description
import SlotGate.Trace

/-!
# Events of a gate

What a gate reports about itself, as data; the record that a subscriber is given follows from the
event and the gate. Whether an event is emitted at all is decided where the operations are.
-/
namespace SlotGate

open SlotGate.Text (quoted bracketed)

inductive Event (σ : Signature) where
  /-- The gate was built. -/
  | bound
  /-- A slot was set by a caller who passed `value`; for a null one the slot holds the default. -/
  | slotSet (i : Fin σ.arity) (value : (σ.type i).Carrier)
  /-- A slot was given `value` without an attempt to fire. -/
  | slotAssigned (i : Fin σ.arity) (value : (σ.type i).Carrier)
  | slotCleared (i : Fin σ.arity)
  | fired
  | firePending (names : List String)
  | fireUnbound
  | cleared
  | enabledChanged (on : Bool)
  | debugChanged (on : Bool)

namespace Event

variable {σ : Signature}

def message : Event σ → String
  | bound => "gate.bind"
  | slotSet i value => if (σ.type i).isNull value then "slot.set.null" else "slot.set"
  | slotAssigned .. => "slot.assign"
  | slotCleared _ => "slot.clear"
  | fired => "gate.fire"
  | firePending _ => "gate.fire.pending"
  | fireUnbound => "gate.fire.unbound"
  | cleared => "gate.clear"
  | enabledChanged _ => "gate.set_enabled"
  | debugChanged _ => "gate.set_debug"

def target : Event σ → String
  | bound => "quorum_gate::builder"
  | slotSet .. | slotAssigned .. | slotCleared _ => "quorum_gate::gate::handle"
  | _ => "quorum_gate::gate"

/-- Only the building of a gate is reported at the finer level. -/
def level : Event σ → TraceLevel
  | bound => .trace
  | _ => .debug

/-- The fields beside the name of the gate. -/
def ownFields {δ : Type} (g : Gate σ δ) : Event σ → List (String × FieldValue)
  | bound =>
    [("slots", .text (bracketed (g.slotNames.toList.map quoted))),
     ("thread_safe", .flag g.lockMode.isThreadSafe)]
  | slotSet i value | slotAssigned i value =>
    [("slot", .text (g.slotName i)), ("value", .text ((σ.type i).describe value))]
  | slotCleared i => [("slot", .text (g.slotName i))]
  | fired => [("one_shot", .flag g.settings.oneShot)]
  | firePending names => [("pending", .text (bracketed (names.map quoted)))]
  | fireUnbound | cleared => []
  | enabledChanged on => [("enabled", .flag on)]
  | debugChanged on => [("debug", .flag on)]

def record {δ : Type} (g : Gate σ δ) (e : Event σ) : TraceRecord where
  message := e.message
  level := e.level
  target := e.target
  fields := ("gate", .text g.name) :: e.ownFields g

end Event

end SlotGate
