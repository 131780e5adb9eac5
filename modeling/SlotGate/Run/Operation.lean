import SlotGate.Gate.Event

/-!
# Operations on a gate

What can be asked of a gate, what it answers, and what foreign code asks of it in turn: a delegate
follows one script for each of its calls, and a subscriber reacts to an event at most once for each
reaction it was given.
-/
namespace SlotGate

/-- A question that changes nothing. -/
inductive Query (σ : Signature) where
  | value (i : Fin σ.arity)
  | isSet (i : Fin σ.arity)
  | slotInfo (i : Fin σ.arity)
  | indexOf (name : String)
  | gateInfo
  | pending
  | allSet
  | enabled
  | debug
  | state

inductive Operation (σ : Signature) where
  /-- Store a value and attempt to fire. -/
  | set (i : Fin σ.arity) (value : (σ.type i).Carrier)
  /-- Store a value. -/
  | assign (i : Fin σ.arity) (value : (σ.type i).Carrier)
  | clearSlot (i : Fin σ.arity)
  | clear
  | fire
  | setEnabled (on : Bool)
  | setDebug (on : Bool)
  | read (q : Query σ)

structure SlotInfo where
  name : String
  index : Nat
  line : String
  lines : String

structure GateInfo where
  name : String
  slotNames : List String
  oneShot : Bool
  threadSafe : Bool
  nullPolicy : NullPolicy
  bound : Bool
  line : String
  lines : String
  deriving DecidableEq

inductive Answer (σ : Signature) where
  | done
  | flag (b : Bool)
  | value (i : Fin σ.arity) (v : (σ.type i).Carrier)
  | index (n : Option Nat)
  | names (ns : List String)
  | slot (info : SlotInfo)
  | gate (info : GateInfo)
  | state (s : State σ)

/-- A step of a script. Only a delegate can end in a panic. -/
inductive Command (σ : Signature) where
  | perform (op : Operation σ)
  | panic

abbrev Script (σ : Signature) : Type := List (Command σ)

/-- A delegate that follows the first script on its first call, and so on; beyond the last script it
does nothing. -/
structure Delegate (σ : Signature) where
  scripts : List (Script σ)

/-- What a subscriber does on the first event with this message. -/
structure Reaction (σ : Signature) where
  message : String
  operations : List (Operation σ)

namespace Gate

variable {σ : Signature} {δ : Type}

def slotInfo (g : Gate σ δ) (i : Fin σ.arity) : SlotInfo where
  name := g.slotName i
  index := i
  line := g.describeSlot i
  lines := g.describeSlotLines i

def info (g : Gate σ δ) : GateInfo where
  name := g.name
  slotNames := g.slotNames.toList
  oneShot := g.settings.oneShot
  threadSafe := g.lockMode.isThreadSafe
  nullPolicy := g.settings.nullPolicy
  bound := g.isBound
  line := g.describe
  lines := g.describeLines

end Gate

def Query.answer {σ : Signature} {δ : Type} (g : Gate σ δ) (s : State σ) : Query σ → Answer σ
  | value i => .value i (s.slots i).value
  | isSet i => .flag (s.slots i).isSet
  | slotInfo i => .slot (g.slotInfo i)
  | indexOf name => .index (g.indexOf name)
  | gateInfo => .gate g.info
  | pending => .names (g.pending s.slots)
  | allSet => .flag s.slots.allSet
  | enabled => .flag s.enabled
  | debug => .flag s.debug
  | state => .state s

end SlotGate
