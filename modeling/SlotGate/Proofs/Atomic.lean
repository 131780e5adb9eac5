import Mathlib.Logic.Function.Basic
import SlotGate.Run.Operation
import SlotGate.Run.History

/-!
# A gate of atomic operations

The gate that a user may think of. A slot holds a value or nothing, and each operation is one
transition; what fires is decided and, on a one-shot gate, emptied in it. The call of the delegate
comes after the transition and before the answer, and works off the next script in the same way. There
are no events, no sections and no agenda here.
-/
namespace SlotGate.Atomic

variable {σ : Signature} {δ : Type}

structure Cells (σ : Signature) where
  contents : (i : Fin σ.arity) → Option (σ.type i).Carrier
  enabled : Bool
  debug : Bool

namespace Cells

def value (c : Cells σ) (i : Fin σ.arity) : (σ.type i).Carrier :=
  (c.contents i).getD (σ.type i).default

def complete (c : Cells σ) : Bool := σ.positions.all fun i => (c.contents i).isSome

def put (c : Cells σ) (i : Fin σ.arity) (x : Option (σ.type i).Carrier) : Cells σ :=
  { c with contents := Function.update c.contents i x }

def reset (c : Cells σ) : Cells σ := { c with contents := fun _ => none }

/-- How a gate shows itself with these contents. -/
def view (c : Cells σ) : State σ where
  slots i := ⟨c.value i, (c.contents i).isSome⟩
  enabled := c.enabled
  debug := c.debug

def answer (g : Gate σ δ) (c : Cells σ) : Query σ → Answer σ
  | .value i => .value i (c.value i)
  | .isSet i => .flag (c.contents i).isSome
  | .slotInfo i => .slot (g.slotInfo i)
  | .indexOf name => .index (g.indexOf name)
  | .gateInfo => .gate g.info
  | .pending => .names ((σ.positions.filter fun i => (c.contents i).isNone).map g.slotName)
  | .allSet => .flag c.complete
  | .enabled => .flag c.enabled
  | .debug => .flag c.debug
  | .state => .state c.view

end Cells

/-- What an operation makes of a gate in one step: its contents, the call to be made, the answer to be
given after the call. -/
structure Transition (σ : Signature) where
  after : Cells σ
  call : Option σ.Arguments
  answer : Answer σ

/-- What is kept of a value. -/
def kept (i : Fin σ.arity) (v : (σ.type i).Carrier) : (σ.type i).Carrier :=
  if (σ.type i).isNull v then (σ.type i).default else v

def fire (g : Gate σ δ) (c : Cells σ) : Transition σ :=
  if c.enabled && g.isBound && c.complete then
    ⟨if g.settings.oneShot then c.reset else c, some c.value, .flag true⟩
  else ⟨c, none, .flag false⟩

def transition (g : Gate σ δ) (c : Cells σ) : Operation σ → Transition σ
  | .set i v =>
    if !c.enabled then ⟨c, none, .flag false⟩
    else if (σ.type i).isNull v && g.settings.nullPolicy = .suppress then
      ⟨c.put i (some (kept i v)), none, .flag false⟩
    else fire g (c.put i (some (kept i v)))
  | .assign i v =>
    if c.enabled then ⟨c.put i (some (kept i v)), none, .value i (kept i v)⟩
    else ⟨c, none, .value i v⟩
  | .clearSlot i => ⟨if c.enabled then c.put i none else c, none, .done⟩
  | .clear => ⟨if c.enabled then c.reset else c, none, .done⟩
  | .fire => fire g c
  | .setEnabled on => ⟨{ c with enabled := on }, none, .flag on⟩
  | .setDebug on => ⟨{ c with debug := on }, none, .flag on⟩
  | .read q => ⟨c, none, c.answer g q⟩

/-- What can be told from outside: the calls of the delegate and their ends, and each answer, with who
asked for it and how the gate shows itself then. -/
inductive Deed (σ : Signature) where
  | called (args : σ.Arguments)
  | returned
  | answered (caller : Caller) (answer : Answer σ) (after : State σ)

/-- A gate and the operations that the calls to come will perform on it. -/
structure Machine (σ : Signature) where
  cells : Cells σ
  scripts : List (List (Operation σ))

/-- What was done from a machine on. Scripts are only used up. -/
structure Course (m : Machine σ) where
  deeds : List (Deed σ)
  after : Machine σ
  scripts_le : after.scripts.length ≤ m.scripts.length

mutual

/-- The call that a transition asks for, with all that happens in it. -/
def deliver (g : Gate σ δ) (t : Transition σ) (scripts : List (List (Operation σ))) :
    Course ⟨t.after, scripts⟩ :=
  match t.call, scripts with
  | none, scripts => ⟨[], ⟨t.after, scripts⟩, Nat.le_refl _⟩
  | some args, [] => ⟨[.called args, .returned], ⟨t.after, []⟩, Nat.le_refl _⟩
  | some args, s :: rest =>
    let inner := obey g .script s ⟨t.after, rest⟩
    ⟨.called args :: inner.deeds ++ [.returned], inner.after, Nat.le_succ_of_le inner.scripts_le⟩
termination_by (scripts.length, 0)
decreasing_by exact Prod.Lex.left _ _ (Nat.lt_succ_self _)

/-- Operations that are performed one after the other. -/
def obey (g : Gate σ δ) (caller : Caller) (ops : List (Operation σ)) (m : Machine σ) : Course m :=
  match ops with
  | [] => ⟨[], m, Nat.le_refl _⟩
  | op :: ops =>
    let t := transition g m.cells op
    let call := deliver g t m.scripts
    let later := obey g caller ops call.after
    ⟨call.deeds ++ .answered caller t.answer call.after.cells.view :: later.deeds, later.after,
      Nat.le_trans later.scripts_le call.scripts_le⟩
termination_by (m.scripts.length, ops.length + 1)
decreasing_by
  · simp [Prod.lex_def]
  · have h := call.scripts_le
    simp only [Prod.lex_def, List.length_cons]
    rcases Nat.lt_or_eq_of_le h with h | h
    · exact .inl h
    · exact .inr ⟨h, by omega⟩

end

/-- The operations of a script. -/
def operations (s : Script σ) : List (Operation σ) :=
  s.filterMap fun
    | .perform op => some op
    | .panic => none

/-- A gate as it was built. -/
def fresh (g : Gate σ (Delegate σ)) : Machine σ where
  cells := ⟨fun _ => none, g.settings.enabled, g.settings.debug⟩
  scripts := ((g.delegate.map Delegate.scripts).getD []).map operations

end SlotGate.Atomic
