import SlotGate.Gate.Basic

/-!
# Critical sections

Everything that touches the state of a gate happens in one of these indivisible steps. Each of them
looks at the flags for itself, so a gate that was disabled a moment ago refuses the next step of an
operation that is already under way. Reading is not listed: it changes nothing.
-/
namespace SlotGate

namespace State

variable {σ : Signature}

/-- Puts the stored form of a value into its slot. A disabled gate refuses. -/
def store (s : State σ) (i : Fin σ.arity) (v : (σ.type i).Carrier) : State σ :=
  if s.enabled then { s with slots := s.slots.put i (.filled ((σ.type i).stored v)) } else s

/-- Empties one slot. A disabled gate refuses. -/
def vacate (s : State σ) (i : Fin σ.arity) : State σ :=
  if s.enabled then { s with slots := s.slots.put i .vacant } else s

/-- Empties all slots. A disabled gate refuses. -/
def vacateAll (s : State σ) : State σ :=
  if s.enabled then { s with slots := .vacant } else s

def withEnabled (s : State σ) (on : Bool) : State σ := { s with enabled := on }

def withDebug (s : State σ) (on : Bool) : State σ := { s with debug := on }

@[simp] theorem vacateAll_enabled (s : State σ) : s.vacateAll.enabled = s.enabled := by
  unfold vacateAll; split <;> rfl

end State

end SlotGate
