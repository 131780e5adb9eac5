import SlotGate.Gate.Basic
import SlotGate.Text.Listing
import SlotGate.Text.Quoted

/-!
# Descriptions of gates and slots

The texts that show a gate, or one slot of it, to a person: on one line, or with a line for each
part. The state of the gate is not shown; the open end of the text says so.
-/
namespace SlotGate

open SlotGate.Text (quoted bracketed bracketedLines fieldsLine fieldsLines)

def describeFlag (b : Bool) : String := if b then "true" else "false"

def NullPolicy.describe : NullPolicy → String
  | suppress => "Suppress"
  | fire => "Fire"

namespace Gate

variable {σ : Signature} {δ : Type}

def describedName : String := "ArgumentGate"

/-- The fields of the description, given how the list of slot names is written. -/
def describedFields (g : Gate σ δ) (listed : List String → String) : List (String × String) :=
  [("name", quoted g.name),
   ("slots", listed (g.slotNames.toList.map quoted)),
   ("one_shot", describeFlag g.settings.oneShot),
   ("thread_safe", describeFlag g.lockMode.isThreadSafe),
   ("null_policy", g.settings.nullPolicy.describe),
   ("bound", describeFlag g.isBound)]

def describe (g : Gate σ δ) : String :=
  fieldsLine describedName (g.describedFields bracketed) true

def describeLines (g : Gate σ δ) : String :=
  fieldsLines describedName (g.describedFields bracketedLines) true

def describedSlotFields (g : Gate σ δ) (i : Fin σ.arity) : List (String × String) :=
  [("gate", quoted g.name), ("slot", quoted (g.slotName i)), ("index", toString i.val)]

def describeSlot (g : Gate σ δ) (i : Fin σ.arity) : String :=
  fieldsLine "SlotHandle" (g.describedSlotFields i) false

def describeSlotLines (g : Gate σ δ) (i : Fin σ.arity) : String :=
  fieldsLines "SlotHandle" (g.describedSlotFields i) false

end Gate

end SlotGate
