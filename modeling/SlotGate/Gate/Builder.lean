import SlotGate.Gate.Event
import SlotGate.Text.Identifier

/-!
# Building a gate

A builder collects the slot names, a label, settings and a delegate, each adjustment overwriting
what it is about. The slot names are checked when the gate is built and not before: one for each
parameter, each an identifier, no two alike. The first fault in order of the names is reported.
-/
namespace SlotGate

open SlotGate.Text (isIdentifier quoted)

inductive BindError where
  | arityMismatch (expected found : Nat)
  | emptyName (index : Nat)
  | notIdentifier (name : String)
  | duplicateName (name : String)
  deriving DecidableEq, Repr

namespace BindError

def message : BindError → String
  | arityMismatch expected found =>
    "expected " ++ toString expected ++ " slot names, found " ++ toString found
  | emptyName index => "slot name at index " ++ toString index ++ " is empty"
  | notIdentifier name => "invalid slot name: " ++ quoted name
  | duplicateName name => "duplicate slot name: " ++ name

end BindError

structure Builder (δ : Type) where
  slotNames : List String
  name : String := "gate"
  settings : Settings := {}
  delegate : Option δ := none

/-- One call on a builder. -/
inductive Adjustment (δ : Type) where
  | name (label : String)
  /-- Replaces all settings at once. -/
  | settings (s : Settings)
  | oneShot (on : Bool)
  | enabled (on : Bool)
  | debug (on : Bool)
  | nullPolicy (p : NullPolicy)
  | delegate (d : δ)

namespace Builder

variable {δ : Type}

def adjust (b : Builder δ) : Adjustment δ → Builder δ
  | .name label => { b with name := label }
  | .settings s => { b with settings := s }
  | .oneShot on => { b with settings := { b.settings with oneShot := on } }
  | .enabled on => { b with settings := { b.settings with enabled := on } }
  | .debug on => { b with settings := { b.settings with debug := on } }
  | .nullPolicy p => { b with settings := { b.settings with nullPolicy := p } }
  | .delegate d => { b with delegate := some d }

def adjustAll (b : Builder δ) (as : List (Adjustment δ)) : Builder δ := as.foldl adjust b

/-- The first fault among names that follow the names `earlier`. -/
def firstFault (earlier : List String) : List String → Option BindError
  | [] => none
  | n :: rest =>
    if n.isEmpty then some (.emptyName earlier.length)
    else if !isIdentifier n then some (.notIdentifier n)
    else if earlier.contains n then some (.duplicateName n)
    else firstFault (earlier ++ [n]) rest

theorem firstFault_eq_none {earlier names : List String} (h : firstFault earlier names = none)
    (he : earlier.Nodup) :
    (∀ n ∈ names, isIdentifier n = true) ∧ (earlier ++ names).Nodup := by
  induction names generalizing earlier with
  | nil => simpa using he
  | cons n rest ih =>
    unfold firstFault at h
    split at h
    · cases h
    · split at h
      · cases h
      · next hi =>
        split at h
        · cases h
        · next hc =>
          have hn : n ∉ earlier := by simpa using hc
          have hnodup : (earlier ++ [n]).Nodup := by
            refine List.nodup_append.2 ⟨he, by simp, fun a ha b hb hab => hn ?_⟩
            rw [← List.mem_singleton.1 hb, ← hab]
            exact ha
          obtain ⟨hall, hr⟩ := ih h hnodup
          refine ⟨fun m hm => ?_, by simpa using hr⟩
          rcases List.mem_cons.1 hm with rfl | hm
          · simpa using hi
          · exact hall m hm

/-- The gate, or the fault of the slot names. A gate that is built is reported once; a fault is
reported to the caller alone. -/
def build {σ : Signature} (b : Builder δ) (mode : LockMode) :
    Reported (Except BindError (Gate σ δ)) :=
  if h : b.slotNames.length = σ.arity then
    match hf : firstFault [] b.slotNames with
    | some fault => ⟨.error fault, []⟩
    | none =>
      let gate : Gate σ δ := {
        name := b.name
        slotNames := ⟨b.slotNames.toArray, by simpa using h⟩
        settings := b.settings
        lockMode := mode
        delegate := b.delegate
        isIdentifier_of_mem := by simpa using (firstFault_eq_none hf List.nodup_nil).1
        nodup_slotNames := by simpa using (firstFault_eq_none hf List.nodup_nil).2 }
      ⟨.ok gate, [(Event.bound : Event σ).record gate]⟩
  else ⟨.error (.arityMismatch σ.arity b.slotNames.length), []⟩

end Builder

end SlotGate
