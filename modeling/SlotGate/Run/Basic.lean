import SlotGate.Run.Dispatch
import SlotGate.Run.History
import SlotGate.Run.Section

/-!
# Runs of a gate

A run works off an agenda of tasks. One task is one indivisible thing: a critical section, an event,
a call. It puts the tasks that follow from it in front of the agenda, and with them whatever the
delegate's script or the subscriber's reaction asks for, so calls nest to any depth without any
recursion of operations. Every task weighs more than what it puts on the agenda, scripts and
reactions being used up, so every run ends.

Whether the subscriber hears an event is for the dispatch of the run to say, which is told what came
about before and how deep in reactions the subscriber is.

Threads are not part of a run: what others do to the gate between two critical sections of an
operation is what subscribers and delegates do there.
-/
namespace SlotGate

-- a sum of numbers starts from this zero, whatever other zero is in sight
attribute [local instance (high)] Zero.ofOfNat0

/-- How an attempt to fire ends. -/
inductive Decision (σ : Signature) where
  /-- The gate is disabled. -/
  | refused
  /-- There is no delegate, whatever the slots hold. -/
  | unbound
  /-- The slots of these names are not set. -/
  | pending (names : List String)
  | ready (args : σ.Arguments)

def Gate.decision {σ : Signature} {δ : Type} (g : Gate σ δ) (s : State σ) : Decision σ :=
  if !s.enabled then .refused
  else if !g.isBound then .unbound
  else if !s.slots.allSet then .pending (g.pending s.slots)
  else .ready s.slots.arguments

inductive Task (σ : Signature) where
  /-- Begin an operation. -/
  | start (caller : Caller) (op : Operation σ)
  /-- Emit an event, if the gate was being traced when the event came about. -/
  | emit (e : Event σ) (traced : Bool)
  /-- Copy the slots and decide whether to fire. -/
  | attempt (a : Activity)
  /-- Empty the slots of a one-shot gate that fires. -/
  | sweep (a : Activity)
  | call (a : Activity) (args : σ.Arguments)
  /-- Return from a call of the delegate. -/
  | leave (a : Activity)
  | finish (a : Activity) (answer : Answer σ)
  /-- The subscriber is done with a reaction. -/
  | listen
  | panic

abbrev Agenda (σ : Signature) : Type := List (Task σ)

structure Run (σ : Signature) where
  state : State σ
  /-- Scripts for the calls to come. -/
  scripts : List (Script σ)
  /-- Reactions that were not used yet. -/
  reactions : List (Reaction σ)
  dispatch : Dispatch
  /-- The events that came about so far, the latest first. -/
  met : List Encounter
  /-- In how many reactions the subscriber is. -/
  reacting : Nat
  /-- On from a panic until the operation of the top is left. -/
  unwinding : Bool
  /-- How many operations have begun. -/
  begun : Nat
  history : History σ

def Command.task {σ : Signature} : Command σ → Task σ
  | perform op => .start .script op
  | panic => .panic

namespace Task

variable {σ : Signature}

/-- More than all that a task can put on the agenda by itself. -/
def weight : Task σ → Nat
  | start .. => 9
  | attempt _ => 7
  | sweep _ => 2
  | call .. => 2
  | emit .. | leave _ | finish .. | listen | panic => 1

end Task

namespace Agenda

variable {σ : Signature}

def weight (tasks : Agenda σ) : Nat := (tasks.map Task.weight).sum

def ofScript (s : Script σ) : Agenda σ := s.map Command.task

/-- The operations of a reaction, and then the subscriber is done with it. -/
def ofReaction (r : Reaction σ) : Agenda σ :=
  r.operations.map (Task.start .subscriber) ++ [.listen]

@[simp] theorem weight_nil : weight ([] : Agenda σ) = 0 := rfl

@[simp] theorem weight_cons (t : Task σ) (ts : Agenda σ) :
    weight (t :: ts) = t.weight + weight ts := by simp [weight]

@[simp] theorem weight_append (ts us : Agenda σ) :
    weight (ts ++ us) = weight ts + weight us := by simp [weight]

end Agenda

namespace Run

variable {σ : Signature}

/-- The weight of what the scripts and reactions that are left can still put on an agenda. -/
def reserve (r : Run σ) : Nat :=
  (r.scripts.map fun s => (Agenda.ofScript s).weight).sum +
    (r.reactions.map fun x => (Agenda.ofReaction x).weight).sum

/-- What the scripts and reactions that are left can still put on an agenda, by any measure of tasks. -/
def stock (measure : Task σ → Nat) (r : Run σ) : Nat :=
  (r.scripts.map fun s => ((Agenda.ofScript s).map measure).sum).sum +
    (r.reactions.map fun x => ((Agenda.ofReaction x).map measure).sum).sum

theorem stock_weight (r : Run σ) : r.stock Task.weight = r.reserve := rfl

def note (r : Run σ) (m : Moment σ) : Run σ := { r with history := m :: r.history }

/-- An event with this message comes about. -/
def meet (r : Run σ) (message : String) : Run σ :=
  { r with met := ⟨message, r.reacting⟩ :: r.met }

/-- Whether the subscriber hears an event with this message that comes about now. -/
def hears (r : Run σ) (message : String) : Bool :=
  r.dispatch.delivers r.met ⟨message, r.reacting⟩

/-- A critical section of the activity `a`. -/
def change (r : Run σ) (a : Activity) (c : Change σ) (s : State σ) : Run σ :=
  { r with state := s, history := .changed a c s :: r.history }

end Run

/-- Takes the first reaction to a message out of a list. -/
def takeReaction {σ : Signature} (message : String) :
    List (Reaction σ) → Option (Reaction σ × List (Reaction σ))
  | [] => none
  | r :: rest =>
    if r.message = message then some (r, rest)
    else (takeReaction message rest).map fun p => (p.1, r :: p.2)

namespace Task

variable {σ : Signature} {δ : Type}

/-- The first critical section of an operation, and what follows from it. -/
def startStep (g : Gate σ δ) (a : Activity) (op : Operation σ) (r : Run σ) : Agenda σ × Run σ :=
  let s := r.state
  match op with
  | .set i v =>
    if s.enabled then
      let next : Agenda σ :=
        if (σ.type i).isNull v && g.settings.nullPolicy = .suppress then [finish a (.flag false)]
        else [attempt a]
      (emit (.slotSet i v) s.debug :: next, r.change a (.stored i v) (s.store i v))
    else ([finish a (.flag false)], r.change a .refused s)
  | .assign i v =>
    if s.enabled then
      let stored := (σ.type i).stored v
      ([emit (.slotAssigned i stored) s.debug, finish a (.value i stored)],
        r.change a (.stored i v) (s.store i v))
    else ([finish a (.value i v)], r.change a .refused s)
  | .clearSlot i =>
    if s.enabled then
      ([emit (.slotCleared i) s.debug, finish a .done], r.change a (.slotCleared i) (s.vacate i))
    else ([finish a .done], r.change a .refused s)
  | .clear =>
    if s.enabled then
      ([emit .cleared s.debug, finish a .done], r.change a (.cleared false) s.vacateAll)
    else ([finish a .done], r.change a .refused s)
  | .fire => ([attempt a], r)
  | .setEnabled on =>
    ([emit (.enabledChanged on) s.debug, finish a (.flag on)],
      r.change a (.enabledSet on) (s.withEnabled on))
  | .setDebug on =>
    ([emit (.debugChanged on) (on || s.debug), finish a (.flag on)],
      r.change a (.debugSet on) (s.withDebug on))
  | .read q => ([finish a (q.answer g s)], r.change a .looked s)

/-- The section that copies the slots, and what is decided on the copy. -/
def attemptStep (g : Gate σ δ) (a : Activity) (r : Run σ) : Agenda σ × Run σ :=
  let s := r.state
  match g.decision s with
  | .refused => ([finish a (.flag false)], r.change a .refused s)
  | .unbound => ([emit .fireUnbound s.debug, finish a (.flag false)], r.change a .copied s)
  | .pending names =>
    ([emit (.firePending names) s.debug, finish a (.flag false)], r.change a .copied s)
  | .ready args =>
    (emit .fired s.debug ::
      ((if g.settings.oneShot then [sweep a] else []) ++ [call a args, finish a (.flag true)]),
      r.change a .copied s)

def sweepStep (a : Activity) (r : Run σ) : Agenda σ × Run σ :=
  if r.state.enabled then
    ([emit .cleared r.state.debug], r.change a (.cleared true) r.state.vacateAll)
  else ([], r.change a .refused r.state)

/-- An event that is not heard is lost to the subscriber; one that is heard can have a reaction. -/
def emitStep (e : Event σ) (traced : Bool) (r : Run σ) : Agenda σ × Run σ :=
  if !traced then ([], r)
  else
    let heard := r.hears e.message
    let r := (r.meet e.message).note (.emitted e heard r.state)
    if !heard then ([], r)
    else
      match takeReaction e.message r.reactions with
      | none => ([], r)
      | some (x, rest) =>
        (Agenda.ofReaction x, { r with reactions := rest, reacting := r.reacting + 1 })

def callStep (a : Activity) (args : σ.Arguments) (r : Run σ) : Agenda σ × Run σ :=
  let r := r.note (.called a args)
  match r.scripts with
  | [] => ([leave a], r)
  | s :: rest => (Agenda.ofScript s ++ [leave a], { r with scripts := rest })

/-- One task: the tasks that follow from it, and the run after it. -/
def step (g : Gate σ δ) (t : Task σ) (r : Run σ) : Agenda σ × Run σ :=
  if r.unwinding then ([], r)
  else
    match t with
    | start caller op =>
      let a : Activity := ⟨r.begun, caller⟩
      startStep g a op { r with begun := r.begun + 1, history := .began a op :: r.history }
    | emit e traced => emitStep e traced r
    | attempt a => attemptStep g a r
    | sweep a => sweepStep a r
    | call a args => callStep a args r
    | leave a => ([], r.note (.returned a))
    | finish a answer => ([], r.note (.finished a answer r.state))
    | listen => ([], { r with reacting := r.reacting - 1 })
    | panic => ([], { r.note .panicked with unwinding := true })

theorem sum_takeReaction (measure : Reaction σ → Nat) {message : String}
    {l rest : List (Reaction σ)} {x : Reaction σ} (h : takeReaction message l = some (x, rest)) :
    (l.map measure).sum = measure x + (rest.map measure).sum := by
  induction l generalizing rest with
  | nil => simp [takeReaction] at h
  | cons r l ih =>
    unfold takeReaction at h
    split at h
    · cases h; simp
    · obtain ⟨p, hp, he⟩ := Option.map_eq_some_iff.1 h
      cases he
      simp only [List.map_cons, List.sum_cons, ih hp]
      omega

/-- What an event puts on the agenda is taken from the reactions. -/
theorem emitStep_stock (measure : Task σ → Nat) (e : Event σ) (traced : Bool) (r : Run σ) :
    ((emitStep e traced r).1.map measure).sum + (emitStep e traced r).2.stock measure =
      r.stock measure := by
  unfold emitStep
  split
  · simp
  · simp only
    split
    · simp [Run.stock, Run.note, Run.meet]
    · split
      · simp [Run.stock, Run.note, Run.meet]
      · next h =>
        have htaken := sum_takeReaction (fun x => ((Agenda.ofReaction x).map measure).sum) h
        simp only [Run.stock, Run.note, Run.meet] at htaken ⊢
        omega

/-- What a call puts on the agenda besides the return is taken from the scripts. -/
theorem callStep_stock (measure : Task σ → Nat) (a : Activity) (args : σ.Arguments) (r : Run σ) :
    ((callStep a args r).1.map measure).sum + (callStep a args r).2.stock measure =
      measure (leave a) + r.stock measure := by
  unfold callStep
  simp only
  split
  · simp [Run.stock, Run.note]
  · next s rest h =>
    have h' : r.scripts = s :: rest := h
    simp only [Run.stock, Run.note, h', List.map_append, List.map_cons, List.map_nil,
      List.sum_append_nat, List.sum_cons, List.sum_nil]
    omega

private theorem startStep_weight (g : Gate σ δ) (a : Activity) (op : Operation σ) (r : Run σ) :
    (startStep g a op r).1.weight + (startStep g a op r).2.reserve < 9 + r.reserve := by
  cases op <;> simp only [startStep] <;> (repeat' split) <;>
    simp [weight, Run.reserve, Run.change]

private theorem attemptStep_weight (g : Gate σ δ) (a : Activity) (r : Run σ) :
    (attemptStep g a r).1.weight + (attemptStep g a r).2.reserve < 7 + r.reserve := by
  unfold attemptStep
  simp only
  split <;> (try split) <;> simp [weight, Run.reserve, Run.change]

/-- A task weighs more than what it puts on the agenda, scripts and reactions counted. -/
theorem step_weight (g : Gate σ δ) (t : Task σ) (r : Run σ) :
    (t.step g r).1.weight + (t.step g r).2.reserve < t.weight + r.reserve := by
  unfold step
  split
  · cases t <;> simp [weight]
  · cases t with
    | start caller op => exact startStep_weight g _ op _
    | emit e traced =>
      have h := emitStep_stock weight e traced r
      rw [Run.stock_weight, Run.stock_weight] at h
      simp only [Agenda.weight, weight, h]
      omega
    | attempt a => exact attemptStep_weight g a r
    | sweep a =>
      simp only [sweepStep]
      split <;> simp [weight, Run.reserve, Run.change]
    | call a args =>
      have h := callStep_stock weight a args r
      rw [Run.stock_weight, Run.stock_weight] at h
      simp only [Agenda.weight, weight, h]
      omega
    | leave a => simp [weight, Run.reserve, Run.note]
    | finish a answer => simp [weight, Run.reserve, Run.note]
    | listen => simp [weight, Run.reserve]
    | panic => simp [weight, Run.reserve, Run.note]

end Task

namespace Run

variable {σ : Signature} {δ : Type}

/-- Works off an agenda. -/
def advance (g : Gate σ δ) (tasks : Agenda σ) (r : Run σ) : Run σ :=
  match tasks with
  | [] => r
  | t :: rest => advance g ((t.step g r).1 ++ rest) (t.step g r).2
termination_by tasks.weight + r.reserve
decreasing_by
  have h := Task.step_weight g t r
  simp only [Agenda.weight_append, Agenda.weight_cons]
  omega

theorem advance_nil (g : Gate σ δ) (r : Run σ) : advance g [] r = r := by
  rw [advance]

theorem advance_cons (g : Gate σ δ) (t : Task σ) (rest : Agenda σ) (r : Run σ) :
    advance g (t :: rest) r = advance g ((t.step g r).1 ++ rest) (t.step g r).2 := by
  rw [advance]

/-- A gate as it was built, with what its delegate and its subscriber will do, and with what carries
events to the subscriber. -/
def start (g : Gate σ (Delegate σ)) (reactions : List (Reaction σ)) (dispatch : Dispatch) :
    Run σ where
  state := g.initialState
  scripts := (g.delegate.map Delegate.scripts).getD []
  reactions := reactions
  dispatch := dispatch
  met := []
  reacting := 0
  unwinding := false
  begun := 0
  history := []

/-- A panic ends with the operation of the top, and with it all reactions end. -/
def settled (r : Run σ) : Run σ := { r with reacting := 0, unwinding := false }

/-- One operation of the top, with everything that it sets off. -/
def perform (g : Gate σ δ) (r : Run σ) (op : Operation σ) : Run σ :=
  (advance g [.start .top op] r).settled

def performAll (g : Gate σ δ) (r : Run σ) (ops : List (Operation σ)) : Run σ :=
  ops.foldl (perform g) r

end Run

/-- What the top learns of its operation. -/
inductive Outcome (σ : Signature) where
  | answered (answer : Answer σ)
  | panicked

/-- An operation of the top: its outcome, what was logged during it, and the state after it. -/
structure Report (σ : Signature) where
  outcome : Outcome σ
  log : List (Entry σ)
  state : State σ

namespace Run

variable {σ : Signature} {δ : Type}

/-- An operation that was not unwound is the last thing in the history. -/
def outcome (r : Run σ) : Outcome σ :=
  match r.history with
  | .finished _ answer _ :: _ => .answered answer
  | _ => .panicked

/-- The moments by which the history of a run is longer than the one `before`. -/
def since (r before : Run σ) : History σ :=
  r.history.take (r.history.length - before.history.length)

def report (before after : Run σ) : Report σ where
  outcome := after.outcome
  log := (after.since before).log
  state := after.state

/-- The reports of operations that are performed one after the other. -/
def reports (g : Gate σ δ) (r : Run σ) : List (Operation σ) → List (Report σ)
  | [] => []
  | op :: ops =>
    let after := r.perform g op
    r.report after :: reports g after ops

end Run

end SlotGate
