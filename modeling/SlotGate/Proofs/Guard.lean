import Mathlib.Logic.Function.Iterate
import SlotGate.Proofs.Step

/-!
# Operations and their guard

The state of a gate is kept under a guard, and each section of an operation takes the guard and gives it
back. A guard that is held cannot be taken: on a gate for threads the one who tries waits for it, and for
ever if he waits for himself; on a gate for one owner he panics. Here operations are written down by what
they do one after the other, inside of their sections and outside, and worked off on a machine that keeps
the guard. Nothing about the machine says that delegates and subscribers find the guard free.
-/
namespace SlotGate.Guarded

variable {σ : Signature} {δ : Type}

/-- What an operation still has to do. -/
inductive Program (σ : Signature) where
  /-- Take the guard. -/
  | enter (next : Program σ)
  /-- Look at the state, and change it. -/
  | work (change : State σ → Change σ) (next : State σ → Program σ)
  /-- Give the guard back. -/
  | exit (next : Program σ)
  /-- Write an event, and tell it to the subscriber. -/
  | tell (e : Event σ) (next : Program σ)
  | call (args : σ.Arguments) (next : Program σ)
  | answer (x : Answer σ)

namespace Program

/-- A section. What it has found is all that the rest of the operation has of the state. -/
def under {β : Type} (change : State σ → Change σ) (found : State σ → β) (next : β → Program σ) :
    Program σ :=
  enter (work change fun s => exit (next (found s)))

def trace (traced : Bool) (e : Event σ) (next : Program σ) : Program σ :=
  if traced then tell e next else next

/-- Empties all slots. -/
def clear (automatic : Bool) (next : Program σ) : Program σ :=
  under (fun s => if s.enabled then .cleared automatic else .refused)
    (fun s => s.enabled && s.debug) fun traced => trace traced .cleared next

/-- What is decided on a copy of the slots. -/
def resolve (g : Gate σ δ) : Option (Slots σ × Bool) → Program σ
  | none => answer (.flag false)
  | some (slots, debug) =>
    if !g.isBound then trace debug .fireUnbound (answer (.flag false))
    else if !slots.allSet then trace debug (.firePending (g.pending slots)) (answer (.flag false))
    else
      let delivers := call slots.arguments (answer (.flag true))
      trace debug .fired (if g.settings.oneShot then clear true delivers else delivers)

/-- Copies the slots and decides on the copy. -/
def attempt (g : Gate σ δ) : Program σ :=
  under (fun s => if s.enabled then .copied else .refused)
    (fun s => if s.enabled then some (s.slots, s.debug) else none) (resolve g)

/-- A question about what is fixed needs no section, but has one here. -/
def ofOperation (g : Gate σ δ) : Operation σ → Program σ
  | .set i v =>
    under (fun s => if s.enabled then .stored i v else .refused)
      (fun s => if s.enabled then some s.debug else none) fun
      | none => answer (.flag false)
      | some traced =>
        trace traced (.slotSet i v)
          (if (σ.type i).isNull v && g.settings.nullPolicy = .suppress then answer (.flag false)
          else attempt g)
  | .assign i v =>
    under (fun s => if s.enabled then .stored i v else .refused)
      (fun s => if s.enabled then ((σ.type i).stored v, s.debug) else (v, false)) fun p =>
      trace p.2 (.slotAssigned i p.1) (answer (.value i p.1))
  | .clearSlot i =>
    under (fun s => if s.enabled then .slotCleared i else .refused)
      (fun s => s.enabled && s.debug) fun traced => trace traced (.slotCleared i) (answer .done)
  | .clear => clear false (answer .done)
  | .fire => attempt g
  | .setEnabled on =>
    under (fun _ => .enabledSet on) (fun s => s.debug) fun traced =>
      trace traced (.enabledChanged on) (answer (.flag on))
  | .setDebug on =>
    under (fun _ => .debugSet on) (fun s => on || s.debug) fun traced =>
      trace traced (.debugChanged on) (answer (.flag on))
  | .read q => under (fun _ => .looked) (fun s => q.answer g s) answer

end Program

/-- What is still to be done on the one thread, the innermost first. -/
inductive Frame (σ : Signature) where
  /-- Foreign code asks for an operation. -/
  | start (caller : Caller) (op : Operation σ)
  /-- An operation under way, and whether it holds the guard. -/
  | running (a : Activity) (holds : Bool) (left : Program σ)
  /-- The delegate returns. -/
  | leave (a : Activity)
  /-- The subscriber is done with a reaction. -/
  | listen
  | panic
  /-- The operation of the top is left. A panic goes no further. -/
  | settle

namespace Frame

def holds : Frame σ → Bool
  | running _ holds _ => holds
  | _ => false

/-- Whether the next thing to be done belongs inside of a section. -/
def inside : Frame σ → Bool
  | running _ _ (.work ..) | running _ _ (.exit _) => true
  | _ => false

/-- What delegates and subscribers ask for. -/
def ofTask? : Task σ → Option (Frame σ)
  | .start caller op => some (start caller op)
  | .leave a => some (leave a)
  | .listen => some listen
  | .panic => some panic
  | _ => none

end Frame

/-- The guard, and what is done under it and outside of it. -/
structure Config (σ : Signature) where
  frames : List (Frame σ)
  held : Bool
  run : Run σ

namespace Config

/-- A gate as it was built, with its guard free, and the operations of the top ahead. -/
def start (g : Gate σ (Delegate σ)) (reactions : List (Reaction σ)) (dispatch : Dispatch)
    (ops : List (Operation σ)) : Config σ where
  frames := ops.flatMap fun op => [.start .top op, .settle]
  held := false
  run := .start g reactions dispatch

/-- The next step of the operation of `a`, which has `rest` behind it. -/
def proceed (g : Gate σ δ) (a : Activity) (holds : Bool) (rest : List (Frame σ)) (held : Bool)
    (r : Run σ) : Program σ → Config σ
  | .enter next =>
    if held then
      match g.lockMode with
      | .threadSafe => ⟨.running a holds (.enter next) :: rest, held, r⟩
      | .unsynchronized => ⟨rest, held, { r.note .panicked with unwinding := true }⟩
    else ⟨.running a true next :: rest, true, r⟩
  | .work change next =>
    let c := change r.state
    ⟨.running a holds (next r.state) :: rest, held, r.change a c (c.apply r.state)⟩
  | .exit next => ⟨.running a false next :: rest, false, r⟩
  | .tell e next =>
    let heard := Task.emitStep e true r
    ⟨heard.1.filterMap Frame.ofTask? ++ .running a holds next :: rest, held, heard.2⟩
  | .call args next =>
    let called := Task.callStep a args r
    ⟨called.1.filterMap Frame.ofTask? ++ .running a holds next :: rest, held, called.2⟩
  | .answer x => ⟨rest, held, r.note (.finished a x r.state)⟩

/-- A panic leaves one frame after the other. A guard that a frame holds is given back. -/
def unwind (rest : List (Frame σ)) (held : Bool) (r : Run σ) : Frame σ → Config σ
  | .settle => ⟨rest, held, r.settled⟩
  | .running _ true _ => ⟨rest, false, r⟩
  | _ => ⟨rest, held, r⟩

def step (g : Gate σ δ) (c : Config σ) : Config σ :=
  match c.frames with
  | [] => c
  | f :: rest =>
    if c.run.unwinding then unwind rest c.held c.run f
    else
      match f with
      | .start caller op =>
        let a : Activity := ⟨c.run.begun, caller⟩
        ⟨.running a false (.ofOperation g op) :: rest, c.held,
          { c.run with begun := c.run.begun + 1, history := .began a op :: c.run.history }⟩
      | .running a holds left => proceed g a holds rest c.held c.run left
      | .leave a => ⟨rest, c.held, c.run.note (.returned a)⟩
      | .listen => ⟨rest, c.held, { c.run with reacting := c.run.reacting - 1 }⟩
      | .panic => ⟨rest, c.held, { c.run.note .panicked with unwinding := true }⟩
      | .settle => ⟨rest, c.held, c.run.settled⟩

/-- The guard is held while the operation in front is inside of a section, and by it. At all other
times it is free: where an operation takes it, where an event is written and told, where the delegate is
called and returns, and where any of them asks for the next operation or panics. -/
structure Sound (c : Config σ) : Prop where
  held : c.held = c.frames.head?.any Frame.inside
  holder : ∀ f ∈ c.frames.head?, f.holds = f.inside
  others : ∀ f ∈ c.frames.tail, f.holds = false

end Config

end SlotGate.Guarded
