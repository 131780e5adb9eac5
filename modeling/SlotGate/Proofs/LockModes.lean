import Mathlib.Data.List.Basic
import SlotGate.Gate.Builder
import SlotGate.Proofs.Exclusion

/-!
# The two lock modes

A gate for threads and a gate for one owner do the same. With the guard always free where it is taken,
neither mode has anything to say in a run but when the gate is asked for it: a description of the gate
tells its mode, and so does the record of its building.
-/
namespace SlotGate

variable {σ : Signature} {δ : Type}

/-- The same gate in another lock mode. -/
def Gate.inMode (g : Gate σ δ) (m : LockMode) : Gate σ δ := { g with lockMode := m }

/-- What becomes of an answer in another lock mode: the description of the gate is a different one, and
all other answers stay. -/
def Answer.inMode (g : Gate σ δ) (m : LockMode) : Answer σ → Answer σ
  | .gate info => .gate (if info = g.info then (g.inMode m).info else info)
  | x => x

namespace Task

def inMode (g : Gate σ δ) (m : LockMode) : Task σ → Task σ
  | finish a x => finish a (x.inMode g m)
  | t => t

end Task

namespace Moment

def inMode (g : Gate σ δ) (m : LockMode) : Moment σ → Moment σ
  | finished a x s => finished a (x.inMode g m) s
  | other => other

end Moment

namespace Run

def inMode (g : Gate σ δ) (m : LockMode) (r : Run σ) : Run σ :=
  { r with history := r.history.map (Moment.inMode g m) }

end Run

def Entry.inMode (g : Gate σ δ) (m : LockMode) : Entry σ → Entry σ
  | .step x => .step (x.inMode g m)
  | .subscriber x => .subscriber (x.inMode g m)
  | other => other

def Outcome.inMode (g : Gate σ δ) (m : LockMode) : Outcome σ → Outcome σ
  | .answered x => .answered (x.inMode g m)
  | .panicked => .panicked

def Report.inMode (g : Gate σ δ) (m : LockMode) (x : Report σ) : Report σ where
  outcome := x.outcome.inMode g m
  log := x.log.map (Entry.inMode g m)
  state := x.state

/-- The thread-safe flag of a record, where there is one, tells this lock mode. -/
def TraceRecord.inMode (m : LockMode) (x : TraceRecord) : TraceRecord :=
  { x with fields := x.fields.map fun p =>
      (p.1, if p.1 = "thread_safe" then .flag m.isThreadSafe else p.2) }

variable (g : Gate σ δ) (m : LockMode)

theorem Event.record_inMode (e : Event σ) : e.record (g.inMode m) = (e.record g).inMode m := by
  cases e <;> rfl

/-- Of the fields of a description only the thread-safe flag depends on the lock mode. -/
theorem Gate.describedFields_inMode (listed : List String → String) :
    (g.inMode m).describedFields listed = (g.describedFields listed).map fun p =>
      (p.1, if p.1 = "thread_safe" then describeFlag m.isThreadSafe else p.2) := rfl

theorem Query.answer_inMode (s : State σ) (q : Query σ) :
    q.answer (g.inMode m) s = (q.answer g s).inMode g m := by
  cases q with
  | gateInfo => exact congrArg Answer.gate (if_pos rfl).symm
  | _ => rfl

namespace Task

theorem startStep_inMode (a : Activity) (op : Operation σ) (r : Run σ) :
    startStep (g.inMode m) a op (r.inMode g m) =
      ((startStep g a op r).1.map (inMode g m), (startStep g a op r).2.inMode g m) := by
  have hsettings : (g.inMode m).settings = g.settings := rfl
  have hstate : (r.inMode g m).state = r.state := rfl
  cases op with
  | read q => simp [startStep, inMode, Query.answer_inMode, Run.inMode, Run.change, Moment.inMode]
  | set i v =>
    simp only [startStep, hsettings, hstate]
    split
    · split <;> rfl
    · rfl
  | assign | clearSlot | clear =>
    simp only [startStep, hstate]
    split <;> rfl
  | fire | setEnabled | setDebug => rfl

theorem attemptStep_inMode (a : Activity) (r : Run σ) :
    attemptStep (g.inMode m) a (r.inMode g m) =
      ((attemptStep g a r).1.map (inMode g m), (attemptStep g a r).2.inMode g m) := by
  have hsettings : (g.inMode m).settings = g.settings := rfl
  have hdecision : (g.inMode m).decision (r.inMode g m).state = g.decision r.state := rfl
  simp only [attemptStep, hdecision, hsettings]
  split
  · rfl
  · rfl
  · rfl
  · split <;> rfl

theorem sweepStep_inMode (a : Activity) (r : Run σ) :
    sweepStep a (r.inMode g m) = ((sweepStep a r).1.map (inMode g m), (sweepStep a r).2.inMode g m) := by
  have hstate : (r.inMode g m).state = r.state := rfl
  simp only [sweepStep, hstate]
  split <;> rfl

/-- What delegates and subscribers ask for is the same. -/
theorem map_inMode_of_asked {tasks : Agenda σ} (h : ∀ t ∈ tasks, ∀ a x, t ≠ finish a x) :
    tasks.map (inMode g m) = tasks := by
  refine (List.map_congr_left fun t ht => ?_).trans (List.map_id tasks)
  cases t with
  | finish a x => exact absurd rfl (h _ ht a x)
  | _ => rfl

theorem emitStep_inMode (e : Event σ) (traced : Bool) (r : Run σ) :
    emitStep e traced (r.inMode g m) =
      ((emitStep e traced r).1.map (inMode g m), (emitStep e traced r).2.inMode g m) := by
  have hasked : (emitStep e traced r).1.map (inMode g m) = (emitStep e traced r).1 := by
    refine map_inMode_of_asked g m fun t ht a x => ?_
    rcases mem_emitStep ht with rfl | ⟨y, -, op, -, rfl⟩ <;> simp
  have hhears : (r.inMode g m).hears e.message = r.hears e.message := rfl
  have hreactions : (r.inMode g m).reactions = r.reactions := rfl
  rw [hasked]
  simp only [emitStep, hhears, Run.note, Run.meet, hreactions]
  split
  · rfl
  · split
    · rfl
    · cases takeReaction e.message r.reactions <;> rfl

theorem callStep_inMode (a : Activity) (args : σ.Arguments) (r : Run σ) :
    callStep a args (r.inMode g m) =
      ((callStep a args r).1.map (inMode g m), (callStep a args r).2.inMode g m) := by
  have hasked : (callStep a args r).1.map (inMode g m) = (callStep a args r).1 := by
    refine map_inMode_of_asked g m fun t ht b x => ?_
    rcases mem_callStep ht with rfl | ⟨s, -, c, -, rfl⟩
    · simp
    · cases c <;> simp [Command.task]
  have hscripts : (r.inMode g m).scripts = r.scripts := rfl
  rw [hasked]
  simp only [callStep, Run.note, hscripts]
  cases r.scripts <;> rfl

/-- A task does the same in another lock mode. -/
theorem step_inMode (t : Task σ) (r : Run σ) :
    (t.inMode g m).step (g.inMode m) (r.inMode g m) =
      ((t.step g r).1.map (inMode g m), (t.step g r).2.inMode g m) := by
  have hunwinding : (r.inMode g m).unwinding = r.unwinding := rfl
  cases hu : r.unwinding with
  | true => rw [step_of_unwinding (hunwinding.trans hu), step_of_unwinding hu, List.map_nil]
  | false =>
    unfold step
    rw [if_neg (by simp [hunwinding, hu]), if_neg (by simp [hu])]
    cases t with
    | start caller op =>
      exact startStep_inMode g m ⟨r.begun, caller⟩ op
        { r with begun := r.begun + 1, history := .began ⟨r.begun, caller⟩ op :: r.history }
    | emit e traced => exact emitStep_inMode g m e traced r
    | attempt a => exact attemptStep_inMode g m a r
    | sweep a => exact sweepStep_inMode g m a r
    | call a args => exact callStep_inMode g m a args r
    | leave | finish | listen | panic => rfl

end Task

namespace Run

theorem advance_inMode (tasks : Agenda σ) (r : Run σ) :
    advance (g.inMode m) (tasks.map (Task.inMode g m)) (r.inMode g m) =
      (advance g tasks r).inMode g m := by
  fun_induction advance g tasks r with
  | case1 => exact advance_nil _ _
  | case2 r t rest ih =>
    rw [List.map_cons, advance_cons, Task.step_inMode, ← List.map_append]
    exact ih

theorem perform_inMode (r : Run σ) (op : Operation σ) :
    perform (g.inMode m) (r.inMode g m) op = (perform g r op).inMode g m :=
  congrArg settled (advance_inMode g m [.start .top op] r)

theorem performAll_inMode (r : Run σ) (ops : List (Operation σ)) :
    performAll (g.inMode m) (r.inMode g m) ops = (performAll g r ops).inMode g m := by
  induction ops generalizing r with
  | nil => rfl
  | cons op ops ih =>
    change performAll (g.inMode m) (perform (g.inMode m) (r.inMode g m) op) ops = _
    rw [perform_inMode]
    exact ih (perform g r op)

end Run

theorem Moment.entry_inMode (x : Moment σ) :
    Moment.entry? (x.inMode g m) = Option.map (Entry.inMode g m) ( Moment.entry? x) := by
  cases x with
  | emitted e heard s => cases heard <;> rfl
  | finished a x s =>
    obtain ⟨id, caller⟩ := a
    cases caller <;> rfl
  | _ => rfl

namespace Run

theorem report_inMode (before after : Run σ) :
    report (before.inMode g m) (after.inMode g m) = (report before after).inMode g m := by
  have houtcome : (after.inMode g m).outcome = after.outcome.inMode g m := by
    unfold outcome inMode
    cases after.history with
    | nil => rfl
    | cons x rest => cases x <;> rfl
  have hsince : (after.inMode g m).since (before.inMode g m) =
      (after.since before).map (Moment.inMode g m) := by
    simp [since, inMode, List.map_take]
  have hlog : ∀ h : History σ, History.log (h.map (Moment.inMode g m)) =
      h.log.map (Entry.inMode g m) := by
    intro h
    simp only [History.log, ← List.map_reverse, List.filterMap_map, List.map_filterMap]
    exact List.filterMap_congr fun x _ => Moment.entry_inMode g m x
  unfold report Report.inMode
  rw [houtcome, hsince, hlog]
  rfl

theorem reports_inMode (r : Run σ) (ops : List (Operation σ)) :
    reports (g.inMode m) (r.inMode g m) ops = (reports g r ops).map (Report.inMode g m) := by
  induction ops generalizing r with
  | nil => rfl
  | cons op ops ih =>
    simp only [reports, List.map_cons, perform_inMode, report_inMode, ih]

end Run

/-- A builder builds the same gate for either lock mode, or finds the same fault. -/
theorem Builder.build_inMode (b : Builder δ) (m m' : LockMode) :
    let built : Reported (Except BindError (Gate σ δ)) := b.build m
    b.build m' = ⟨built.result.map (Gate.inMode · m'), built.records.map (TraceRecord.inMode m')⟩ := by
  simp only [build]
  split
  · split <;> rfl
  · rfl

/-- In another lock mode the gate does the same, apart from the flag that tells the mode. -/
structure Alike (g : Gate σ (Delegate σ)) (m : LockMode) (reactions : List (Reaction σ))
    (dispatch : Dispatch) (ops : List (Operation σ)) : Prop where
  builds : ∀ (b : Builder (Delegate σ)) (m₁ m₂ : LockMode),
    let built : Reported (Except BindError (Gate σ (Delegate σ))) := b.build m₁
    b.build m₂ = ⟨built.result.map (Gate.inMode · m₂), built.records.map (TraceRecord.inMode m₂)⟩
  /-- All that happens is the same, and so is the state in the end. -/
  run : Run.performAll (g.inMode m) (.start (g.inMode m) reactions dispatch) ops =
    (Run.performAll g (.start g reactions dispatch) ops).inMode g m
  reports : Run.reports (g.inMode m) (.start (g.inMode m) reactions dispatch) ops =
    (Run.reports g (.start g reactions dispatch) ops).map (Report.inMode g m)
  records : ∀ e : Event σ, e.record (g.inMode m) = (e.record g).inMode m
  info : (g.inMode m).info = { g.info with
    threadSafe := m.isThreadSafe, line := (g.inMode m).describe, lines := (g.inMode m).describeLines }
  described : ∀ listed, (g.inMode m).describedFields listed = (g.describedFields listed).map fun p =>
    (p.1, if p.1 = "thread_safe" then describeFlag m.isThreadSafe else p.2)

/-- In both lock modes the guard is free wherever it is taken, whatever delegates and subscribers do, and
so the modes differ in nothing but their name. -/
theorem Guarded.sections_never_nest (g : Gate σ (Delegate σ)) (m : LockMode)
    (reactions : List (Reaction σ)) (dispatch : Dispatch) (ops : List (Operation σ)) :
    Exclusive g reactions dispatch ops ∧ Exclusive (g.inMode m) reactions dispatch ops ∧
      Alike g m reactions dispatch ops := by
  refine ⟨exclusive g reactions dispatch ops, exclusive (g.inMode m) reactions dispatch ops, ?_⟩
  constructor
  case builds => exact Builder.build_inMode
  case run => exact Run.performAll_inMode g m (.start g reactions dispatch) ops
  case reports => exact Run.reports_inMode g m (.start g reactions dispatch) ops
  case records => exact Event.record_inMode g m
  case info => rfl
  case described => exact Gate.describedFields_inMode g m

end SlotGate
