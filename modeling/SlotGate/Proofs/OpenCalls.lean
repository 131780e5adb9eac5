import SlotGate.Proofs.Firing
import SlotGate.Proofs.Resemblance

/-!
# Calls that have not returned

While operations ask for calls and calls ask for operations, the agenda is a stack: what is left of one
operation, then for each call that has not returned the rest of its script, its return and the answer of
the operation that made it. An operation that fires has nothing left but its answer when the delegate
is called, so behind an open call there is no section and no event.
-/
namespace SlotGate

variable {σ : Signature} {δ : Type}

namespace History

/-- The activities whose calls of the delegate have not returned, the innermost first. -/
def openCalls : History σ → List Activity
  | [] => []
  | .called a _ :: h => a :: openCalls h
  | .returned _ :: h => (openCalls h).tail
  | _ :: h => openCalls h

end History

/-- Who asks for operations while some calls are open. -/
def callerWithin : List Activity → Caller
  | [] => .top
  | _ => .script

theorem callerWithin_of_ne_nil {calls : List Activity} (h : calls ≠ []) :
    callerWithin calls = .script := by
  cases calls with
  | nil => exact absurd rfl h
  | cons a calls => rfl

/-- What is left of one operation: its answer comes last, and a call right before it. -/
inductive Agenda.OperationTail (c : Caller) : Agenda σ → Prop where
  | start (op : Operation σ) : OperationTail c [.start c op]
  | attempt {a : Activity} (caller : a.caller = c) : OperationTail c [.attempt a]
  | call {a : Activity} (args : σ.Arguments) (caller : a.caller = c) :
      OperationTail c [.call a args, .finish a (.flag true)]
  | answer {a : Activity} (x : Answer σ) (caller : a.caller = c) : OperationTail c [.finish a x]
  | event (e : Event σ) (traced : Bool) {own : Agenda σ} (h : OperationTail c own) :
      OperationTail c (.emit e traced :: own)
  | sweep (b : Activity) {own : Agenda σ} (h : OperationTail c own) : OperationTail c (.sweep b :: own)

/-- What is left behind an operation: the rest of the script of each open call, its return, and the
answer of the operation that made the call. -/
inductive Agenda.Behind : List Activity → Agenda σ → Prop where
  | top : Behind [] []
  | call {a : Activity} {calls : List Activity} {rest : Agenda σ} (s : Script σ)
      (caller : a.caller = callerWithin calls) (h : Behind calls rest) :
      Behind (a :: calls) (ofScript s ++ .leave a :: .finish a (.flag true) :: rest)

/-- A script is between two operations: the delegate has just been called, or the last operation of the
script has just been answered. -/
inductive History.Resting (s : State σ) : History σ → Prop where
  | called (a : Activity) (args : σ.Arguments) (h : History σ) : Resting s (.called a args :: h)
  | answered (id : Nat) (x : Answer σ) (h : History σ) : Resting s (.finished ⟨id, .script⟩ x s :: h)

/-- An agenda is the stack of the calls that are open after the history `h`. -/
inductive Agenda.Stacked (s : State σ) (h : History σ) : Agenda σ → Prop where
  | within {own behind : Agenda σ} (hown : OperationTail (callerWithin h.openCalls) own)
      (hbehind : Behind h.openCalls behind) : Stacked s h (own ++ behind)
  | between {behind : Agenda σ} (hbehind : Behind h.openCalls behind)
      (resting : h.openCalls ≠ [] → h.Resting s) : Stacked s h behind

namespace Task

/-- Whether a task is what a script asks for. -/
def isCommand : Task σ → Bool
  | start .script _ | panic => true
  | _ => false

def isLeave : Task σ → Bool
  | leave _ => true
  | _ => false

end Task

namespace Agenda

/-- An agenda from which all that scripts still ask for is struck. -/
def withoutCommands (tasks : Agenda σ) : Agenda σ := tasks.filter fun t => !t.isCommand

/-- The returns of calls and the answers of the operations that made them. -/
def closing (calls : List Activity) : Agenda σ :=
  calls.flatMap fun a => [.leave a, .finish a (.flag true)]

theorem withoutCommands_append (first second : Agenda σ) :
    withoutCommands (first ++ second) = first.withoutCommands ++ second.withoutCommands :=
  List.filter_append ..

theorem withoutCommands_ofScript (s : Script σ) : (ofScript s).withoutCommands = [] := by
  refine List.filter_eq_nil_iff.2 fun t ht => ?_
  obtain ⟨c, -, rfl⟩ := List.mem_map.1 ht
  cases c <;> exact Bool.false_ne_true

theorem countP_leave_ofScript (s : Script σ) : (ofScript s).countP Task.isLeave = 0 := by
  refine List.countP_eq_zero.2 fun t ht => ?_
  obtain ⟨c, -, rfl⟩ := List.mem_map.1 ht
  cases c <;> exact Bool.false_ne_true

/-- Without what scripts ask for, the calls that are open just return, and the operations that made
them are answered. -/
theorem Behind.closing {calls : List Activity} {rest : Agenda σ} (h : Behind calls rest) :
    rest.withoutCommands = Agenda.closing calls ∧ rest.countP Task.isLeave = calls.length := by
  induction h with
  | top => exact ⟨rfl, rfl⟩
  | @call a calls rest s caller h ih =>
    obtain ⟨hrest, hcount⟩ := ih
    constructor
    · rw [withoutCommands_append, withoutCommands_ofScript]
      change Task.leave a :: Task.finish a (.flag true) :: rest.withoutCommands = _
      rw [hrest]
      rfl
    · rw [List.countP_append, countP_leave_ofScript, Nat.zero_add, List.countP_cons_of_pos rfl,
        List.countP_cons_of_neg Bool.false_ne_true, hcount, List.length_cons]

/-- Where a panic comes next, a call is open, and its script is between two operations. -/
theorem Stacked.at_panic {s : State σ} {h : History σ} {left : Agenda σ}
    (hs : Stacked s h (.panic :: left)) :
    h.Resting s ∧ Behind h.openCalls (.panic :: left) := by
  generalize htasks : .panic :: left = tasks at hs
  cases hs with
  | within hown hbehind =>
    cases hown <;> cases htasks
  | between hbehind resting =>
    subst htasks
    refine ⟨resting fun hnone => ?_, hbehind⟩
    rw [hnone] at hbehind
    cases hbehind

end Agenda

/-- The moments in which calls return, all in one state, and the operations that made them are
answered. -/
def History.closing (calls : List Activity) (s : State σ) : History σ :=
  (calls.flatMap fun a => [.returned a, .finished a (.flag true) s]).reverse

/-- What the log shows of `n` calls that only return: the returns, and to each script but the last the
answer of its operation. -/
def Entry.closing : Nat → List (Entry σ)
  | 0 => []
  | 1 => [.returned]
  | n + 2 => .returned :: .step (.flag true) :: closing (n + 1)

theorem Agenda.Behind.log_closing {calls : List Activity} {rest : Agenda σ} (h : Behind calls rest)
    (s : State σ) : (History.closing calls s).log = Entry.closing calls.length := by
  induction h with
  | top => rfl
  | @call a calls rest _ caller _ ih =>
    have hlog : (History.closing (a :: calls) s).log =
        History.log [.finished a (.flag true) s, .returned a] ++ (History.closing calls s).log := by
      rw [← History.log_append]
      simp [History.closing]
    rw [hlog, ih]
    obtain ⟨id, c⟩ := a
    cases calls with
    | nil =>
      obtain rfl : c = .top := caller
      rfl
    | cons b calls =>
      obtain rfl : c = .script := caller
      rfl

namespace Run

/-- From an agenda and a run, task by task and without a panic, one gets to another. -/
inductive CalmPath (g : Gate σ δ) : Agenda σ → Run σ → Agenda σ → Run σ → Prop where
  | here (tasks : Agenda σ) (r : Run σ) : CalmPath g tasks r tasks r
  | task {t : Task σ} {rest tasks' : Agenda σ} {r r' : Run σ} (calm : r.unwinding = false)
      (ht : t ≠ .panic) (h : CalmPath g ((t.step g r).1 ++ rest) (t.step g r).2 tasks' r') :
      CalmPath g (t :: rest) r tasks' r'

variable {g : Gate σ δ}

/-- Calls that only return change nothing about the gate. -/
theorem advance_closing (calls : List Activity) {r : Run σ} (hu : r.unwinding = false) :
    advance g (Agenda.closing calls) r =
      { r with history := History.closing calls r.state ++ r.history } := by
  induction calls generalizing r with
  | nil => exact advance_nil g r
  | cons a calls ih =>
    let q := r.note (.returned a)
    have hcalm : q.unwinding = false := hu
    have hfirst : advance g (.leave a :: .finish a (.flag true) :: Agenda.closing calls) r =
        advance g (Agenda.closing calls) (q.note (.finished a (.flag true) r.state)) := by
      rw [advance_cons, Task.step_leave hu, List.nil_append, advance_cons, Task.step_finish hcalm,
        List.nil_append]
      rfl
    have hrest := ih (r := q.note (.finished a (.flag true) r.state)) hu
    refine hfirst.trans (hrest.trans ?_)
    simp [History.closing, q, note]

namespace CalmPath

variable {tasks tasks' : Agenda σ} {r r' : Run σ}

theorem advance (h : CalmPath g tasks r tasks' r') :
    Run.advance g tasks r = Run.advance g tasks' r' := by
  induction h with
  | here => rfl
  | task _ _ _ ih => rw [advance_cons, ih]

theorem calm (h : CalmPath g tasks r tasks' r') (hu : r.unwinding = false) : r'.unwinding = false := by
  induction h with
  | here => exact hu
  | @task t rest tasks' r r' hcalm ht _ ih => exact ih ((Task.step_frame g hcalm t).calm ht)

/-- Moments are only added, and none of them is a panic. -/
theorem history (h : CalmPath g tasks r tasks' r') :
    ∃ new : History σ, r'.history = new ++ r.history ∧ .panicked ∉ new := by
  induction h with
  | here => exact ⟨[], rfl, by simp⟩
  | @task t rest tasks' r r' hcalm ht _ ih =>
    obtain ⟨late, hlate, hno⟩ := ih
    obtain ⟨new, s, heffect, -, hnew⟩ := Task.step_effect g hcalm t
    refine ⟨late ++ new, by rw [hlate, hnew, List.append_assoc], ?_⟩
    have hquiet : .panicked ∉ new := by
      cases heffect <;> first | exact absurd rfl ht | simp
    exact fun hm => (List.mem_append.1 hm).elim hno hquiet

end CalmPath

/-- A run comes to the end of its agenda, or to a panic. -/
theorem advance_cases (tasks : Agenda σ) {r : Run σ} (hu : r.unwinding = false) :
    CalmPath g tasks r [] (advance g tasks r) ∨
      ∃ left q, CalmPath g tasks r (.panic :: left) q ∧
        advance g tasks r = { q.note .panicked with unwinding := true } := by
  fun_induction advance g tasks r with
  | case1 r => exact .inl (.here [] r)
  | case2 r t rest ih =>
    by_cases ht : t = .panic
    · subst ht
      refine .inr ⟨rest, r, .here _ r, ?_⟩
      rw [Task.step_panic hu]
      exact advance_of_unwinding rfl rest
    · rcases ih ((Task.step_frame g hu t).calm ht) with h | ⟨left, q, h, he⟩
      · exact .inl (.task hu ht h)
      · exact .inr ⟨left, q, .task hu ht h, he⟩

end Run

namespace Task

variable {g : Gate σ δ} {r : Run σ}

/-- A call with no script left returns at once. -/
theorem step_call_nil (hu : r.unwinding = false) (hs : r.scripts = []) (a : Activity)
    (args : σ.Arguments) : (call a args).step g r = ([leave a], r.note (.called a args)) := by
  have hs' : (r.note (.called a args)).scripts = [] := hs
  simp [step, hu, callStep, hs']

theorem step_call_cons (hu : r.unwinding = false) {s : Script σ} {left : List (Script σ)}
    (hs : r.scripts = s :: left) (a : Activity) (args : σ.Arguments) :
    (call a args).step g r =
      (Agenda.ofScript s ++ [leave a], { r.note (.called a args) with scripts := left }) := by
  have hs' : (r.note (.called a args)).scripts = s :: left := hs
  simp [step, hu, callStep, hs']

end Task

namespace Agenda

open Run

variable {g : Gate σ δ} {c : Caller}

theorem operationTail_startStep (g : Gate σ δ) {a : Activity} (ha : a.caller = c) (op : Operation σ)
    (r : Run σ) : OperationTail c (Task.startStep g a op r).1 := by
  cases op with
  | set i v =>
    simp only [Task.startStep]
    split
    · refine .event _ _ ?_
      split
      · exact .answer _ ha
      · exact .attempt ha
    · exact .answer _ ha
  | fire => exact .attempt ha
  | read q => exact .answer _ ha
  | setEnabled on => exact .event _ _ (.answer _ ha)
  | setDebug on => exact .event _ _ (.answer _ ha)
  | _ =>
    simp only [Task.startStep]
    split
    · exact .event _ _ (.answer _ ha)
    · exact .answer _ ha

theorem operationTail_attemptStep (g : Gate σ δ) {a : Activity} (ha : a.caller = c) (r : Run σ) :
    OperationTail c (Task.attemptStep g a r).1 := by
  by_cases hready : ∃ args, g.decision r.state = .ready args
  · obtain ⟨args, hready⟩ := hready
    rw [Task.attemptStep_ready hready]
    refine .event _ _ ?_
    split
    · exact .sweep a (.call args ha)
    · exact .call args ha
  · rcases Task.attemptStep_not_ready (a := a) (not_exists.1 hready) with h | ⟨e, traced, h⟩
    · rw [h]
      exact .answer _ ha
    · rw [h]
      exact .event _ _ (.answer _ ha)

/-- The first task of what is left of an operation. -/
theorem OperationTail.step {t : Task σ} {own behind : Agenda σ} {r : Run σ} {h : History σ}
    (hr : r.Undisturbed) (hu : r.unwinding = false)
    (hown : OperationTail (callerWithin h.openCalls) (t :: own)) (hbehind : Behind h.openCalls behind) :
    ∃ new : History σ, (t.step g r).2.history = new ++ r.history ∧
      Stacked (t.step g r).2.state (new ++ h) ((t.step g r).1 ++ (own ++ behind)) := by
  obtain ⟨new, s, heffect, hstate, hnew⟩ := Task.step_effect g hu t
  refine ⟨new, hnew, ?_⟩
  -- unless it is a call, a task leaves the calls that are open alone
  have hwithin {next : Agenda σ} (hopen : History.openCalls (new ++ h) = h.openCalls)
      (hnext : OperationTail (callerWithin h.openCalls) next) :
      Stacked (t.step g r).2.state (new ++ h) (next ++ behind) :=
    .within (hopen.symm ▸ hnext) (hopen.symm ▸ hbehind)
  cases hown with
  | start op =>
    have hnext := operationTail_startStep g (a := ⟨r.begun, callerWithin h.openCalls⟩) rfl op
      { r with
        begun := r.begun + 1
        history := .began ⟨r.begun, callerWithin h.openCalls⟩ op :: r.history }
    rw [← Task.step_start hu] at hnext
    refine hwithin ?_ hnext
    cases heffect <;> rfl
  | @attempt a caller =>
    have hnext := operationTail_attemptStep g caller r
    rw [← Task.step_attempt hu] at hnext
    refine hwithin ?_ hnext
    cases heffect
    rfl
  | @call a args caller =>
    cases heffect
    have hcall (s : Script σ) : Stacked r.state (.called a args :: h)
        (ofScript s ++ .leave a :: .finish a (.flag true) :: behind) :=
      .between (.call s caller hbehind) fun _ => .called a args h
    cases hs : r.scripts with
    | nil =>
      rw [Task.step_call_nil hu hs]
      exact hcall []
    | cons s left =>
      rw [Task.step_call_cons hu hs, List.append_assoc]
      exact hcall s
  | @answer a x caller =>
    rw [Task.step_finish hu]
    cases heffect
    refine .between hbehind fun hopen => ?_
    obtain ⟨id, c⟩ := a
    obtain rfl : c = .script := caller.trans (callerWithin_of_ne_nil hopen)
    exact .answered id x h
  | event e traced hrest =>
    have htasks := (step_emit g (t := .emit e traced) trivial hu hr.reactions).1
    rw [htasks]
    refine hwithin ?_ hrest
    cases heffect <;> rfl
  | sweep b hrest =>
    have hnext : OperationTail (callerWithin h.openCalls) ((Task.sweepStep b r).1 ++ own) := by
      unfold Task.sweepStep
      split
      · exact .event _ _ hrest
      · exact hrest
    rw [← Task.step_sweep hu] at hnext
    rw [← List.append_assoc]
    refine hwithin ?_ hnext
    cases heffect
    rfl

/-- The first task behind an operation. -/
theorem Behind.step {t : Task σ} {rest : Agenda σ} {r : Run σ} {h : History σ}
    (hr : r.Undisturbed) (hu : r.unwinding = false) (ht : t ≠ .panic)
    (hbehind : Behind h.openCalls (t :: rest)) :
    ∃ new : History σ, (t.step g r).2.history = new ++ r.history ∧
      Stacked (t.step g r).2.state (new ++ h) ((t.step g r).1 ++ rest) := by
  generalize hcalls : h.openCalls = calls at hbehind
  generalize htasks : t :: rest = tasks at hbehind
  cases hbehind with
  | top => cases htasks
  | @call a calls rest' s caller hrest =>
    cases s with
    | nil =>
      cases htasks
      have hopen : History.openCalls (.returned a :: h) = calls := by
        simp [History.openCalls, hcalls]
      have hown : OperationTail (callerWithin (History.openCalls (.returned a :: h)))
          ([.finish a (.flag true)] : Agenda σ) := by
        rw [hopen]
        exact .answer (.flag true) caller
      have hrest' : Behind (History.openCalls (.returned a :: h)) rest' := by rwa [hopen]
      have hstacked : Stacked r.state (.returned a :: h) ([.finish a (.flag true)] ++ rest') :=
        .within hown hrest'
      rw [Task.step_leave hu]
      exact ⟨[.returned a], rfl, hstacked⟩
    | cons c s =>
      cases htasks
      cases c with
      | panic => exact absurd rfl ht
      | perform op =>
        have hown : OperationTail (callerWithin h.openCalls) [.start .script op] := by
          rw [hcalls]
          exact .start op
        have hrest' : Behind h.openCalls
            (ofScript s ++ .leave a :: .finish a (.flag true) :: rest') := by
          rw [hcalls]
          exact .call s caller hrest
        have hstep := OperationTail.step (g := g) hr hu hown hrest'
        exact hstep

/-- One task of a stacked agenda, and the moments that it adds. -/
theorem Stacked.step {t : Task σ} {rest : Agenda σ} {r : Run σ} {h : History σ} (hr : r.Undisturbed)
    (hu : r.unwinding = false) (ht : t ≠ .panic) (hs : Stacked r.state h (t :: rest)) :
    ∃ new : History σ, (t.step g r).2.history = new ++ r.history ∧
      Stacked (t.step g r).2.state (new ++ h) ((t.step g r).1 ++ rest) := by
  generalize htasks : t :: rest = tasks at hs
  cases hs with
  | @within own behind hown hbehind =>
    cases own with
    | nil => cases hown
    | cons u own =>
      cases htasks
      exact hown.step hr hu hbehind
  | between hbehind =>
    subst htasks
    exact hbehind.step hr hu ht

end Agenda

namespace Run

open Agenda

variable {g : Gate σ δ}

/-- Wherever one gets to from the beginning of an operation of the top, the agenda is the stack of the
calls that are open. -/
theorem CalmPath.stacked {tasks tasks' : Agenda σ} {r r' : Run σ} {h : History σ}
    (hpath : CalmPath g tasks r tasks' r') (hr : r.Undisturbed) (hs : Stacked r.state h tasks) :
    ∃ new : History σ, r'.history = new ++ r.history ∧ Stacked r'.state (new ++ h) tasks' := by
  induction hpath generalizing h with
  | here => exact ⟨[], rfl, hs⟩
  | @task t rest tasks' r r' calm ht _ ih =>
    obtain ⟨new, hnew, hstep⟩ := hs.step (g := g) hr calm ht
    obtain ⟨late, hlate, hend⟩ := ih (hr.step t) hstep
    exact ⟨late ++ new, by rw [hlate, hnew, List.append_assoc], by rwa [List.append_assoc]⟩

end Run

end SlotGate
