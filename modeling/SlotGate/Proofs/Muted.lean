import SlotGate.Proofs.Course

/-!
# A run with debug muted

Whatever a run does can be written down with the debug flag off throughout: without its events, with the
flag off in every state, and with no word on what set_debug was given or answered. What is written down is
a run itself, of the gate that never has debug on. So nothing else that a run does depends on the flag.
-/
namespace SlotGate

variable {σ : Signature} {δ : Type}

namespace Operation

/-- The same operation, but debug is set to `on`. -/
def withDebug (on : Bool) : Operation σ → Operation σ
  | setDebug _ => setDebug on
  | op => op

/-- An answer to the operation, without what it tells of the debug flag. -/
def mute (x : Answer σ) : Operation σ → Answer σ
  | setDebug _ | read .debug => .flag false
  | read .state =>
    match x with
    | .state s => .state (s.withDebug false)
    | x => x
  | _ => x

end Operation

def Command.withDebug (on : Bool) : Command σ → Command σ
  | .perform op => .perform (op.withDebug on)
  | .panic => .panic

/-- The same gate, with debug `on` when it is built and whenever its delegate sets it. -/
def Gate.withDebug (g : Gate σ (Delegate σ)) (on : Bool) : Gate σ (Delegate σ) :=
  { g with
    settings := { g.settings with debug := on }
    delegate := g.delegate.map fun d => ⟨d.scripts.map (List.map (Command.withDebug on))⟩ }

def Change.mute : Change σ → Change σ
  | .debugSet _ => .debugSet false
  | c => c

def Event.mute : Event σ → Event σ
  | .debugChanged _ => .debugChanged false
  | e => e

namespace History

/-- The operation of an activity. -/
def operation? (a : Activity) : History σ → Option (Operation σ)
  | [] => none
  | .began b op :: before => if b = a then some op else operation? a before
  | _ :: before => operation? a before

/-- What the activity `a` answers, without what it tells of the debug flag. -/
def muteAnswer (h : History σ) (a : Activity) (x : Answer σ) : Answer σ :=
  ((h.operation? a).map (Operation.mute x)).getD x

end History

def Moment.mute (before : History σ) : Moment σ → Moment σ
  | .began a op => .began a (op.withDebug false)
  | .changed a c s => .changed a c.mute (s.withDebug false)
  | .finished a x s => .finished a (before.muteAnswer a x) (s.withDebug false)
  | m => m

namespace History

/-- A history without its events and without the debug flag. -/
def mute : History σ → History σ
  | [] => []
  | .emitted .. :: before => mute before
  | m :: before => m.mute before :: mute before

end History

def Task.mute (h : History σ) : Task σ → Task σ
  | start caller op => start caller (op.withDebug false)
  | emit e _ => emit e.mute false
  | finish a x => finish a (h.muteAnswer a x)
  | t => t

def Run.mute (r : Run σ) : Run σ where
  state := r.state.withDebug false
  scripts := r.scripts.map (List.map (Command.withDebug false))
  reactions := r.reactions
  dispatch := .registering []
  met := []
  reacting := r.reacting
  unwinding := r.unwinding
  begun := r.begun
  history := r.history.mute

theorem Operation.mute_of_fires {op : Operation σ} (h : op.fires = true) (x : Answer σ) :
    op.mute x = x := by
  cases op <;> first | rfl | cases h

theorem Operation.withDebug_withDebug (on on' : Bool) (op : Operation σ) :
    (op.withDebug on).withDebug on' = op.withDebug on' := by
  cases op <;> rfl

theorem Command.withDebug_withDebug (on on' : Bool) (c : Command σ) :
    (c.withDebug on).withDebug on' = c.withDebug on' := by
  cases c with
  | perform op => exact congrArg Command.perform (op.withDebug_withDebug on on')
  | panic => rfl

namespace Gate

variable (g : Gate σ (Delegate σ)) (on : Bool)

theorem withDebug_withDebug (on' : Bool) : (g.withDebug on).withDebug on' = g.withDebug on' := by
  have hcommand : Command.withDebug (σ := σ) on' ∘ Command.withDebug on = Command.withDebug on' :=
    funext fun c => c.withDebug_withDebug on on'
  unfold withDebug
  cases g.delegate with
  | none => rfl
  | some d => simp [hcommand]

theorem isBound_withDebug : (g.withDebug on).isBound = g.isBound := Option.isSome_map

theorem info_withDebug : (g.withDebug on).info = g.info := by
  have hbound := g.isBound_withDebug on
  unfold info describe describeLines describedFields
  rw [hbound]
  rfl

theorem decision_withDebug (s : State σ) (b : Bool) :
    (g.withDebug on).decision (s.withDebug b) = g.decision s := by
  have hbound := g.isBound_withDebug on
  unfold decision
  rw [hbound]
  rfl

end Gate

theorem Gate.answer_mute (g : Gate σ (Delegate σ)) (s : State σ) (q : Query σ) :
    q.answer (g.withDebug false) (s.withDebug false) = (Operation.read q).mute (q.answer g s) := by
  cases q with
  | gateInfo => exact congrArg Answer.gate (g.info_withDebug false)
  | _ => rfl

theorem Change.mute_apply (s : State σ) (c : Change σ) :
    c.mute.apply (s.withDebug false) = (c.apply s).withDebug false := by
  cases c <;> rfl

theorem Operation.opening_withDebug (s : State σ) (op : Operation σ) :
    (op.withDebug false).opening (s.withDebug false) = (op.opening s).map Change.mute := by
  have henabled : (s.withDebug false).enabled = s.enabled := rfl
  cases op <;> simp only [withDebug, opening, henabled] <;> (try split) <;> rfl

namespace Task

variable {g : Gate σ (Delegate σ)} {a : Activity}

theorem startStep_mute {op : Operation σ} {r : Run σ} (hop : r.history.operation? a = some op) :
    startStep (g.withDebug false) a (op.withDebug false) r.mute =
      ((startStep g a op r).1.map (mute r.history), (startStep g a op r).2.mute) := by
  have hanswer : ∀ x, r.history.muteAnswer a x = op.mute x := by simp [History.muteAnswer, hop]
  have henabled : r.mute.state.enabled = r.state.enabled := rfl
  refine Prod.ext ?_ ?_
  · have hpolicy : (g.withDebug false).settings.nullPolicy = g.settings.nullPolicy := rfl
    cases op with
    | read q => exact congrArg (fun x => [finish a x]) ((g.answer_mute r.state q).trans (hanswer _).symm)
    | fire => rfl
    | setEnabled | setDebug => simp only [startStep, List.map_cons, mute, hanswer]; rfl
    | set i v =>
      simp only [Operation.withDebug, startStep, henabled, hpolicy]
      split
      · split <;> simp only [List.map_cons, mute, hanswer] <;> rfl
      · simp only [List.map_cons, mute, hanswer]; rfl
    | assign | clearSlot | clear =>
      simp only [Operation.withDebug, startStep, henabled]
      split <;> simp only [List.map_cons, mute, hanswer] <;> rfl
  · rw [startStep_run, startStep_run]
    change ((op.withDebug false).opening (r.state.withDebug false)).elim r.mute _ = _
    rw [Operation.opening_withDebug]
    cases op.opening r.state with
    | none => rfl
    | some c =>
      change Run.change r.mute a c.mute (c.mute.apply (r.state.withDebug false)) = _
      rw [Change.mute_apply]
      rfl

theorem attemptStep_mute {r : Run σ} {op : Operation σ} (hop : r.history.operation? a = some op)
    (hfires : op.fires = true) :
    attemptStep (g.withDebug false) a r.mute =
      ((attemptStep g a r).1.map (mute r.history), (attemptStep g a r).2.mute) := by
  have hanswer : ∀ x, r.history.muteAnswer a x = x := by
    simp [History.muteAnswer, hop, Operation.mute_of_fires hfires]
  have hdecision : (g.withDebug false).decision r.mute.state = g.decision r.state :=
    g.decision_withDebug false r.state false
  have hsettings : (g.withDebug false).settings.oneShot = g.settings.oneShot := rfl
  simp only [attemptStep, hdecision, hsettings]
  split
  · simp only [List.map_cons, mute, hanswer]; rfl
  · simp only [List.map_cons, mute, hanswer]; rfl
  · simp only [List.map_cons, mute, hanswer]; rfl
  · split <;> simp only [List.map_cons, List.map_append, mute, hanswer] <;> rfl

theorem sweepStep_mute (r : Run σ) :
    sweepStep a r.mute = ((sweepStep a r).1.map (mute r.history), (sweepStep a r).2.mute) := by
  have henabled : r.mute.state.enabled = r.state.enabled := rfl
  simp only [sweepStep, henabled]
  split
  · next he =>
    have hs : r.mute.state.vacateAll = r.state.vacateAll.withDebug false := by
      simp [State.vacateAll, State.withDebug, he, Run.mute]
    rw [hs]
    rfl
  · rfl

/-- An event that no one acts on leaves nothing behind but itself. -/
theorem emitStep_mute (e : Event σ) (traced : Bool) {r : Run σ} (h : r.reactions = []) :
    (emitStep e traced r).2.mute = r.mute := by
  unfold emitStep
  split
  · rfl
  · simp only [Run.note, Run.meet, h, takeReaction]
    split <;> simp [Run.mute, History.mute, h]

theorem callStep_mute (args : σ.Arguments) (r : Run σ) (h : History σ) :
    callStep a args r.mute = ((callStep a args r).1.map (mute h), (callStep a args r).2.mute) := by
  simp only [callStep, Run.note]
  have hscripts : r.mute.scripts = r.scripts.map (List.map (Command.withDebug false)) := rfl
  rw [hscripts]
  cases r.scripts with
  | nil => rfl
  | cons s rest =>
    have hs : Agenda.ofScript (s.map (Command.withDebug false)) = (Agenda.ofScript s).map (mute h) := by
      simp only [Agenda.ofScript, List.map_map]
      refine List.map_congr_left fun c _ => ?_
      cases c <;> rfl
    simp only [List.map_cons, hs, List.map_append]
    rfl

end Task

namespace Task

variable {g : Gate σ (Delegate σ)}

/-- A task begins no activity but the next one. -/
theorem Effect.operation?_eq {r : Run σ} {t : Task σ} {new : History σ} {s : State σ}
    (h : Effect r t new s) {a : Activity} (ha : a.id < r.begun) (before : History σ) :
    History.operation? a (new ++ before) = before.operation? a := by
  have hne : ∀ caller, (⟨r.begun, caller⟩ : Activity) ≠ a := by
    rintro caller rfl
    exact Nat.lt_irrefl _ ha
  cases h <;> simp [History.operation?, hne]

/-- Only an operation that may fire attempts to. -/
theorem attempt_of_mem_step {t : Task σ} {r : Run σ} {a : Activity} (hu : r.unwinding = false)
    (h : attempt a ∈ (t.step g r).1) :
    ∃ caller op, t = start caller op ∧ a = ⟨r.begun, caller⟩ ∧ op.fires = true := by
  cases successor_of_mem_step h with
  | @attempt caller op =>
    let a : Activity := ⟨r.begun, caller⟩
    let begun : Run σ := { r with begun := r.begun + 1, history := .began a op :: r.history }
    have hstep : (start caller op).step g r = startStep g a op begun := step_start hu caller op
    rw [hstep] at h
    refine ⟨caller, op, rfl, rfl, ?_⟩
    rcases startStep_isOf g a op begun with ⟨-, hfires⟩ | ⟨hanswer, -⟩
    · exact hfires
    · have hown : (attempt a : Task σ).isOf a = true := by simp [isOf]
      have hmem := List.mem_filter.2 ⟨h, hown⟩
      rw [hanswer] at hmem
      simp at hmem

end Task

namespace Run

variable {g : Gate σ (Delegate σ)}

/-- Whatever is on the agenda for an activity, the activity has begun; and if it is to attempt to fire, it
is a fire or a set. -/
structure Named (tasks : Agenda σ) (r : Run σ) : Prop where
  begun : ∀ t ∈ tasks, ∀ a, t.isOf a = true → a.id < r.begun
  attempts : ∀ a, .attempt a ∈ tasks → ∃ op, r.history.operation? a = some op ∧ op.fires = true

theorem Named.mute_eq {t : Task σ} {rest : Agenda σ} {r : Run σ} (h : Named (t :: rest) r)
    (hu : r.unwinding = false) :
    rest.map (Task.mute (t.step g r).2.history) = rest.map (Task.mute r.history) := by
  obtain ⟨new, s, heffect, -, hnew⟩ := Task.step_effect g hu t
  refine List.map_congr_left fun u hu => ?_
  cases u with
  | finish a x =>
    have ha := h.begun _ (List.mem_cons_of_mem _ hu) a (by simp [Task.isOf])
    simp [Task.mute, History.muteAnswer, hnew, heffect.operation?_eq ha]
  | _ => rfl

theorem named_step {t : Task σ} {rest : Agenda σ} {r : Run σ} (h : Named (t :: rest) r)
    (hu : r.unwinding = false) : Named ((t.step g r).1 ++ rest) (t.step g r).2 := by
  obtain ⟨new, s, heffect, -, hnew⟩ := Task.step_effect g hu t
  have hbegun := (Task.step_frame g hu t).begun
  have hle : r.begun ≤ (t.step g r).2.begun := by
    rw [hbegun]
    split <;> omega
  constructor
  case begun =>
    intro u hmem a ha
    rcases List.mem_append.1 hmem with hmem | hmem
    · rcases Task.isOf_of_mem_step hmem ha with ht | ⟨caller, op, rfl, rfl⟩
      · exact Nat.lt_of_lt_of_le (h.begun t List.mem_cons_self a ht) hle
      · rw [hbegun]
        exact Nat.lt_succ_self _
    · exact Nat.lt_of_lt_of_le (h.begun u (List.mem_cons_of_mem _ hmem) a ha) hle
  case attempts =>
    intro a hmem
    rw [hnew]
    rcases List.mem_append.1 hmem with hmem | hmem
    · obtain ⟨caller, op, rfl, rfl, hfires⟩ := Task.attempt_of_mem_step hu hmem
      refine ⟨op, ?_, hfires⟩
      cases heffect <;> simp [History.operation?]
    · have ha := h.begun _ (List.mem_cons_of_mem _ hmem) a (by simp [Task.isOf])
      rw [heffect.operation?_eq ha]
      exact h.attempts a (List.mem_cons_of_mem _ hmem)

/-- What a task does, muted, is what the muted task does. -/
theorem step_mute {t : Task σ} {rest : Agenda σ} {r : Run σ} (h : Named (t :: rest) r)
    (hu : r.unwinding = false) (hr : r.reactions = []) :
    (t.mute r.history).step (g.withDebug false) r.mute =
      ((t.step g r).1.map (Task.mute (t.step g r).2.history), (t.step g r).2.mute) := by
  have hu' : r.mute.unwinding = false := hu
  cases t with
  | start caller op =>
    let a : Activity := ⟨r.begun, caller⟩
    let begun : Run σ := { r with begun := r.begun + 1, history := .began a op :: r.history }
    have hstep : (Task.start caller op).step g r = Task.startStep g a op begun :=
      Task.step_start hu caller op
    have hstep' : ((Task.start caller op).mute r.history).step (g.withDebug false) r.mute =
        Task.startStep (g.withDebug false) a (op.withDebug false) begun.mute :=
      Task.step_start hu' caller (op.withDebug false)
    have hop : begun.history.operation? a = some op := by simp [begun, History.operation?]
    have hlater : Task.mute (Task.startStep g a op begun).2.history = Task.mute begun.history := by
      rw [Task.startStep_run]
      cases op.opening begun.state <;> rfl
    rw [hstep, hstep', hlater]
    exact Task.startStep_mute hop
  | emit e traced =>
    simp only [Task.mute, Task.step, hu', hu, Bool.false_eq_true, if_false]
    rw [Task.emitStep_agenda e traced hr, Task.emitStep_mute e traced hr]
    rfl
  | attempt a =>
    obtain ⟨op, hop, hfires⟩ := h.attempts a List.mem_cons_self
    simp only [Task.mute, Task.step, hu', hu, Bool.false_eq_true, if_false]
    rw [Task.attemptStep_mute hop hfires]
    rw [Task.attemptStep_run]
    rfl
  | sweep a =>
    simp only [Task.mute, Task.step, hu', hu, Bool.false_eq_true, if_false]
    rw [Task.sweepStep_mute, Task.sweepStep_run]
    rfl
  | call a args =>
    simp only [Task.mute, Task.step, hu', hu, Bool.false_eq_true, if_false]
    exact Task.callStep_mute args r _
  | _ =>
    simp only [Task.mute, Task.step, hu', hu, Bool.false_eq_true, if_false]
    rfl

/-- A run on which no subscriber acts stays one. -/
theorem advance_alone {tasks : Agenda σ} {r : Run σ} (hr : r.reactions = []) :
    (advance g tasks r).reactions = [] := by
  fun_induction advance g tasks r with
  | case1 => exact hr
  | case2 r t rest ih =>
    cases hu : r.unwinding with
    | true => exact ih (by rw [Task.step_of_unwinding hu]; exact hr)
    | false => exact ih ((Task.step_frame g hu t).alone hr)

/-- The run of an agenda, muted, is the run of the muted agenda. -/
theorem advance_mute {tasks : Agenda σ} {r : Run σ} (h : Named tasks r) (hr : r.reactions = []) :
    advance (g.withDebug false) (tasks.map (Task.mute r.history)) r.mute = (advance g tasks r).mute := by
  fun_induction advance g tasks r with
  | case1 => exact advance_nil _ _
  | case2 r t rest ih =>
    rw [List.map_cons, advance_cons]
    cases hu : r.unwinding with
    | true =>
      have hstep := Task.step_of_unwinding (g := g) hu t
      rw [Task.step_of_unwinding (r := r.mute) hu]
      rw [hstep] at ih ⊢
      refine ih ⟨fun u hu => h.begun u (List.mem_cons_of_mem _ hu),
        fun a ha => h.attempts a (List.mem_cons_of_mem _ ha)⟩ hr
    | false =>
      -- the tasks behind `t` answer for operations that have begun, so a longer history hides the same
      rw [step_mute h hu hr, ← h.mute_eq hu, ← List.map_append]
      exact ih (named_step h hu) ((Task.step_frame g hu t).alone hr)

theorem perform_alone {r : Run σ} (hr : r.reactions = []) (op : Operation σ) :
    (perform g r op).reactions = [] := advance_alone hr

theorem perform_mute {r : Run σ} (hr : r.reactions = []) (op : Operation σ) :
    perform (g.withDebug false) r.mute (op.withDebug false) = (perform g r op).mute := by
  have hnamed : Named [.start .top op] r := ⟨by simp [Task.isOf], by simp⟩
  exact congrArg settled (advance_mute hnamed hr)

/-- A whole run, muted, is the run of the gate that never has debug on. -/
theorem performAll_mute (ops : List (Operation σ)) {r : Run σ} (hr : r.reactions = []) :
    performAll (g.withDebug false) r.mute (ops.map (Operation.withDebug false)) =
      (performAll g r ops).mute := by
  induction ops generalizing r with
  | nil => rfl
  | cons op ops ih =>
    rw [List.map_cons]
    change performAll _ (perform _ r.mute (op.withDebug false)) _ = _
    rw [perform_mute hr]
    exact ih (perform_alone hr op)

theorem state_reports_mute (ops : List (Operation σ)) {r : Run σ} (hr : r.reactions = []) :
    (reports (g.withDebug false) r.mute (ops.map (Operation.withDebug false))).map Report.state =
      (reports g r ops).map fun x => x.state.withDebug false := by
  induction ops generalizing r with
  | nil => rfl
  | cons op ops ih =>
    simp only [List.map_cons, reports, perform_mute hr, ih (perform_alone hr op)]
    rfl

theorem start_mute (g : Gate σ (Delegate σ)) (dispatch : Dispatch) :
    (start g [] dispatch).mute = start (g.withDebug false) [] (.registering []) := by
  have hscripts : ((g.delegate.map Delegate.scripts).getD []).map (List.map (Command.withDebug false)) =
      ((g.withDebug false).delegate.map Delegate.scripts).getD [] := by
    cases hd : g.delegate <;> simp [Gate.withDebug, hd]
  unfold start mute
  rw [← hscripts]
  rfl

end Run

end SlotGate
