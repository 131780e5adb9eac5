import SlotGate.Run.Basic

/-!
# What one task does

One law for each kind of task: the change it makes to the state, the moment it adds to the history,
the tasks it puts on the agenda. Proofs about runs use these laws and do not open the steps again.
-/
namespace SlotGate

variable {σ : Signature} {δ : Type}

namespace Change

/-- What a change makes of a state. Whether a section makes it is not decided here. -/
def apply (s : State σ) : Change σ → State σ
  | stored i v => { s with slots := s.slots.put i (.filled ((σ.type i).stored v)) }
  | slotCleared i => { s with slots := s.slots.put i .vacant }
  | cleared _ => { s with slots := .vacant }
  | enabledSet on => { s with enabled := on }
  | debugSet on => { s with debug := on }
  | refused | copied | looked => s

end Change

namespace Operation

/-- What the first critical section of an operation does to a state; an attempt to fire has none
before the one that copies the slots. -/
def opening (s : State σ) : Operation σ → Option (Change σ)
  | set i v | assign i v => some (if s.enabled then .stored i v else .refused)
  | clearSlot i => some (if s.enabled then .slotCleared i else .refused)
  | clear => some (if s.enabled then .cleared false else .refused)
  | fire => none
  | setEnabled on => some (.enabledSet on)
  | setDebug on => some (.debugSet on)
  | read _ => some .looked

theorem opening_ne_copied (s : State σ) (op : Operation σ) : op.opening s ≠ some .copied := by
  cases op <;> simp only [opening] <;> (try split) <;> simp

/-- Only an attempt to fire empties the slots without being asked. -/
theorem opening_ne_cleared_true (s : State σ) (op : Operation σ) :
    op.opening s ≠ some (.cleared true) := by
  cases op <;> simp only [opening] <;> (try split) <;> simp

end Operation

namespace Task

/-- Only the operations of the top are not part of another operation. -/
def Nested : Task σ → Prop
  | start .top _ => False
  | _ => True

theorem startStep_run (g : Gate σ δ) (a : Activity) (op : Operation σ) (r : Run σ) :
    (startStep g a op r).2 =
      (op.opening r.state).elim r fun c => r.change a c (c.apply r.state) := by
  cases op <;> simp only [startStep, Operation.opening] <;> (try split) <;>
    simp_all [Change.apply, State.store, State.vacate, State.vacateAll, State.withEnabled,
      State.withDebug]

/-- The first section is followed by an event, an attempt to fire and the answer at most. -/
theorem mem_startStep {g : Gate σ δ} {a : Activity} {op : Operation σ} {r : Run σ} {t : Task σ}
    (h : t ∈ (startStep g a op r).1) :
    (∃ e traced, t = emit e traced) ∨ t = attempt a ∨ ∃ answer, t = finish a answer := by
  cases op <;> simp only [startStep] at h <;> (repeat' split at h) <;> simp at h <;> grind

/-- Whether a task is an attempt of `a` to fire. -/
def isAttemptOf (a : Activity) : Task σ → Bool
  | attempt b => b = a
  | _ => false

theorem countP_attempts_startStep (g : Gate σ δ) (a : Activity) (op : Operation σ) (r : Run σ)
    (b : Activity) : (startStep g a op r).1.countP (isAttemptOf b) ≤ 1 := by
  cases op <;> simp only [startStep] <;> (repeat' split) <;>
    simp [isAttemptOf, List.countP_cons] <;> (try split) <;> simp

theorem attempt_mem_startStep_set {g : Gate σ δ} {a : Activity} {i : Fin σ.arity}
    {v : (σ.type i).Carrier} {r : Run σ} (h : r.state.enabled = true)
    (hv : (σ.type i).isNull v = false ∨ g.settings.nullPolicy = .fire) :
    attempt a ∈ (startStep g a (.set i v) r).1 := by
  rcases hv with hv | hv <;> simp [startStep, h, hv]

end Task

theorem Gate.decision_eq_ready_iff {g : Gate σ δ} {s : State σ} {args : σ.Arguments} :
    g.decision s = .ready args ↔
      s.enabled = true ∧ g.isBound = true ∧ s.slots.allSet = true ∧ args = s.slots.arguments := by
  unfold Gate.decision
  cases s.enabled <;> cases g.isBound <;> cases s.slots.allSet <;> simp [eq_comm]

namespace Task

/-- An attempt leaves the state alone. It copies the slots of an enabled gate. -/
theorem attemptStep_run (g : Gate σ δ) (a : Activity) (r : Run σ) :
    (attemptStep g a r).2 =
      r.change a (if r.state.enabled then .copied else .refused) r.state := by
  unfold attemptStep Gate.decision
  cases he : r.state.enabled
  · simp [he]
  · cases hb : g.isBound <;> cases hs : r.state.slots.allSet <;> simp [he, hs]

theorem attemptStep_ready {g : Gate σ δ} {a : Activity} {r : Run σ} {args : σ.Arguments}
    (h : g.decision r.state = .ready args) :
    (attemptStep g a r).1 = emit .fired r.state.debug ::
      ((if g.settings.oneShot then [sweep a] else []) ++ [call a args, finish a (.flag true)]) := by
  simp only [attemptStep, h]

/-- An attempt that is not ready ends with `false`, perhaps after an event. -/
theorem attemptStep_not_ready {g : Gate σ δ} {a : Activity} {r : Run σ}
    (h : ∀ args, g.decision r.state ≠ .ready args) :
    (attemptStep g a r).1 = [finish a (.flag false)] ∨
      ∃ e traced, (attemptStep g a r).1 = [emit e traced, finish a (.flag false)] := by
  unfold attemptStep
  simp only
  split
  · exact .inl rfl
  · exact .inr ⟨_, _, rfl⟩
  · exact .inr ⟨_, _, rfl⟩
  · next args hd => exact absurd hd (h args)

theorem sweepStep_run (a : Activity) (r : Run σ) :
    (sweepStep a r).2 =
      r.change a (if r.state.enabled then .cleared true else .refused) r.state.vacateAll := by
  unfold sweepStep State.vacateAll
  split <;> simp_all

theorem mem_sweepStep {a : Activity} {r : Run σ} {t : Task σ} (h : t ∈ (sweepStep a r).1) :
    t = emit .cleared r.state.debug := by
  unfold sweepStep at h
  split at h <;> simp at h
  exact h

theorem step_of_unwinding {g : Gate σ δ} {r : Run σ} (h : r.unwinding = true) (t : Task σ) :
    t.step g r = ([], r) := by
  simp [step, h]

end Task

/-- While a panic unwinds, nothing on the agenda is done. -/
theorem Run.advance_of_unwinding {g : Gate σ δ} {r : Run σ} (h : r.unwinding = true)
    (tasks : Agenda σ) : advance g tasks r = r := by
  induction tasks with
  | nil => exact advance_nil g r
  | cons t rest ih =>
    rw [advance_cons, Task.step_of_unwinding h]
    exact ih

theorem mem_of_takeReaction {message : String} {l rest : List (Reaction σ)} {x : Reaction σ}
    (h : takeReaction message l = some (x, rest)) : x ∈ l ∧ ∀ y ∈ rest, y ∈ l := by
  induction l generalizing rest with
  | nil => simp [takeReaction] at h
  | cons r l ih =>
    unfold takeReaction at h
    split at h
    · cases h
      exact ⟨List.mem_cons_self, fun y hy => List.mem_cons_of_mem _ hy⟩
    · obtain ⟨p, hp, he⟩ := Option.map_eq_some_iff.1 h
      cases he
      obtain ⟨hx, hrest⟩ := ih hp
      refine ⟨List.mem_cons_of_mem _ hx, fun y hy => ?_⟩
      rcases List.mem_cons.1 hy with rfl | hy
      · exact List.mem_cons_self
      · exact List.mem_cons_of_mem _ (hrest y hy)

namespace Task

/-- A subscriber that was never acting when an event came about hears the next one. -/
theorem hears_of_free {r : Run σ} (hr : r.reacting = 0) (hmet : ∀ x ∈ r.met, x.reacting = 0)
    (message : String) : r.hears message = true := by
  unfold Run.hears
  rw [hr]
  exact r.dispatch.attentive r.met message hmet

/-- An event is the subscriber's affair: it changes nothing about the gate and adds one moment at
most. -/
structure Aside (r after : Run σ) : Prop where
  state : after.state = r.state
  scripts : after.scripts = r.scripts
  unwinding : after.unwinding = r.unwinding
  begun : after.begun = r.begun
  reactions : ∀ x ∈ after.reactions, x ∈ r.reactions
  history : after.history = r.history ∨
    ∃ e heard, after.history = .emitted e heard r.state :: r.history

theorem emitStep_aside (e : Event σ) (traced : Bool) (r : Run σ) :
    Aside r (emitStep e traced r).2 := by
  unfold emitStep
  split
  · exact ⟨rfl, rfl, rfl, rfl, fun _ h => h, .inl rfl⟩
  · simp only
    split
    · exact ⟨rfl, rfl, rfl, rfl, fun _ h => h, .inr ⟨e, _, rfl⟩⟩
    · split
      · exact ⟨rfl, rfl, rfl, rfl, fun _ h => h, .inr ⟨e, _, rfl⟩⟩
      · next h =>
        have hrest := (mem_of_takeReaction h).2
        exact ⟨rfl, rfl, rfl, rfl, hrest, .inr ⟨e, _, rfl⟩⟩

theorem mem_emitStep {e : Event σ} {traced : Bool} {r : Run σ} {t : Task σ}
    (h : t ∈ (emitStep e traced r).1) :
    t = listen ∨ ∃ x ∈ r.reactions, ∃ op ∈ x.operations, t = start .subscriber op := by
  unfold emitStep at h
  split at h
  · simp at h
  · simp only at h
    split at h
    · simp at h
    · split at h
      · simp at h
      · next x rest hx =>
        have hmem : x ∈ r.reactions := (mem_of_takeReaction hx).1
        simp only [Agenda.ofReaction, List.mem_append, List.mem_map, List.mem_singleton] at h
        rcases h with ⟨op, hop, rfl⟩ | rfl
        · exact .inr ⟨x, hmem, op, hop, rfl⟩
        · exact .inl rfl

/-- Without reactions nothing follows from an event. -/
theorem emitStep_agenda (e : Event σ) (traced : Bool) {r : Run σ} (h : r.reactions = []) :
    (emitStep e traced r).1 = [] := by
  unfold emitStep
  split
  · rfl
  · simp only [Run.note, Run.meet, h, takeReaction]
    split <;> rfl

/-- A call is noted and uses up a script at most. -/
theorem callStep_run (a : Activity) (args : σ.Arguments) (r : Run σ) :
    ∃ left, (∀ s ∈ left, s ∈ r.scripts) ∧
      (callStep a args r).2 = { r.note (.called a args) with scripts := left } := by
  unfold callStep
  simp only
  split
  · exact ⟨r.scripts, fun _ h => h, rfl⟩
  · next s rest hs =>
    have hr : r.scripts = s :: rest := hs
    exact ⟨rest, fun x hx => hr ▸ List.mem_cons_of_mem _ hx, rfl⟩

theorem mem_callStep {a : Activity} {args : σ.Arguments} {r : Run σ} {t : Task σ}
    (h : t ∈ (callStep a args r).1) : t = leave a ∨ ∃ s ∈ r.scripts, ∃ c ∈ s, t = c.task := by
  unfold callStep at h
  simp only at h
  split at h
  · exact .inl (by simpa using h)
  · next s rest hs =>
    simp only [Agenda.ofScript, List.mem_append, List.mem_map, List.mem_singleton] at h
    have hmem : s ∈ r.scripts := (hs : r.scripts = _) ▸ List.mem_cons_self
    rcases h with ⟨c, hc, rfl⟩ | rfl
    · exact .inr ⟨s, hmem, c, hc, rfl⟩
    · exact .inl rfl

/-- The moments that a task adds to the history, the latest first, and the state that it leaves. -/
inductive Effect (r : Run σ) : Task σ → History σ → State σ → Prop where
  | opened {caller : Caller} {op : Operation σ} {c : Change σ}
      (opens : op.opening r.state = some c) :
      Effect r (start caller op) [.changed ⟨r.begun, caller⟩ c (c.apply r.state),
        .began ⟨r.begun, caller⟩ op] (c.apply r.state)
  | began {caller : Caller} {op : Operation σ} (opens : op.opening r.state = none) :
      Effect r (start caller op) [.began ⟨r.begun, caller⟩ op] r.state
  | silent {e : Event σ} {traced : Bool} : Effect r (emit e traced) [] r.state
  | emitted {e e' : Event σ} {traced heard : Bool} :
      Effect r (emit e traced) [.emitted e' heard r.state] r.state
  | attempted {a : Activity} : Effect r (attempt a)
      [.changed a (if r.state.enabled then .copied else .refused) r.state] r.state
  | swept {a : Activity} : Effect r (sweep a)
      [.changed a (if r.state.enabled then .cleared true else .refused) r.state.vacateAll]
      r.state.vacateAll
  | called {a : Activity} {args : σ.Arguments} : Effect r (call a args) [.called a args] r.state
  | left {a : Activity} : Effect r (leave a) [.returned a] r.state
  | finished {a : Activity} {answer : Answer σ} :
      Effect r (finish a answer) [.finished a answer r.state] r.state
  | listened : Effect r listen [] r.state
  | panicked : Effect r panic [.panicked] r.state

/-- An operation begins, and has its first section at once. -/
theorem step_start {g : Gate σ δ} {r : Run σ} (h : r.unwinding = false) (caller : Caller)
    (op : Operation σ) :
    (start caller op).step g r = startStep g ⟨r.begun, caller⟩ op { r with
      begun := r.begun + 1, history := .began ⟨r.begun, caller⟩ op :: r.history } := by
  unfold step
  rw [if_neg (by simp [h])]

theorem step_attempt {g : Gate σ δ} {r : Run σ} (h : r.unwinding = false) (a : Activity) :
    (attempt a).step g r = attemptStep g a r := by
  simp [step, h]

theorem step_sweep {g : Gate σ δ} {r : Run σ} (h : r.unwinding = false) (a : Activity) :
    (sweep a).step g r = sweepStep a r := by
  simp [step, h]

theorem step_leave {g : Gate σ δ} {r : Run σ} (h : r.unwinding = false) (a : Activity) :
    (leave a).step g r = ([], r.note (.returned a)) := by
  simp [step, h]

theorem step_finish {g : Gate σ δ} {r : Run σ} (h : r.unwinding = false) (a : Activity)
    (answer : Answer σ) :
    (finish a answer).step g r = ([], r.note (.finished a answer r.state)) := by
  simp [step, h]

theorem step_panic {g : Gate σ δ} {r : Run σ} (h : r.unwinding = false) :
    (panic : Task σ).step g r = ([], { r.note .panicked with unwinding := true }) := by
  simp [step, h]

theorem step_effect (g : Gate σ δ) {r : Run σ} (hu : r.unwinding = false) (t : Task σ) :
    ∃ new s, Effect r t new s ∧ (t.step g r).2.state = s ∧
      (t.step g r).2.history = new ++ r.history := by
  unfold step
  rw [if_neg (by simp [hu])]
  cases t with
  | start caller op =>
    simp only [startStep_run]
    cases ho : op.opening r.state with
    | none => exact ⟨_, _, .began ho, rfl, rfl⟩
    | some c => exact ⟨_, _, .opened ho, rfl, rfl⟩
  | emit e traced =>
    have ha := emitStep_aside e traced r
    rcases ha.history with hh | ⟨e', heard, hh⟩
    · exact ⟨_, _, .silent, ha.state, hh⟩
    · exact ⟨_, _, .emitted, ha.state, hh⟩
  | attempt a =>
    simp only [attemptStep_run]
    exact ⟨_, _, .attempted, rfl, rfl⟩
  | sweep a =>
    simp only [sweepStep_run]
    exact ⟨_, _, .swept, rfl, rfl⟩
  | call a args =>
    obtain ⟨left, -, hc⟩ := callStep_run a args r
    simp only [hc]
    exact ⟨_, _, .called, rfl, rfl⟩
  | leave a => exact ⟨_, _, .left, rfl, rfl⟩
  | finish a answer => exact ⟨_, _, .finished, rfl, rfl⟩
  | listen => exact ⟨_, _, .listened, rfl, rfl⟩
  | panic => exact ⟨_, _, .panicked, rfl, rfl⟩

/-- The slots are copied by an attempt to fire, on an enabled gate, as they are. -/
theorem Effect.of_copied {r : Run σ} {t : Task σ} {new : History σ} {s s' : State σ} {a : Activity}
    (h : Effect r t new s) (hm : .changed a .copied s' ∈ new) :
    t = attempt a ∧ new = [.changed a .copied s'] ∧ s' = r.state ∧ r.state.enabled = true := by
  cases h with
  | opened opens =>
    simp only [List.mem_cons, Moment.changed.injEq, List.not_mem_nil, or_false, reduceCtorEq] at hm
    rw [← hm.2.1] at opens
    exact absurd opens (Operation.opening_ne_copied _ _)
  | attempted =>
    simp only [List.mem_singleton, Moment.changed.injEq] at hm
    obtain ⟨rfl, hc, rfl⟩ := hm
    by_cases he : r.state.enabled = true
    · exact ⟨rfl, by rw [if_pos he], rfl, he⟩
    · rw [if_neg he] at hc
      cases hc
  | swept =>
    simp only [List.mem_singleton, Moment.changed.injEq] at hm
    obtain ⟨-, hc, -⟩ := hm
    split at hc <;> cases hc
  | _ => simp at hm

theorem Effect.of_called {r : Run σ} {t : Task σ} {new : History σ} {s : State σ} {a : Activity}
    {args : σ.Arguments} (h : Effect r t new s) (hm : .called a args ∈ new) :
    t = call a args ∧ new = [.called a args] := by
  cases h <;> simp at hm
  obtain ⟨rfl, rfl⟩ := hm
  exact ⟨rfl, rfl⟩

/-- The tasks that can follow from a task: the rest of an operation, a reaction, a script. -/
inductive Successor (g : Gate σ δ) (r : Run σ) : Task σ → Task σ → Prop where
  | event {t : Task σ} {e : Event σ} {traced : Bool} : Successor g r t (emit e traced)
  | answer {t : Task σ} {a : Activity} {answer : Answer σ} : Successor g r t (finish a answer)
  | attempt {caller : Caller} {op : Operation σ} :
      Successor g r (start caller op) (attempt ⟨r.begun, caller⟩)
  | sweep {a : Activity} {args : σ.Arguments} (ready : g.decision r.state = .ready args) :
      Successor g r (attempt a) (sweep a)
  | call {a : Activity} {args : σ.Arguments} (ready : g.decision r.state = .ready args) :
      Successor g r (attempt a) (call a args)
  | reaction {e : Event σ} {traced : Bool} {x : Reaction σ} {op : Operation σ}
      (hx : x ∈ r.reactions) (hop : op ∈ x.operations) :
      Successor g r (emit e traced) (start .subscriber op)
  | listen {e : Event σ} {traced : Bool} : Successor g r (emit e traced) listen
  | script {a : Activity} {args : σ.Arguments} {s : Script σ} {op : Operation σ}
      (hs : s ∈ r.scripts) (hop : .perform op ∈ s) : Successor g r (call a args) (start .script op)
  | panic {a : Activity} {args : σ.Arguments} {s : Script σ}
      (hs : s ∈ r.scripts) (hp : .panic ∈ s) : Successor g r (call a args) panic
  | leave {a : Activity} {args : σ.Arguments} : Successor g r (call a args) (leave a)

theorem successor_of_mem_step {g : Gate σ δ} {r : Run σ} {t u : Task σ}
    (h : u ∈ (t.step g r).1) : Successor g r t u := by
  unfold step at h
  split at h
  · cases h
  · cases t with
    | start caller op =>
      rcases mem_startStep h with ⟨e, traced, rfl⟩ | rfl | ⟨answer, rfl⟩
      · exact .event
      · exact .attempt
      · exact .answer
    | emit e traced =>
      rcases mem_emitStep h with rfl | ⟨x, hx, op, hop, rfl⟩
      · exact .listen
      · exact .reaction hx hop
    | attempt a =>
      by_cases hr : ∃ args, g.decision r.state = .ready args
      · obtain ⟨args, hr⟩ := hr
        simp only [attemptStep_ready hr, List.mem_cons, List.mem_append, List.not_mem_nil,
          or_false] at h
        rcases h with rfl | h | rfl | rfl
        · exact .event
        · split at h <;> simp at h
          subst h
          exact .sweep hr
        · exact .call hr
        · exact .answer
      · change u ∈ (attemptStep g a r).1 at h
        rcases attemptStep_not_ready (a := a) (not_exists.1 hr) with he | ⟨e, traced, he⟩
        · rw [he] at h
          obtain rfl := List.mem_singleton.1 h
          exact .answer
        · rw [he, List.mem_cons, List.mem_singleton] at h
          rcases h with rfl | rfl
          · exact .event
          · exact .answer
    | sweep a => rw [mem_sweepStep h]; exact .event
    | call a args =>
      rcases mem_callStep h with rfl | ⟨s, hs, c, hc, rfl⟩
      · exact .leave
      · cases c with
        | perform op => exact .script hs hc
        | panic => exact .panic hs hc
    | leave a => cases h
    | finish a answer => cases h
    | listen => cases h
    | panic => cases h

/-- No task puts an operation of the top on the agenda. -/
theorem Successor.nested {g : Gate σ δ} {r : Run σ} {t u : Task σ} (h : Successor g r t u) :
    u.Nested := by
  cases h <;> exact trivial

/-- What a task does not touch: scripts and reactions are only used up, operations are numbered as they
begin, and only a panic starts to unwind. -/
structure Frame (t : Task σ) (r after : Run σ) : Prop where
  scripts : ∀ s ∈ after.scripts, s ∈ r.scripts
  reactions : ∀ x ∈ after.reactions, x ∈ r.reactions
  begun : after.begun =
    match t with
    | start .. => r.begun + 1
    | _ => r.begun
  calm : t ≠ panic → after.unwinding = false

theorem step_frame (g : Gate σ δ) {r : Run σ} (hu : r.unwinding = false) (t : Task σ) :
    Frame t r (t.step g r).2 := by
  unfold step
  rw [if_neg (by simp [hu])]
  cases t with
  | start caller op =>
    simp only [startStep_run]
    cases op.opening r.state with
    | none => exact ⟨fun _ h => h, fun _ h => h, rfl, fun _ => hu⟩
    | some c => exact ⟨fun _ h => h, fun _ h => h, rfl, fun _ => hu⟩
  | emit e traced =>
    have ha := emitStep_aside e traced r
    exact ⟨fun s h => ha.scripts ▸ h, ha.reactions, ha.begun, fun _ => ha.unwinding.trans hu⟩
  | attempt a =>
    simp only [attemptStep_run]
    exact ⟨fun _ h => h, fun _ h => h, rfl, fun _ => hu⟩
  | sweep a =>
    simp only [sweepStep_run]
    exact ⟨fun _ h => h, fun _ h => h, rfl, fun _ => hu⟩
  | call a args =>
    obtain ⟨left, hleft, hc⟩ := callStep_run a args r
    simp only [hc]
    exact ⟨hleft, fun _ h => h, rfl, fun _ => hu⟩
  | panic => exact ⟨fun _ h => h, fun _ h => h, rfl, fun hp => absurd rfl hp⟩
  | _ => exact ⟨fun _ h => h, fun _ h => h, rfl, fun _ => hu⟩

/-- A run on which no subscriber acts stays one. -/
theorem Frame.alone {t : Task σ} {r after : Run σ} (hf : Frame t r after) (h : r.reactions = []) :
    after.reactions = [] := by
  refine List.eq_nil_iff_forall_not_mem.2 fun x hx => ?_
  have hmem := hf.reactions x hx
  rw [h] at hmem
  cases hmem

end Task

end SlotGate
