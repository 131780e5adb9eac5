import SlotGate.Proofs.Atomic
import SlotGate.Proofs.Invariant

/-!
# A gate is a gate of atomic operations

Where no subscriber acts on a gate and its delegate does not panic, the critical sections of an
operation leave no trace: the answers, the calls and the states after each operation are those of the
gate of atomic operations. Each operation is followed up to the call that it makes; what the call does
is followed in the same way, for there are fewer scripts left.
-/
namespace SlotGate

open SlotGate.Atomic (Cells Machine Transition Deed Course)

variable {σ : Signature} {δ : Type}

/-- What a moment tells from outside. -/
def Moment.deed? : Moment σ → Option (Deed σ)
  | called _ args => some (.called args)
  | returned _ => some .returned
  | finished a answer s => some (.answered a.caller answer s)
  | _ => none

namespace History

/-- What can be told of a history from outside, the earliest first. -/
def deeds (h : History σ) : List (Deed σ) := h.reverse.filterMap Moment.deed?

theorem deeds_append (new h : History σ) : deeds (new ++ h) = h.deeds ++ new.deeds := by
  simp [deeds]

theorem deeds_cons (m : Moment σ) (h : History σ) :
    deeds (m :: h) = h.deeds ++ m.deed?.toList := by
  rw [← List.singleton_append, deeds_append]
  congr 1

/-- A moment that does not tell anything adds nothing. -/
theorem deeds_cons_silent {m : Moment σ} (hm : m.deed? = none) (h : History σ) :
    deeds (m :: h) = h.deeds := by
  rw [deeds_cons, hm]
  exact List.append_nil _

end History

namespace Atomic

theorem view_put (c : Cells σ) (i : Fin σ.arity) (x : Option (σ.type i).Carrier) :
    (c.put i x).view =
      ⟨c.view.slots.put i ⟨x.getD (σ.type i).default, x.isSome⟩, c.enabled, c.debug⟩ := by
  have hslots : (c.put i x).view.slots =
      c.view.slots.put i ⟨x.getD (σ.type i).default, x.isSome⟩ := by
    funext j
    by_cases h : j = i
    · subst h
      rw [Slots.put_same]
      simp [Cells.view, Cells.put, Cells.value]
    · rw [Slots.put_other _ h]
      simp [Cells.view, Cells.put, Cells.value, Function.update_of_ne h]
  rw [← hslots]
  rfl

theorem view_answer (g : Gate σ δ) (c : Cells σ) (q : Query σ) :
    q.answer g c.view = c.answer g q := by
  cases q with
  | pending => simp [Query.answer, Cells.answer, Gate.pending, Cells.view]
  | _ => rfl

/-- The contents after the first section of an operation. -/
def opened (c : Cells σ) : Operation σ → Cells σ
  | .set i v | .assign i v => if c.enabled then c.put i (some (kept i v)) else c
  | .clearSlot i => if c.enabled then c.put i none else c
  | .clear => if c.enabled then c.reset else c
  | .setEnabled on => { c with enabled := on }
  | .setDebug on => { c with debug := on }
  | .fire | .read _ => c

theorem view_opened (c : Cells σ) (op : Operation σ) :
    (op.opening c.view).elim c.view (fun x => x.apply c.view) = (opened c op).view := by
  have hview : c.view.enabled = c.enabled := rfl
  cases op with
  | set i v | assign i v =>
    simp only [Operation.opening, opened, hview]
    split
    · rw [view_put]
      rfl
    · rfl
  | clearSlot i =>
    simp only [Operation.opening, opened, hview]
    split
    · rw [view_put]
      rfl
    · rfl
  | clear =>
    simp only [Operation.opening, opened, hview]
    split <;> rfl
  | _ => rfl

/-- The tasks that are left of an operation after its transition. -/
def Transition.tasks (t : Transition σ) (a : Activity) : Agenda σ :=
  (t.call.map (Task.call a)).toList ++ [.finish a t.answer]

end Atomic

namespace Run

/-- A run and the machine that it follows. -/
structure Tracks (r : Run σ) (m : Machine σ) : Prop where
  calm : r.unwinding = false
  alone : r.reactions = []
  state : r.state = m.cells.view
  scripts : r.scripts = m.scripts.map (List.map .perform)

/-- Tasks are worked off until others are left. The run follows `m` then, and `deeds` were done. -/
def Reaches (g : Gate σ δ) (tasks : Agenda σ) (r : Run σ) (left : Agenda σ) (m : Machine σ)
    (deeds : List (Deed σ)) : Prop :=
  ∃ after, advance g tasks r = advance g left after ∧ after.Tracks m ∧
    after.history.deeds = r.history.deeds ++ deeds

variable {g : Gate σ δ}

theorem Tracks.note {r : Run σ} {m : Machine σ} (ht : r.Tracks m) (x : Moment σ) :
    (r.note x).Tracks m := ⟨ht.calm, ht.alone, ht.state, ht.scripts⟩

theorem Reaches.refl {r : Run σ} {m : Machine σ} (ht : r.Tracks m) (tasks : Agenda σ) :
    Reaches g tasks r tasks m [] :=
  ⟨r, rfl, ht, (List.append_nil _).symm⟩

theorem Reaches.trans {tasks middle left : Agenda σ} {r : Run σ} {m m' : Machine σ}
    {deeds deeds' : List (Deed σ)} (h : Reaches g tasks r middle m deeds)
    (hnext : ∀ r', Tracks r' m → Reaches g middle r' left m' deeds') :
    Reaches g tasks r left m' (deeds ++ deeds') := by
  obtain ⟨r', hadvance, ht, hdeeds⟩ := h
  obtain ⟨after, hadvance', ht', hdeeds'⟩ := hnext r' ht
  refine ⟨after, hadvance.trans hadvance', ht', ?_⟩
  rw [hdeeds', hdeeds, List.append_assoc]

/-- One task does its deeds, and the rest is reached from there. -/
theorem Reaches.step (deeds : List (Deed σ)) {t : Task σ} {rest left : Agenda σ} {r : Run σ}
    {m : Machine σ} {deeds' : List (Deed σ)}
    (hdeeds : (t.step g r).2.history.deeds = r.history.deeds ++ deeds)
    (h : Reaches g ((t.step g r).1 ++ rest) (t.step g r).2 left m deeds') :
    Reaches g (t :: rest) r left m (deeds ++ deeds') := by
  obtain ⟨after, hadvance, ht, hafter⟩ := h
  refine ⟨after, (advance_cons ..).trans hadvance, ht, ?_⟩
  rw [hafter, hdeeds, List.append_assoc]

/-- Nobody reacts to an event. -/
theorem reaches_emit {r : Run σ} {m : Machine σ} (ht : r.Tracks m) (e : Event σ) (traced : Bool)
    (rest : Agenda σ) : Reaches g (.emit e traced :: rest) r rest m [] := by
  have hside := Task.emitStep_aside e traced r
  have halone := (Task.step_frame g ht.calm (.emit e traced)).alone ht.alone
  have hstep : (Task.emit e traced).step g r = Task.emitStep e traced r := by
    simp [Task.step, ht.calm]
  rw [hstep] at halone
  refine Reaches.step [] ?_ ?_
  · rw [hstep, List.append_nil]
    rcases hside.history with hh | ⟨e', heard, hh⟩
    · rw [hh]
    · rw [hh]
      exact History.deeds_cons_silent rfl _
  · rw [hstep, Task.emitStep_agenda e traced ht.alone]
    refine Reaches.refl ⟨?_, halone, ?_, ?_⟩ rest
    · rw [hside.unwinding, ht.calm]
    · rw [hside.state, ht.state]
    · rw [hside.scripts, ht.scripts]

/-- A task that is noted as a deed. -/
theorem Reaches.noted {t : Task σ} {tasks rest left : Agenda σ} {r : Run σ} {m : Machine σ}
    {x : Moment σ} {d : Deed σ} {deeds : List (Deed σ)}
    (hstep : t.step g r = (tasks, r.note x)) (hx : x.deed? = some d)
    (h : Reaches g (tasks ++ rest) (r.note x) left m deeds) :
    Reaches g (t :: rest) r left m (d :: deeds) := by
  refine Reaches.step [d] ?_ ?_
  · rw [hstep]
    change History.deeds (x :: r.history) = _
    rw [History.deeds_cons, hx]
    rfl
  · rw [hstep]
    exact h

theorem reaches_finish {r : Run σ} {m : Machine σ} (ht : r.Tracks m) (a : Activity)
    (answer : Answer σ) (rest : Agenda σ) :
    Reaches g (.finish a answer :: rest) r rest m [.answered a.caller answer m.cells.view] := by
  have hstep : (Task.finish a answer).step g r = ([], r.note (.finished a answer r.state)) := by
    simp [Task.step, ht.calm]
  rw [← ht.state]
  exact Reaches.noted hstep rfl (Reaches.refl (ht.note _) rest)

theorem reaches_leave {r : Run σ} {m : Machine σ} (ht : r.Tracks m) (a : Activity)
    (rest : Agenda σ) : Reaches g (.leave a :: rest) r rest m [.returned] := by
  have hstep : (Task.leave a).step g r = ([], r.note (.returned a)) := by
    simp [Task.step, ht.calm]
  exact Reaches.noted hstep rfl (Reaches.refl (ht.note _) rest)

/-- A call without a script just returns. -/
theorem reaches_call_nil {r : Run σ} {c : Cells σ} (ht : r.Tracks ⟨c, []⟩) (a : Activity)
    (args : σ.Arguments) (rest : Agenda σ) :
    Reaches g (.call a args :: rest) r rest ⟨c, []⟩ [.called args, .returned] := by
  have hnote := ht.note (.called a args)
  have hstep : (Task.call a args).step g r = ([.leave a], r.note (.called a args)) := by
    simp only [Task.step, ht.calm, Bool.false_eq_true, if_false, Task.callStep]
    rw [hnote.scripts]
    rfl
  exact Reaches.noted hstep rfl (reaches_leave hnote a rest)

/-- A call puts the next script in front of its end. -/
theorem reaches_call_cons {r : Run σ} {c : Cells σ} {s : List (Operation σ)}
    {ss : List (List (Operation σ))} (ht : r.Tracks ⟨c, s :: ss⟩) (a : Activity)
    (args : σ.Arguments) (rest : Agenda σ) :
    Reaches g (.call a args :: rest) r (s.map (.start .script) ++ .leave a :: rest) ⟨c, ss⟩
      [.called args] := by
  let inside : Run σ :=
    { r.note (.called a args) with scripts := ss.map (List.map .perform) }
  have hinside : inside.Tracks ⟨c, ss⟩ := ⟨ht.calm, ht.alone, ht.state, rfl⟩
  have hscripts : (r.note (.called a args)).scripts =
      s.map .perform :: ss.map (List.map .perform) := ht.scripts
  have hstep : (Task.call a args).step g r = (s.map (.start .script) ++ [.leave a], inside) := by
    simp only [Task.step, ht.calm, Bool.false_eq_true, if_false, Task.callStep]
    rw [hscripts]
    simp [Agenda.ofScript, Function.comp_def, Command.task, inside]
  refine Reaches.step [.called args] ?_ ?_
  · rw [hstep]
    exact History.deeds_cons ..
  · rw [hstep, List.append_assoc]
    exact Reaches.refl hinside _

/-- An operation that only has to answer does so, perhaps after an event. -/
theorem reaches_answer {tasks : Agenda σ} {r : Run σ} {m : Machine σ} {a : Activity}
    {answer : Answer σ} (ht : r.Tracks m) (h : tasks = [.finish a answer] ∨
      ∃ e traced, tasks = [.emit e traced, .finish a answer]) (rest : Agenda σ) :
    Reaches g (tasks ++ rest) r (.finish a answer :: rest) m [] := by
  rcases h with rfl | ⟨e, traced, rfl⟩
  · exact Reaches.refl ht _
  · exact reaches_emit ht _ _ _

/-- A sweep leaves the gate without contents. -/
theorem reaches_sweep {r : Run σ} {m : Machine σ} (ht : r.Tracks m) (a : Activity)
    (he : m.cells.enabled = true) (rest : Agenda σ) :
    Reaches g (.sweep a :: rest) r rest ⟨m.cells.reset, m.scripts⟩ [] := by
  have hen : r.state.enabled = true := by
    rw [ht.state]
    exact he
  have hstep : (Task.sweep a).step g r = ([.emit .cleared r.state.debug],
      r.change a (.cleared true) r.state.vacateAll) := by
    simp [Task.step, ht.calm, Task.sweepStep, hen]
  have hempty : (r.change a (.cleared true) r.state.vacateAll).Tracks
      ⟨m.cells.reset, m.scripts⟩ := by
    refine ⟨ht.calm, ht.alone, ?_, ht.scripts⟩
    change r.state.vacateAll = _
    rw [State.vacateAll, if_pos hen, ht.state]
    rfl
  refine Reaches.step [] ?_ ?_
  · rw [hstep, List.append_nil]
    exact History.deeds_cons_silent rfl _
  · rw [hstep]
    exact reaches_emit hempty _ _ rest

/-- An attempt to fire decides as the machine does. -/
theorem reaches_attempt {r : Run σ} {m : Machine σ} (ht : r.Tracks m) (a : Activity)
    (rest : Agenda σ) : Reaches g (.attempt a :: rest) r ((Atomic.fire g m.cells).tasks a ++ rest)
      ⟨(Atomic.fire g m.cells).after, m.scripts⟩ [] := by
  have hrun := Task.attemptStep_run g a r
  have hstep : (Task.attempt a).step g r = Task.attemptStep g a r := by simp [Task.step, ht.calm]
  have hafter : (Task.attemptStep g a r).2.Tracks m := by
    rw [hrun]
    exact ⟨ht.calm, ht.alone, ht.state, ht.scripts⟩
  have hdeeds : (Task.attemptStep g a r).2.history.deeds = r.history.deeds := by
    rw [hrun]
    exact History.deeds_cons_silent rfl _
  refine Reaches.step [] (by rw [hstep, hdeeds, List.append_nil]) ?_
  rw [hstep]
  by_cases hready : (m.cells.enabled && g.isBound && m.cells.complete) = true
  · have hfire : Atomic.fire g m.cells =
        ⟨if g.settings.oneShot then m.cells.reset else m.cells, some m.cells.value, .flag true⟩ :=
      if_pos hready
    simp only [Bool.and_eq_true] at hready
    obtain ⟨⟨hen, hbound⟩, hcomplete⟩ := hready
    have hdecision : g.decision r.state = .ready m.cells.value := by
      rw [ht.state]
      exact Gate.decision_eq_ready_iff.2 ⟨hen, hbound, hcomplete, rfl⟩
    rw [Task.attemptStep_ready hdecision, hfire]
    refine (reaches_emit hafter _ _ _).trans fun r' ht' => ?_
    cases ho : g.settings.oneShot with
    | true => exact reaches_sweep ht' a hen _
    | false => exact Reaches.refl ht' _
  · have hfire : Atomic.fire g m.cells = ⟨m.cells, none, .flag false⟩ := if_neg hready
    have hdecision : ∀ args, g.decision r.state ≠ .ready args := by
      intro args hargs
      rw [ht.state] at hargs
      obtain ⟨hen, hbound, hcomplete, -⟩ := Gate.decision_eq_ready_iff.1 hargs
      apply hready
      simp only [Bool.and_eq_true]
      exact ⟨⟨hen, hbound⟩, hcomplete⟩
    rw [hfire]
    exact reaches_answer hafter (Task.attemptStep_not_ready hdecision) rest

theorem tracks_startStep {r : Run σ} {m : Machine σ} (ht : r.Tracks m) (a : Activity)
    (op : Operation σ) :
    (Task.startStep g a op r).2.Tracks ⟨Atomic.opened m.cells op, m.scripts⟩ ∧
      (Task.startStep g a op r).2.history.deeds = r.history.deeds := by
  have hview := Atomic.view_opened m.cells op
  rw [Task.startStep_run, ht.state]
  cases ho : op.opening m.cells.view with
  | none =>
    rw [ho] at hview
    exact ⟨⟨ht.calm, ht.alone, ht.state.trans hview, ht.scripts⟩, rfl⟩
  | some x =>
    rw [ho] at hview
    refine ⟨⟨ht.calm, ht.alone, hview, ht.scripts⟩, ?_⟩
    exact History.deeds_cons_silent rfl _

/-- After its first section an operation gets to what its transition leaves to be done. -/
theorem reaches_rest {r : Run σ} {m : Machine σ} (ht : r.Tracks m) (a : Activity)
    (op : Operation σ) (rest : Agenda σ) :
    Reaches g ((Task.startStep g a op r).1 ++ rest) (Task.startStep g a op r).2
      ((Atomic.transition g m.cells op).tasks a ++ rest)
      ⟨(Atomic.transition g m.cells op).after, m.scripts⟩ [] := by
  obtain ⟨hopened, -⟩ := tracks_startStep (g := g) ht a op
  have hen : r.state.enabled = m.cells.enabled := by
    rw [ht.state]
    rfl
  cases op with
  | set i v =>
    cases he : m.cells.enabled with
    | false =>
      simp only [Atomic.opened, Atomic.transition, he] at hopened ⊢
      refine reaches_answer hopened (.inl ?_) rest
      simp [Task.startStep, hen, he]
    | true =>
      by_cases hnull : ((σ.type i).isNull v && g.settings.nullPolicy = .suppress) = true
      · simp only [Atomic.opened, Atomic.transition, he, hnull] at hopened ⊢
        refine reaches_answer hopened (.inr ⟨.slotSet i v, r.state.debug, ?_⟩) rest
        simp [Task.startStep, hen, he, hnull]
      · simp only [Atomic.opened, Atomic.transition, he, hnull] at hopened ⊢
        have htasks : (Task.startStep g a (.set i v) r).1 =
            [.emit (.slotSet i v) r.state.debug, .attempt a] := by
          simp [Task.startStep, hen, he, hnull]
        rw [htasks]
        exact (reaches_emit hopened _ _ _).trans fun r' ht' => reaches_attempt ht' a rest
  | assign i v =>
    cases he : m.cells.enabled with
    | false =>
      simp only [Atomic.opened, Atomic.transition, he] at hopened ⊢
      refine reaches_answer hopened (.inl ?_) rest
      simp [Task.startStep, hen, he]
    | true =>
      simp only [Atomic.opened, Atomic.transition, he] at hopened ⊢
      refine reaches_answer hopened (.inr ⟨.slotAssigned i (Atomic.kept i v), r.state.debug, ?_⟩) rest
      simp [Task.startStep, hen, he, Atomic.kept, Value.SlotType.stored]
  | clearSlot i =>
    refine reaches_answer hopened ?_ rest
    cases he : m.cells.enabled with
    | false => exact .inl (by simp [Task.startStep, hen, he, Atomic.transition])
    | true =>
      exact .inr ⟨.slotCleared i, r.state.debug, by simp [Task.startStep, hen, he, Atomic.transition]⟩
  | clear =>
    refine reaches_answer hopened ?_ rest
    cases he : m.cells.enabled with
    | false => exact .inl (by simp [Task.startStep, hen, he, Atomic.transition])
    | true =>
      exact .inr ⟨.cleared, r.state.debug, by simp [Task.startStep, hen, he, Atomic.transition]⟩
  | fire => exact reaches_attempt hopened a rest
  | setEnabled on =>
    exact reaches_answer hopened (.inr ⟨_, _, rfl⟩) rest
  | setDebug on =>
    exact reaches_answer hopened (.inr ⟨_, _, rfl⟩) rest
  | read q =>
    refine reaches_answer hopened (.inl ?_) rest
    simp [Task.startStep, ht.state, Atomic.view_answer, Atomic.transition]

/-- An operation gets to its transition without a deed, and what is left is its call and its answer. -/
theorem reaches_transition {r : Run σ} {m : Machine σ} (ht : r.Tracks m) (caller : Caller)
    (op : Operation σ) (rest : Agenda σ) :
    Reaches g (.start caller op :: rest) r
      ((Atomic.transition g m.cells op).tasks ⟨r.begun, caller⟩ ++ rest)
      ⟨(Atomic.transition g m.cells op).after, m.scripts⟩ [] := by
  let a : Activity := ⟨r.begun, caller⟩
  let r₀ : Run σ := { r with begun := r.begun + 1, history := .began a op :: r.history }
  have ht₀ : r₀.Tracks m := ⟨ht.calm, ht.alone, ht.state, ht.scripts⟩
  have hbegan : r₀.history.deeds = r.history.deeds := History.deeds_cons_silent rfl _
  have hstep : (Task.start caller op).step g r = Task.startStep g a op r₀ := by
    simp [Task.step, ht.calm, r₀, a]
  refine Reaches.step [] ?_ ?_
  · rw [hstep, List.append_nil, ← hbegan]
    exact (tracks_startStep ht₀ a op).2
  · rw [hstep]
    exact reaches_rest ht₀ a op rest

mutual

/-- A call is followed by what its script does, on the gate and on the machine. -/
theorem reaches_deliver (t : Transition σ) (scripts : List (List (Operation σ))) {r : Run σ}
    (ht : r.Tracks ⟨t.after, scripts⟩) (a : Activity) (rest : Agenda σ) :
    Reaches g (t.tasks a ++ rest) r (.finish a t.answer :: rest)
      (Atomic.deliver g t scripts).after (Atomic.deliver g t scripts).deeds := by
  rw [Atomic.deliver]
  obtain ⟨c, call, answer⟩ := t
  cases call with
  | none => exact Reaches.refl ht _
  | some args =>
    cases scripts with
    | nil => exact reaches_call_nil ht a args _
    | cons s ss =>
      have hcall := reaches_call_cons (g := g) ht a args (.finish a answer :: rest)
      -- the script has one script less to call, however many operations it is
      have hscript : ∀ r', Tracks r' ⟨c, ss⟩ → Reaches g
          (s.map (.start .script) ++ .leave a :: .finish a answer :: rest) r'
          (.finish a answer :: rest) (Atomic.obey g .script s ⟨c, ss⟩).after
          ((Atomic.obey g .script s ⟨c, ss⟩).deeds ++ [.returned]) := by
        intro r' ht'
        exact (reaches_obey .script s ht' _).trans fun r'' ht'' => reaches_leave ht'' a _
      exact hcall.trans hscript
termination_by (scripts.length, 0)

theorem reaches_operation (caller : Caller) (op : Operation σ) {r : Run σ} {m : Machine σ}
    (ht : r.Tracks m) (rest : Agenda σ) :
    let t := Atomic.transition g m.cells op
    let call := Atomic.deliver g t m.scripts
    Reaches g (.start caller op :: rest) r rest call.after
      (call.deeds ++ [.answered caller t.answer call.after.cells.view]) := by
  intro t call
  refine (reaches_transition ht caller op rest).trans fun r' ht' => ?_
  refine (reaches_deliver t m.scripts ht' ⟨r.begun, caller⟩ rest).trans fun r'' ht'' => ?_
  exact reaches_finish ht'' _ _ _
termination_by (m.scripts.length, 1)

theorem reaches_obey (caller : Caller) (ops : List (Operation σ)) {r : Run σ} {m : Machine σ}
    (ht : r.Tracks m) (rest : Agenda σ) :
    Reaches g (ops.map (.start caller) ++ rest) r rest (Atomic.obey g caller ops m).after
      (Atomic.obey g caller ops m).deeds := by
  cases ops with
  | nil =>
    rw [Atomic.obey]
    exact Reaches.refl ht _
  | cons op ops =>
    have hop := reaches_operation caller op ht (ops.map (.start caller) ++ rest)
    have hops := hop.trans fun r' ht' => reaches_obey caller ops ht' rest
    rw [Atomic.obey]
    rw [List.append_assoc, List.singleton_append] at hops
    exact hops
termination_by (m.scripts.length, ops.length + 2)
decreasing_by
  · exact Prod.Lex.right _ (by simp)
  · have h := (Atomic.deliver g (Atomic.transition g m.cells op) m.scripts).scripts_le
    rcases Nat.lt_or_eq_of_le h with h | h
    · exact Prod.Lex.left _ _ h
    · rw [h]
      exact Prod.Lex.right _ (by simp)

end

theorem tracks_performAll (ops : List (Operation σ)) {r : Run σ} {m : Machine σ}
    (ht : r.Tracks m) : (performAll g r ops).Tracks (Atomic.obey g .top ops m).after ∧
      (performAll g r ops).history.deeds = r.history.deeds ++ (Atomic.obey g .top ops m).deeds := by
  induction ops generalizing r m with
  | nil =>
    rw [Atomic.obey]
    exact ⟨ht, (List.append_nil _).symm⟩
  | cons op ops ih =>
    obtain ⟨after, hadvance, hafter, hdeeds⟩ := reaches_operation (g := g) .top op ht []
    rw [advance_nil] at hadvance
    have hperform : perform g r op = after.settled := congrArg settled hadvance
    have hsettled : (perform g r op).Tracks
        (Atomic.deliver g (Atomic.transition g m.cells op) m.scripts).after := by
      rw [hperform]
      exact ⟨rfl, hafter.alone, hafter.state, hafter.scripts⟩
    obtain ⟨hend, hall⟩ := ih hsettled
    rw [Atomic.obey]
    refine ⟨hend, hall.trans ?_⟩
    have hhistory : (perform g r op).history.deeds = after.history.deeds := by
      rw [hperform]
      rfl
    rw [hhistory, hdeeds]
    simp

theorem map_perform_operations {s : Script σ} (h : .panic ∉ s) :
    s = (Atomic.operations s).map .perform := by
  induction s with
  | nil => rfl
  | cons c s ih =>
    cases c with
    | panic => simp at h
    | perform op =>
      have hs : .panic ∉ s := fun hm => h (List.mem_cons_of_mem _ hm)
      change Command.perform op :: s = .perform op :: (Atomic.operations s).map .perform
      rw [← ih hs]

theorem tracks_start (g : Gate σ (Delegate σ)) (dispatch : Dispatch)
    (hscripts : ∀ d ∈ g.delegate, ∀ s ∈ d.scripts, Command.panic ∉ s) :
    (start g [] dispatch).Tracks (Atomic.fresh g) := by
  refine ⟨rfl, rfl, rfl, ?_⟩
  change (g.delegate.map Delegate.scripts).getD [] =
    (((g.delegate.map Delegate.scripts).getD []).map Atomic.operations).map (List.map .perform)
  cases hd : g.delegate with
  | none => rfl
  | some d =>
    have hsame : d.scripts.map (List.map Command.perform ∘ Atomic.operations) = d.scripts.map id :=
      List.map_congr_left fun s hs => (map_perform_operations (hscripts d hd s hs)).symm
    simp only [Option.map_some, Option.getD_some, List.map_map]
    rw [hsame, List.map_id]

/-- What a gate answers at every level, the calls of its delegate, and how it shows itself after each
operation are what they are on the gate of atomic operations. -/
theorem refines_atomic (g : Gate σ (Delegate σ)) (dispatch : Dispatch) (ops : List (Operation σ))
    (hscripts : ∀ d ∈ g.delegate, ∀ s ∈ d.scripts, Command.panic ∉ s) :
    let r := performAll g (start g [] dispatch) ops
    let course := Atomic.obey g .top ops (Atomic.fresh g)
    r.history.deeds = course.deeds ∧ r.state = course.after.cells.view := by
  obtain ⟨hend, hdeeds⟩ := tracks_performAll (g := g) ops (tracks_start g dispatch hscripts)
  exact ⟨hdeeds, hend.state⟩

/-- The delegate of a one-shot gate completes it again in its first call. -/
theorem refines_atomic_of_refill :
    let g := Gate.flags { oneShot := true }
      [[.perform (.set Gate.left true), .perform (.set Gate.right false)]]
    let ops := [.assign Gate.left true, .set Gate.right true]
    let r := performAll g (start g [] (.registering [])) ops
    let course := Atomic.obey g .top ops (Atomic.fresh g)
    (∀ d ∈ g.delegate, ∀ s ∈ d.scripts, Command.panic ∉ s) ∧ r.history.deeds.length = 8 ∧
      r.history.deeds = course.deeds ∧ r.state = course.after.cells.view := by
  intro g ops r course
  have hscripts : ∀ d ∈ g.delegate, ∀ s ∈ d.scripts, Command.panic ∉ s := by
    intro d hd s hs
    cases hd
    cases List.mem_singleton.1 hs
    simp
  exact ⟨hscripts, by decide +kernel, refines_atomic g _ ops hscripts⟩

end Run

end SlotGate
