import SlotGate.Proofs.Muted
import SlotGate.Proofs.Tracing

/-!
# What a section tells

Each event is told right after a section, and it is the one event that this section has to tell. It is told
if the section found debug on, and kept back if not; a section that sets debug counts the new setting as
well. Nothing comes in between, no panic and no operation of a subscriber.
-/
namespace SlotGate

variable {σ : Signature} {δ : Type}

namespace Change

/-- The event of a section, which found the state `s` and belongs to the operation `op`. -/
def event? (g : Gate σ δ) (op : Option (Operation σ)) (s : State σ) : Change σ → Option (Event σ)
  | stored i v =>
    match op with
    | some (.assign ..) => some (.slotAssigned i ((σ.type i).stored v))
    | _ => some (.slotSet i v)
  | slotCleared i => some (.slotCleared i)
  | cleared _ => some .cleared
  | copied =>
    if !g.isBound then some .fireUnbound
    else if !s.slots.allSet then some (.firePending (g.pending s.slots))
    else some .fired
  | enabledSet on => some (.enabledChanged on)
  | debugSet on => some (.debugChanged on)
  | refused | looked => none

/-- Whether a section tells its event. -/
def traced (s : State σ) : Change σ → Bool
  | debugSet on => on || s.debug
  | _ => s.debug

end Change

namespace History

variable (g : Gate σ δ)

/-- The event that a section has to tell which `a` has after `before`. -/
def due (before : History σ) (a : Activity) (c : Change σ) : Option (Event σ) :=
  c.event? g (before.operation? a) (before.current g)

/-- Every section that has an event to tell and has to tell it is followed by it, and no other event is
told. -/
inductive Told : History σ → Prop where
  | nil : Told []
  | other {m : Moment σ} {before : History σ} (h : Told before) (hm : m.event? = none)
      (hc : ∀ a c s, m ≠ .changed a c s) : Told (m :: before)
  | untold {a : Activity} {c : Change σ} {s : State σ} {before : History σ} (h : Told before)
      (keeps : c.traced (before.current g) = true → before.due g a c = none) :
      Told (.changed a c s :: before)
  | told {a : Activity} {c : Change σ} {s s' : State σ} {e : Event σ} {heard : Bool}
      {before : History σ} (h : Told before) (traced : c.traced (before.current g) = true)
      (tells : before.due g a c = some e) :
      Told (.emitted e heard s' :: .changed a c s :: before)

end History

namespace Agenda

/-- Tasks that begin with this event, or with none, and have no other. -/
def Announces (tasks : Agenda σ) (traced : Bool) : Option (Event σ) → Prop
  | some e => ∃ rest, tasks = .emit e traced :: rest ∧ ∀ t ∈ rest, ¬ t.IsEmit
  | none => ∀ t ∈ tasks, ¬ t.IsEmit

end Agenda

namespace Task

variable {g : Gate σ δ}

theorem startStep_announces {a : Activity} {op : Operation σ} {r : Run σ} {c : Change σ}
    (hc : op.opening r.state = some c) :
    Agenda.Announces (startStep g a op r).1 (c.traced r.state) (c.event? g (some op) r.state) := by
  cases op with
  | fire => cases hc
  | set i v =>
    cases he : r.state.enabled with
    | false =>
      obtain rfl : .refused = c := by simpa [Operation.opening, he] using hc
      simp [Agenda.Announces, Change.event?, startStep, he, IsEmit]
    | true =>
      obtain rfl : .stored i v = c := by simpa [Operation.opening, he] using hc
      refine ⟨_, by simp only [startStep, he, if_true]; rfl, ?_⟩
      split <;> simp [IsEmit]
  | assign i v | clearSlot i | clear =>
    cases he : r.state.enabled with
    | false =>
      obtain rfl : .refused = c := by simpa [Operation.opening, he] using hc
      simp [Agenda.Announces, Change.event?, startStep, he, IsEmit]
    | true =>
      simp only [Operation.opening, he, if_true, Option.some.injEq] at hc
      subst hc
      exact ⟨_, by simp only [startStep, he, if_true]; rfl, by simp [IsEmit]⟩
  | setEnabled on | setDebug on =>
    obtain rfl := Option.some.inj hc
    exact ⟨_, rfl, by simp [IsEmit]⟩
  | read q =>
    obtain rfl := Option.some.inj hc
    simp [Agenda.Announces, Change.event?, startStep, IsEmit]

theorem attemptStep_announces (a : Activity) (op : Option (Operation σ)) (r : Run σ) :
    let c : Change σ := if r.state.enabled then .copied else .refused
    Agenda.Announces (attemptStep g a r).1 (c.traced r.state) (c.event? g op r.state) := by
  cases he : r.state.enabled with
  | false => simp [attemptStep, Gate.decision, he, Agenda.Announces, Change.event?, IsEmit]
  | true =>
    cases hb : g.isBound with
    | false =>
      simp [attemptStep, Gate.decision, he, hb, Agenda.Announces, Change.event?, IsEmit, Change.traced]
    | true =>
      cases hs : r.state.slots.allSet with
      | false =>
        simp [attemptStep, Gate.decision, he, hb, hs, Agenda.Announces, Change.event?, IsEmit,
          Change.traced]
      | true =>
        cases ho : g.settings.oneShot <;>
          simp [attemptStep, Gate.decision, he, hb, hs, ho, Agenda.Announces, Change.event?, IsEmit,
            Change.traced]

theorem sweepStep_announces (a : Activity) (op : Option (Operation σ)) (r : Run σ) :
    let c : Change σ := if r.state.enabled then .cleared true else .refused
    Agenda.Announces (sweepStep a r).1 (c.traced r.state) (c.event? g op r.state) := by
  cases he : r.state.enabled <;>
    simp [sweepStep, he, Agenda.Announces, Change.event?, Change.traced]

end Task

namespace Run

variable {g : Gate σ δ}

/-- The latest section has its event ahead, or all has been told. -/
structure Telling (g : Gate σ δ) (tasks : Agenda σ) (r : Run σ) : Prop where
  front : (∃ a c s, ∃ before : History σ, r.history = .changed a c s :: before ∧ before.Told g ∧
      tasks.Announces (c.traced (before.current g)) (before.due g a c) ∧
        (before.due g a c).isSome) ∨
    (r.history.Told g ∧ ∀ t ∈ tasks, ¬ t.IsEmit)
  plain : r.unwinding = true → ∀ t ∈ tasks, ¬ t.IsEmit

/-- After a section its event is ahead, if it has one. -/
theorem Telling.section {tasks rest : Agenda σ} {r : Run σ} {a : Activity} {c : Change σ}
    {s : State σ} {before : History σ} (hu : r.unwinding = false)
    (hr : r.history = .changed a c s :: before) (hbefore : before.Told g)
    (htasks : tasks.Announces (c.traced (before.current g)) (before.due g a c))
    (hrest : ∀ t ∈ rest, ¬ t.IsEmit) : Telling g (tasks ++ rest) r := by
  refine ⟨?_, fun h => absurd (hu.symm.trans h) (by decide)⟩
  cases hdue : before.due g a c with
  | some e =>
    rw [hdue] at htasks
    obtain ⟨others, rfl, hothers⟩ := htasks
    refine .inl ⟨a, c, s, before, hr, hbefore, ?_, by simp [hdue]⟩
    rw [hdue]
    exact ⟨others ++ rest, rfl, fun t ht => (List.mem_append.1 ht).elim (hothers t) (hrest t)⟩
  | none =>
    rw [hdue] at htasks
    refine .inr ⟨hr ▸ .untold hbefore fun _ => hdue, fun t ht => ?_⟩
    exact (List.mem_append.1 ht).elim (htasks t) (hrest t)

/-- The event that is ahead is told, or kept back. -/
theorem telling_emit {e : Event σ} {traced : Bool} {rest : Agenda σ} {r : Run σ}
    (hu : r.unwinding = false) (h : Telling g (.emit e traced :: rest) r) :
    Telling g (((Task.emit e traced).step g r).1 ++ rest) ((Task.emit e traced).step g r).2 := by
  have hstep : (Task.emit e traced).step g r = Task.emitStep e traced r := by simp [Task.step, hu]
  rcases h.front with ⟨a, c, s, before, hr, hbefore, hannounces, hdue⟩ | ⟨-, hplain⟩
  · obtain ⟨e', hdue⟩ := Option.isSome_iff_exists.1 hdue
    rw [hdue] at hannounces
    obtain ⟨rest', he, hrest⟩ := hannounces
    obtain ⟨hfront, rfl⟩ := List.cons.inj he
    obtain ⟨rfl, rfl⟩ := Task.emit.inj hfront
    -- a reaction brings operations, and their events come about only when they have begun
    have hplain : ∀ t ∈ (Task.emitStep e (c.traced (before.current g)) r).1 ++ rest, ¬ t.IsEmit := by
      intro t ht
      rcases List.mem_append.1 ht with ht | ht
      · rcases Task.mem_emitStep ht with rfl | ⟨x, -, op, -, rfl⟩ <;> exact id
      · exact hrest t ht
    rw [hstep]
    refine ⟨.inr ⟨?_, hplain⟩, fun _ => hplain⟩
    cases htraced : c.traced (before.current g) with
    | false =>
      rw [show (Task.emitStep e false r).2 = r from rfl, hr]
      exact .untold hbefore fun ht => absurd (htraced.symm.trans ht) (by decide)
    | true =>
      obtain ⟨heard, hhistory⟩ := Task.emitStep_traced e r
      rw [hhistory, hr]
      exact .told hbefore htraced hdue
  · exact absurd trivial (hplain _ List.mem_cons_self)

/-- With no event in front all has been told. -/
theorem Telling.settled {tasks : Agenda σ} {r : Run σ} (h : Telling g tasks r)
    (hfront : ∀ e traced rest, tasks ≠ .emit e traced :: rest) :
    r.history.Told g ∧ ∀ t ∈ tasks, ¬ t.IsEmit := by
  rcases h.front with ⟨a, c, s, before, -, -, hannounces, hdue⟩ | hsettled
  · obtain ⟨e, hdue⟩ := Option.isSome_iff_exists.1 hdue
    rw [hdue] at hannounces
    obtain ⟨rest, he, -⟩ := hannounces
    exact absurd he (hfront _ _ _)
  · exact hsettled

theorem Telling.of_plain {tasks : Agenda σ} {r : Run σ} (htold : r.history.Told g)
    (hplain : ∀ t ∈ tasks, ¬ t.IsEmit) : Telling g tasks r :=
  ⟨.inr ⟨htold, hplain⟩, fun _ => hplain⟩

/-- A moment that is neither a section nor an event leaves all told. -/
theorem Telling.passed {tasks rest : Agenda σ} {r after : Run σ} {m : Moment σ}
    (htold : r.history.Told g) (hm : after.history = m :: r.history) (hevent : m.event? = none)
    (hsection : ∀ a c s, m ≠ .changed a c s) (htasks : ∀ t ∈ tasks, ¬ t.IsEmit)
    (hrest : ∀ t ∈ rest, ¬ t.IsEmit) : Telling g (tasks ++ rest) after :=
  .of_plain (hm ▸ .other htold hevent hsection) fun t ht =>
    (List.mem_append.1 ht).elim (htasks t) (hrest t)

/-- Any other task has its section, or none, and the event of the section comes next. -/
theorem telling_other {t : Task σ} {rest : Agenda σ} {r : Run σ} (hu : r.unwinding = false)
    (hrec : Recorded g r) (ht : ¬ t.IsEmit) (h : Telling g (t :: rest) r) :
    Telling g ((t.step g r).1 ++ rest) (t.step g r).2 := by
  obtain ⟨htold, hplain⟩ := h.settled fun e traced rest' he => by
    obtain ⟨rfl, -⟩ := List.cons.inj he
    exact ht trivial
  obtain ⟨-, hrest⟩ := List.forall_mem_cons.1 hplain
  have hcalm := (Task.step_frame g hu t).calm
  obtain ⟨new, s, heffect, -, hnew⟩ := Task.step_effect g hu t
  cases heffect with
  | @opened caller op c opens =>
    have hbegan : History.Told g (.began ⟨r.begun, caller⟩ op :: r.history) :=
      .other htold rfl (by simp)
    refine Telling.section (hcalm (by simp)) hnew hbegan ?_ hrest
    rw [Task.step_start hu]
    simpa [History.due, History.operation?, History.current, ← hrec.state] using
      Task.startStep_announces (g := g) (a := ⟨r.begun, caller⟩) (r := { r with
        begun := r.begun + 1, history := .began ⟨r.begun, caller⟩ op :: r.history }) opens
  | @attempted a =>
    refine Telling.section (hcalm (by simp)) hnew htold ?_ hrest
    have hstep : (Task.attempt a).step g r = Task.attemptStep g a r := by simp [Task.step, hu]
    rw [hstep]
    simpa [History.due, ← hrec.state] using Task.attemptStep_announces a (r.history.operation? a) r
  | @swept a =>
    refine Telling.section (hcalm (by simp)) hnew htold ?_ hrest
    have hstep : (Task.sweep a).step g r = Task.sweepStep a r := by simp [Task.step, hu]
    rw [hstep]
    simpa [History.due, ← hrec.state] using
      Task.sweepStep_announces (g := g) a (r.history.operation? a) r
  | @began caller op opens =>
    refine .passed htold hnew rfl (by simp) ?_ hrest
    rw [Task.step_start hu]
    cases op with
    | fire => simp [Task.startStep, Task.IsEmit]
    | _ => cases opens
  | @called a args =>
    refine .passed htold hnew rfl (by simp) (fun u hmem => ?_) hrest
    have hcall : u ∈ (Task.callStep a args r).1 := by simpa [Task.step, hu] using hmem
    exact Task.callStep_plain hcall
  | left | finished | panicked =>
    exact .passed htold hnew rfl (by simp) (by simp [Task.step, hu]) hrest
  | silent | emitted => exact absurd trivial ht
  | listened => exact .of_plain (hnew ▸ htold) (by simpa [Task.step, hu] using hrest)

theorem telling_invariant (g : Gate σ δ) :
    Invariant g (fun _ => True) fun tasks r => Recorded g r ∧ Telling g tasks r where
  begins op r _ hu h := by
    refine ⟨h.1, ⟨?_, fun hf => absurd (hu.symm.trans hf) (by decide)⟩⟩
    exact .inr ⟨(h.2.settled (by simp)).1, by simp [Task.IsEmit]⟩
  keeps t rest r _ hu h := by
    refine ⟨recorded_step hu h.1, ?_⟩
    by_cases he : t.IsEmit
    · cases t with
      | emit e traced => exact telling_emit hu h.2
      | _ => cases he
    · exact telling_other hu h.1 he h.2
  drops t rest r hu h := by
    have hplain := h.2.plain hu
    refine ⟨h.1, .of_plain (h.2.settled fun e traced rest' he => ?_).1 (List.forall_mem_cons.1 hplain).2⟩
    obtain ⟨rfl, -⟩ := List.cons.inj he
    exact hplain _ List.mem_cons_self trivial
  settles r h := ⟨⟨h.1.state, h.1.lawful⟩, ⟨h.2.front, by simp⟩⟩

theorem told_performAll (g : Gate σ (Delegate σ)) (reactions : List (Reaction σ))
    (dispatch : Dispatch) (ops : List (Operation σ)) :
    (performAll g (start g reactions dispatch) ops).history.Told g := by
  have hstart : Recorded g (start g reactions dispatch) ∧ Telling g [] (start g reactions dispatch) :=
    ⟨⟨rfl, trivial⟩, .of_plain .nil (by simp)⟩
  have htelling := (telling_invariant g).performAll ops (fun _ _ => trivial) rfl hstart
  exact (htelling.2.settled (by simp)).1

end Run

/-- A section of a history, and the event that was told right after it. -/
structure Section (σ : Signature) where
  owner : Activity
  change : Change σ
  /-- The state that the section found. -/
  found : State σ
  event : Option (Event σ)

namespace History

/-- The sections of a history, the latest first. -/
def sections (g : Gate σ δ) : History σ → List (Section σ)
  | [] => []
  | .emitted e _ _ :: .changed a c _ :: before =>
    ⟨a, c, current g before, some e⟩ :: sections g before
  | .changed a c _ :: before => ⟨a, c, current g before, none⟩ :: sections g before
  | _ :: before => sections g before

/-- The sections of a history, with the events that they have to tell if they tell any. -/
def prospects (g : Gate σ δ) : History σ → List (Section σ)
  | [] => []
  | .changed a c _ :: before => ⟨a, c, current g before, due g before a c⟩ :: prospects g before
  | _ :: before => prospects g before

end History

/-- What is told of the event that a section has to tell. -/
def Section.told (x : Section σ) : Section σ :=
  { x with event := if x.change.traced x.found then x.event else none }

namespace History

variable {g : Gate σ δ}

theorem Told.sections_eq {h : History σ} (ht : h.Told g) :
    h.sections g = (h.prospects g).map Section.told := by
  induction ht with
  | nil => rfl
  | @other m before h hm hc ih =>
    cases m with
    | emitted => cases hm
    | changed a c s => exact absurd rfl (hc a c s)
    | _ => exact ih
  | @untold a c s before h keeps ih =>
    simp only [sections, prospects, List.map_cons, ih, Section.told]
    split
    · next ht => rw [keeps ht]
    · rfl
  | told h traced tells ih =>
    simp only [sections, prospects, List.map_cons, ih, Section.told, tells, traced, if_true]

theorem events_silent {m : Moment σ} (hm : m.event? = none) (h : History σ) :
    events (m :: h) = h.events := by
  simp [events, hm]

theorem events_emitted (e : Event σ) (heard : Bool) (s : State σ) (h : History σ) :
    events (.emitted e heard s :: h) = h.events ++ [e] := by
  simp [events, Moment.event?]

/-- There are no events but those told right after a section. -/
theorem Told.events_eq {h : History σ} (ht : h.Told g) :
    h.events = ((h.sections g).filterMap Section.event).reverse := by
  induction ht with
  | nil => rfl
  | @other m before h hm hc ih =>
    have hsections : sections g (m :: before) = sections g before := by
      cases m with
      | emitted => cases hm
      | changed a c s => exact absurd rfl (hc a c s)
      | _ => rfl
    rw [hsections, ← ih, events_silent hm]
  | untold h keeps ih => rw [events_silent rfl, ih]; rfl
  | told h traced tells ih => rw [events_emitted, events_silent rfl, ih]; simp [sections]

end History

end SlotGate
