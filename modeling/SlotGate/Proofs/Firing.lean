import SlotGate.Proofs.Replay

/-!
# How a one-shot gate fires

A one-shot gate that is ready copies its slots, empties them and calls its delegate. Where no subscriber
acts on the gate, only events stand between the three, and a panic cannot come between them either.
-/
namespace SlotGate

variable {σ : Signature} {δ : Type}

namespace Task

/-- The tasks that follow when a one-shot gate is ready. -/
def Consumes : Task σ → Prop
  | sweep _ | call .. => True
  | _ => False

def IsEmit : Task σ → Prop
  | emit .. => True
  | _ => False

/-- Only an attempt that finds the gate ready asks for the slots to be emptied and for a call. -/
theorem quiet_or_ready (g : Gate σ δ) (t : Task σ) (r : Run σ) :
    (∀ u ∈ (t.step g r).1, ¬ u.Consumes) ∨
      ∃ a args, t = attempt a ∧ g.decision r.state = .ready args := by
  by_cases hready : ∃ a args, t = attempt a ∧ g.decision r.state = .ready args
  · exact .inr hready
  · refine .inl fun u hu => ?_
    cases successor_of_mem_step hu with
    | sweep ready => exact absurd ⟨_, _, rfl, ready⟩ hready
    | call ready => exact absurd ⟨_, _, rfl, ready⟩ hready
    | _ => exact id

/-- An attempt that finds a one-shot gate ready. -/
theorem attempt_ready {g : Gate σ δ} (hone : g.settings.oneShot = true) {a : Activity}
    {args : σ.Arguments} {r : Run σ} (hu : r.unwinding = false)
    (hready : g.decision r.state = .ready args) :
    ((attempt a).step g r).1 = emit .fired r.state.debug ::
      sweep a :: call a args :: [finish a (.flag true)] := by
  simp [step, hu, attemptStep_ready hready, hone]

theorem IsEmit.ne_call {t : Task σ} (ht : t.IsEmit) (a : Activity) (args : σ.Arguments) :
    t ≠ call a args := by
  rintro rfl
  exact ht

end Task

namespace Moment

def IsEvent : Moment σ → Prop
  | emitted .. => True
  | _ => False

end Moment

namespace History

/-- At the end of `h`, the activity `a` has just copied the slots, after `early`, and emptied them,
after `full`. They were all set, and held `args`. -/
structure Consumed (g : Gate σ δ) (h : History σ) (a : Activity) (args : σ.Arguments)
    (full early : History σ) : Prop where
  swept : ∃ s, h.Since Moment.IsEvent (.changed a (.cleared true) s) full
  copied : full.Since Moment.IsEvent (.changed a .copied (full.current g)) early
  isSet : (full.current g).slots.allSet = true
  arguments : args = (full.current g).slots.arguments

/-- The law of a call of a one-shot gate. -/
def CallsConsume (g : Gate σ δ) (h : History σ) : Prop :=
  h.Each fun m before => ∀ a args, m = .called a args →
    ∃ full early, before.Consumed g a args full early

/-- What a one-shot gate drops from its slots, it hands over in the call that follows. -/
def SweepsCall (g : Gate σ δ) (h : History σ) : Prop :=
  h.Every fun after m full => ∀ a s, m = .changed a (.cleared true) s →
    ∃ later events, after = later ++ .called a (full.current g).slots.arguments :: events ∧
      ∀ e ∈ events, e.IsEvent

variable {g : Gate σ δ}

theorem Consumed.append {h new full early : History σ} {a : Activity} {args : σ.Arguments}
    (hc : h.Consumed g a args full early) (hn : ∀ e ∈ new, e.IsEvent) :
    Consumed g (new ++ h) a args full early := by
  obtain ⟨s, hs⟩ := hc.swept
  exact ⟨⟨s, hs.append hn⟩, hc.copied, hc.isSet, hc.arguments⟩

theorem split_last {xs after before : History σ} {y m : Moment σ}
    (h : xs ++ [y] = after ++ m :: before) (hm : m ∉ xs) : xs = after ∧ y = m ∧ before = [] := by
  rcases List.eq_nil_or_concat before with rfl | ⟨before, z, rfl⟩
  · obtain ⟨hxs, hy⟩ := List.append_inj' h rfl
    exact ⟨hxs, (List.cons.inj hy).1, rfl⟩
  · have h' : xs ++ [y] = (after ++ m :: before) ++ [z] := by simpa using h
    obtain ⟨hxs, -⟩ := List.append_inj' h' rfl
    exact absurd (by simp [hxs]) hm

theorem CallsConsume.append {h new : History σ} (hh : h.CallsConsume g)
    (hn : ∀ a args, .called a args ∉ new) : CallsConsume g (new ++ h) := by
  induction new with
  | nil => exact hh
  | cons m new ih =>
    refine ⟨fun a args hm => ?_, ih fun a args hmem => hn a args (List.mem_cons_of_mem _ hmem)⟩
    exact absurd (hm ▸ List.mem_cons_self) (hn a args)

theorem SweepsCall.append {h new : History σ} (hh : h.SweepsCall g)
    (hn : ∀ a s, .changed a (.cleared true) s ∉ new) : SweepsCall g (new ++ h) := by
  refine every_append hh ?_ ?_
  · intro after m full hold a s hm
    obtain ⟨later, events, rfl, hev⟩ := hold a s hm
    exact ⟨new ++ later, events, by simp, hev⟩
  · intro after m full he a s hm
    subst hm
    exact absurd (he ▸ List.mem_append_right _ List.mem_cons_self) (hn a s)

/-- The call that a sweep asks for makes good for it. -/
theorem SweepsCall.call {h full early : History σ} {a : Activity} {args : σ.Arguments}
    (hc : h.Consumed g a args full early) (hh : full.SweepsCall g) :
    SweepsCall g (.called a args :: h) := by
  obtain ⟨s, events, rfl, hev⟩ := hc.swept
  let new : History σ := .called a args :: events ++ [.changed a (.cleared true) s]
  have hnew : SweepsCall g (new ++ full) := by
    refine every_append hh ?_ ?_
    · intro after m before hold b s' hm
      obtain ⟨later, events', rfl, hev'⟩ := hold b s' hm
      exact ⟨new ++ later, events', by simp, hev'⟩
    · intro after m before he b s' hm
      subst hm
      have hnot : .changed b (.cleared true) s' ∉ .called a args :: events := by
        intro hmem
        rcases List.mem_cons.1 hmem with hm | hm
        · cases hm
        · exact hev _ hm
      obtain ⟨rfl, hm, rfl⟩ := split_last he hnot
      cases hm
      exact ⟨[], events, by simp [hc.arguments], hev⟩
  simpa [new] using hnew

end History

namespace Run

variable {g : Gate σ δ}

/-- The gate is as the attempt of `a` copied it when it was ready, with `args` in its slots. -/
structure Copied (g : Gate σ δ) (r : Run σ) (a : Activity) (args : σ.Arguments) : Prop where
  calm : r.unwinding = false
  enabled : r.state.enabled = true
  isSet : r.state.slots.allSet = true
  arguments : args = r.state.slots.arguments
  latest : ∃ early, r.history.Since Moment.IsEvent (.changed a .copied r.state) early
  sweeps : r.history.SweepsCall g

/-- The gate is as the sweep of `a` left it, which took `args` from its slots. -/
structure Swept (g : Gate σ δ) (r : Run σ) (a : Activity) (args : σ.Arguments) : Prop where
  calm : r.unwinding = false
  consumed : ∃ full early, r.history.Consumed g a args full early ∧ full.SweepsCall g

/-- How far a one-shot gate has got with firing. -/
inductive Stage (g : Gate σ δ) : Agenda σ → Run σ → Prop where
  | idle {tasks : Agenda σ} {r : Run σ} (quiet : ∀ t ∈ tasks, ¬ t.Consumes)
      (sweeps : r.history.SweepsCall g) : Stage g tasks r
  | copied {events rest : Agenda σ} {r : Run σ} {a : Activity} {args : σ.Arguments}
      (emits : ∀ t ∈ events, t.IsEmit) (quiet : ∀ t ∈ rest, ¬ t.Consumes)
      (copied : Copied g r a args) : Stage g (events ++ .sweep a :: .call a args :: rest) r
  | swept {events rest : Agenda σ} {r : Run σ} {a : Activity} {args : σ.Arguments}
      (emits : ∀ t ∈ events, t.IsEmit) (quiet : ∀ t ∈ rest, ¬ t.Consumes)
      (swept : Swept g r a args) : Stage g (events ++ .call a args :: rest) r

/-- A run on a one-shot gate on which no subscriber acts. -/
structure Orderly (g : Gate σ δ) (tasks : Agenda σ) (r : Run σ) : Prop where
  alone : r.reactions = []
  recorded : Recorded g r
  calls : r.history.CallsConsume g
  stage : Stage g tasks r

/-- A run that went on by events only. -/
structure Passes (r after : Run σ) : Prop where
  state : after.state = r.state
  calm : after.unwinding = false
  history : ∃ new, after.history = new ++ r.history ∧ ∀ e ∈ new, e.IsEvent

theorem Copied.passes {r after : Run σ} {a : Activity} {args : σ.Arguments}
    (hc : Copied g r a args) (hp : Passes r after) : Copied g after a args := by
  obtain ⟨new, hh, hn⟩ := hp.history
  obtain ⟨early, hl⟩ := hc.latest
  refine ⟨hp.calm, ?_, ?_, ?_, ⟨early, ?_⟩, ?_⟩
  · rw [hp.state, hc.enabled]
  · rw [hp.state, hc.isSet]
  · rw [hp.state, hc.arguments]
  · rw [hp.state, hh]
    exact hl.append hn
  · rw [hh]
    exact hc.sweeps.append fun a s hm => hn _ hm

theorem Swept.passes {r after : Run σ} {a : Activity} {args : σ.Arguments}
    (hs : Swept g r a args) (hp : Passes r after) : Swept g after a args := by
  obtain ⟨new, hh, hn⟩ := hp.history
  obtain ⟨full, early, hc, hsweeps⟩ := hs.consumed
  refine ⟨hp.calm, full, early, ?_, hsweeps⟩
  rw [hh]
  exact hc.append hn

/-- Where no subscriber acts, an event adds itself to the history and no more. -/
theorem step_emit (g : Gate σ δ) {t : Task σ} {r : Run σ} (ht : t.IsEmit)
    (hu : r.unwinding = false) (hr : r.reactions = []) :
    (t.step g r).1 = [] ∧ Passes r (t.step g r).2 := by
  cases t with
  | emit e traced =>
    have ha := Task.emitStep_aside e traced r
    simp only [Task.step, hu, Bool.false_eq_true, if_false]
    refine ⟨Task.emitStep_agenda e traced hr, ha.state, ha.unwinding.trans hu, ?_⟩
    rcases ha.history with hh | ⟨e', heard, hh⟩
    · exact ⟨[], hh, by simp⟩
    · exact ⟨[.emitted e' heard r.state], hh, by simp [Moment.IsEvent]⟩
  | _ => cases ht

/-- Only a sweep empties the slots without being asked. -/
theorem not_swept {t : Task σ} {r : Run σ} {new : History σ} {s : State σ}
    (h : Task.Effect r t new s) (ht : ¬ t.Consumes) (a : Activity) (s' : State σ) :
    .changed a (.cleared true) s' ∉ new := by
  intro hm
  cases h with
  | opened opens =>
    simp only [List.mem_cons, Moment.changed.injEq, List.not_mem_nil, or_false, reduceCtorEq] at hm
    rw [← hm.2.1] at opens
    exact Operation.opening_ne_cleared_true _ _ opens
  | attempted =>
    simp only [List.mem_singleton, Moment.changed.injEq] at hm
    obtain ⟨-, hc, -⟩ := hm
    split at hc <;> cases hc
  | swept => exact ht trivial
  | _ => simp at hm

/-- Out of a stage without a sweep or a call on the agenda, the gate stays so, unless an attempt finds
it ready. -/
theorem stage_of_idle (hone : g.settings.oneShot = true) {t : Task σ} {rest : Agenda σ} {r : Run σ}
    (hu : r.unwinding = false) (quiet : ∀ u ∈ t :: rest, ¬ u.Consumes)
    (sweeps : r.history.SweepsCall g) : Stage g ((t.step g r).1 ++ rest) (t.step g r).2 := by
  obtain ⟨ht, hrest⟩ := List.forall_mem_cons.1 quiet
  obtain ⟨new, s, heffect, hs, hnew⟩ := Task.step_effect g hu t
  have hsweeps : (t.step g r).2.history.SweepsCall g := by
    rw [hnew]
    exact sweeps.append (not_swept heffect ht)
  rcases Task.quiet_or_ready g t r with hquiet | ⟨a, args, rfl, hready⟩
  · refine .idle (fun u hu' => ?_) hsweeps
    exact (List.mem_append.1 hu').elim (hquiet u) (hrest u)
  · have htasks := Task.attempt_ready hone (a := a) hu hready
    obtain ⟨hen, hb, hset, rfl⟩ := Gate.decision_eq_ready_iff.1 hready
    have hemits : ∀ u ∈ [Task.emit (.fired : Event σ) r.state.debug], u.IsEmit := by
      simp [Task.IsEmit]
    have hquiet : ∀ u ∈ Task.finish a (.flag true) :: rest, ¬ u.Consumes :=
      List.forall_mem_cons.2 ⟨id, hrest⟩
    have hcalm := (Task.step_frame g hu (.attempt a)).calm (by simp)
    cases heffect
    have hlatest : ((Task.attempt a).step g r).2.history.Since Moment.IsEvent
        (.changed a .copied r.state) r.history := by
      rw [hnew, if_pos hen]
      exact .refl _ _
    rw [htasks]
    rw [← hs] at hen hset hlatest
    exact .copied hemits hquiet ⟨hcalm, hen, hset, by rw [hs], ⟨_, hlatest⟩, hsweeps⟩

/-- A sweep finds the gate as the attempt copied it, and empties it. -/
theorem Copied.sweep {r : Run σ} {a : Activity} {args : σ.Arguments} (hc : Copied g r a args)
    (hrec : Recorded g r) : ((Task.sweep a).step g r).1 = [.emit .cleared r.state.debug] ∧
      Swept g ((Task.sweep a).step g r).2 a args := by
  obtain ⟨early, hl⟩ := hc.latest
  have hset := hc.isSet
  have hargs := hc.arguments
  rw [hrec.state] at hl hset hargs
  have hstep : (Task.sweep a).step g r = ([.emit .cleared r.state.debug],
      r.change a (.cleared true) r.state.vacateAll) := by
    simp [Task.step, hc.calm, Task.sweepStep, hc.enabled]
  have hswept : ((Task.sweep a).step g r).2.history.Since Moment.IsEvent
      (.changed a (.cleared true) r.state.vacateAll) r.history := by
    rw [hstep]
    exact .refl _ _
  have hcalm := (Task.step_frame g hc.calm (.sweep a)).calm (by simp)
  exact ⟨by rw [hstep], hcalm, r.history, early, ⟨⟨_, hswept⟩, hl, hset, hargs⟩, hc.sweeps⟩

/-- A call uses up what the sweep took. -/
theorem Swept.call {r : Run σ} {a : Activity} {args : σ.Arguments} (hs : Swept g r a args)
    (hcalls : r.history.CallsConsume g) :
    ((Task.call a args).step g r).2.history.CallsConsume g ∧
      ((Task.call a args).step g r).2.history.SweepsCall g := by
  obtain ⟨full, early, hc, hsweeps⟩ := hs.consumed
  have hhist : ((Task.call a args).step g r).2.history = .called a args :: r.history := by
    obtain ⟨left, -, hcall⟩ := Task.callStep_run a args r
    simp only [Task.step, hs.calm, Bool.false_eq_true, if_false, hcall]
    rfl
  rw [hhist]
  refine ⟨⟨fun b args' he => ?_, hcalls⟩, hsweeps.call hc⟩
  cases he
  exact ⟨full, early, hc⟩

/-- An event leaves what a fire has still to do. -/
theorem Stage.passes {t : Task σ} {rest : Agenda σ} {r after : Run σ} (h : Stage g (t :: rest) r)
    (ht : t.IsEmit) (hp : Passes r after) : Stage g rest after := by
  generalize htasks : t :: rest = tasks at h
  cases h with
  | idle quiet sweeps =>
    subst htasks
    obtain ⟨new, hh, hn⟩ := hp.history
    refine .idle (List.forall_mem_cons.1 quiet).2 ?_
    rw [hh]
    exact sweeps.append fun a s hm => hn _ hm
  | copied emits quiet copied =>
    next events tail a args =>
    cases events with
    | nil =>
      obtain ⟨rfl, -⟩ := List.cons.inj htasks
      cases ht
    | cons e events =>
      obtain ⟨rfl, rfl⟩ := List.cons.inj htasks
      exact .copied (List.forall_mem_cons.1 emits).2 quiet (copied.passes hp)
  | swept emits quiet swept =>
    next events tail a args =>
    cases events with
    | nil =>
      obtain ⟨rfl, -⟩ := List.cons.inj htasks
      cases ht
    | cons e events =>
      obtain ⟨rfl, rfl⟩ := List.cons.inj htasks
      exact .swept (List.forall_mem_cons.1 emits).2 quiet (swept.passes hp)

/-- Only a call has to be accounted for. -/
theorem callsConsume_step {t : Task σ} {r : Run σ} (hu : r.unwinding = false)
    (ht : ∀ a args, t ≠ .call a args) (hcalls : r.history.CallsConsume g) :
    (t.step g r).2.history.CallsConsume g := by
  obtain ⟨new, s, heffect, -, hnew⟩ := Task.step_effect g hu t
  rw [hnew]
  exact hcalls.append fun a args hm => ht a args (heffect.of_called hm).1

theorem stage_step (hone : g.settings.oneShot = true) {t : Task σ} {rest : Agenda σ} {r : Run σ}
    (hu : r.unwinding = false) (h : Orderly g (t :: rest) r) :
    (t.step g r).2.history.CallsConsume g ∧ Stage g ((t.step g r).1 ++ rest) (t.step g r).2 := by
  have hcalls := h.calls
  have hrec := h.recorded
  by_cases hemit : t.IsEmit
  · obtain ⟨hagenda, hpass⟩ := step_emit g hemit hu h.alone
    rw [hagenda]
    exact ⟨callsConsume_step hu hemit.ne_call hcalls, h.stage.passes hemit hpass⟩
  · generalize htasks : t :: rest = tasks at h
    cases h.stage with
    | idle quiet sweeps =>
      subst htasks
      have ht : ∀ a args, t ≠ .call a args := by
        rintro a args rfl
        exact quiet _ List.mem_cons_self trivial
      exact ⟨callsConsume_step hu ht hcalls, stage_of_idle hone hu quiet sweeps⟩
    | copied emits quiet copied =>
      next events tail a args =>
      cases events with
      | cons e events =>
        obtain ⟨rfl, -⟩ := List.cons.inj htasks
        exact absurd (emits t List.mem_cons_self) hemit
      | nil =>
        obtain ⟨rfl, rfl⟩ := List.cons.inj htasks
        obtain ⟨hagenda, hswept⟩ := copied.sweep hrec
        rw [hagenda]
        exact ⟨callsConsume_step hu (by simp) hcalls, .swept (by simp [Task.IsEmit]) quiet hswept⟩
    | swept emits quiet swept =>
      next events tail a args =>
      cases events with
      | cons e events =>
        obtain ⟨rfl, -⟩ := List.cons.inj htasks
        exact absurd (emits t List.mem_cons_self) hemit
      | nil =>
        obtain ⟨rfl, rfl⟩ := List.cons.inj htasks
        obtain ⟨hcalls', hsweeps'⟩ := swept.call hcalls
        refine ⟨hcalls', .idle (fun u hu' => ?_) hsweeps'⟩
        rcases List.mem_append.1 hu' with hu' | hu'
        · cases Task.successor_of_mem_step hu' <;> exact id
        · exact quiet u hu'

theorem orderly_step (hone : g.settings.oneShot = true) {t : Task σ} {rest : Agenda σ} {r : Run σ}
    (hu : r.unwinding = false) (h : Orderly g (t :: rest) r) :
    Orderly g ((t.step g r).1 ++ rest) (t.step g r).2 := by
  obtain ⟨hcalls, hstage⟩ := stage_step hone hu h
  exact ⟨(Task.step_frame g hu t).alone h.alone, recorded_step hu h.recorded, hcalls, hstage⟩

/-- With nothing left to do, or a panic unwinding, no fire is half done. -/
theorem Stage.at_rest {tasks : Agenda σ} {r : Run σ} (h : Stage g tasks r)
    (hrest : tasks = [] ∨ r.unwinding = true) :
    (∀ t ∈ tasks, ¬ t.Consumes) ∧ r.history.SweepsCall g := by
  cases h with
  | idle quiet sweeps => exact ⟨quiet, sweeps⟩
  | copied _ _ copied => simp [copied.calm] at hrest
  | swept _ _ swept => simp [swept.calm] at hrest

theorem orderly_invariant (hone : g.settings.oneShot = true) :
    Invariant g (fun _ => True) (Orderly g) where
  begins op r _ _ h := by
    obtain ⟨-, hsweeps⟩ := h.stage.at_rest (.inl rfl)
    exact ⟨h.alone, h.recorded, h.calls, .idle (List.forall_mem_singleton.2 id) hsweeps⟩
  keeps t rest r _ hu h := orderly_step hone hu h
  drops t rest r hu h := by
    obtain ⟨hquiet, hsweeps⟩ := h.stage.at_rest (.inr hu)
    exact ⟨h.alone, h.recorded, h.calls, .idle (List.forall_mem_cons.1 hquiet).2 hsweeps⟩
  settles r h := by
    obtain ⟨-, hsweeps⟩ := h.stage.at_rest (.inl rfl)
    exact ⟨h.alone, ⟨h.recorded.state, h.recorded.lawful⟩, h.calls, .idle (by simp) hsweeps⟩

theorem orderly_performAll {g : Gate σ (Delegate σ)} (hone : g.settings.oneShot = true)
    (dispatch : Dispatch) (ops : List (Operation σ)) :
    Orderly g [] (performAll g (start g [] dispatch) ops) := by
  have hnone : History.SweepsCall g ([] : History σ) := by simp [History.SweepsCall, History.Every]
  have hstart : Orderly g [] (start g [] dispatch) :=
    ⟨rfl, ⟨rfl, trivial⟩, trivial, .idle (by simp) hnone⟩
  exact (orderly_invariant hone).performAll ops (fun _ _ => trivial) rfl hstart

end Run

end SlotGate
