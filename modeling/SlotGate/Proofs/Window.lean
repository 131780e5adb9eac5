import SlotGate.Proofs.Consumption
import SlotGate.Proofs.Provenance

/-!
# The window of a fire

A fire of a one-shot gate copies the slots in one critical section and empties them in another. What
subscribers do to the gate in between neither changes the copy nor stops the call; but it is on the
slots that the second section finds that the gate is emptied, if it is still enabled then. These are
the laws of such windows, whoever acts in them.
-/
namespace SlotGate

variable {σ : Signature} {δ : Type}

namespace Moment

/-- Whether `a` calls the delegate here. -/
def isCallOf (a : Activity) : Moment σ → Bool
  | called b _ => b = a
  | _ => false

end Moment

namespace Task

/-- Whether a task is a call that `a` makes. -/
def isCallOf (a : Activity) : Task σ → Bool
  | call b _ => b = a
  | _ => false

end Task

namespace History

/-- Two moments of a history are one, or one of them came before the other. -/
theorem earlier_or_later {h b b' : History σ} {m m' : Moment σ} (hm : m :: b <:+ h)
    (hm' : m' :: b' <:+ h) : (m = m' ∧ b = b') ∨ m :: b <:+ b' ∨ m' :: b' <:+ b := by
  rcases List.suffix_or_suffix_of_suffix hm hm' with hs | hs
  · rcases List.suffix_cons_iff.1 hs with he | hs
    · exact .inl (List.cons.inj he)
    · exact .inr (.inl hs)
  · rcases List.suffix_cons_iff.1 hs with he | hs
    · obtain ⟨rfl, rfl⟩ := List.cons.inj he
      exact .inl ⟨rfl, rfl⟩
    · exact .inr (.inr hs)

/-- When `a` copied the slots, the gate was ready to fire with `args`. -/
def ReadyCopy (g : Gate σ δ) (h : History σ) (a : Activity) (args : σ.Arguments) : Prop :=
  ∃ s early, .changed a .copied s :: early <:+ h ∧ g.decision s = .ready args

/-- What happened between the section in which `a` copied the slots, after `early`, and the one in
which it came to empty them and made the change `c`. -/
def Window (h : History σ) (a : Activity) (c : Change σ) (window early : History σ) : Prop :=
  (c = .cleared true ∨ c = .refused) ∧
    ∃ s t, .changed a c t :: (window ++ .changed a .copied s :: early) <:+ h

theorem ReadyCopy.mono {g : Gate σ δ} {h h' : History σ} {a : Activity} {args : σ.Arguments}
    (hc : h.ReadyCopy g a args) (hs : h <:+ h') : h'.ReadyCopy g a args := by
  obtain ⟨s, early, hcopy, hready⟩ := hc
  exact ⟨s, early, hcopy.trans hs, hready⟩

theorem Window.mono {h h' window early : History σ} {a : Activity} {c : Change σ}
    (hw : h.Window a c window early) (hs : h <:+ h') : h'.Window a c window early := by
  obtain ⟨hc, s, t, hsweep⟩ := hw
  exact ⟨hc, s, t, hsweep.trans hs⟩

end History

namespace Run

variable {g : Gate σ δ}

/-- Fires that are half done, to any depth: each has copied the slots, and a call whose sweep is no
longer to be made has its window behind it. -/
inductive HalfFired (g : Gate σ δ) (h : History σ) : Agenda σ → Prop where
  | nil : HalfFired g h []
  | other {t : Task σ} {rest : Agenda σ} (quiet : ¬ t.Consumes) (fires : HalfFired g h rest) :
      HalfFired g h (t :: rest)
  | copied {a : Activity} {args : σ.Arguments} {rest : Agenda σ} (copy : h.ReadyCopy g a args)
      (fires : HalfFired g h rest) : HalfFired g h (.sweep a :: .call a args :: rest)
  | swept {a : Activity} {args : σ.Arguments} {rest : Agenda σ}
      (window : ∃ c window early, h.Window a c window early) (fires : HalfFired g h rest) :
      HalfFired g h (.call a args :: rest)

theorem HalfFired.mono {h h' : History σ} {tasks : Agenda σ} (hf : HalfFired g h tasks)
    (hs : h <:+ h') : HalfFired g h' tasks := by
  induction hf with
  | nil => exact .nil
  | other quiet _ ih => exact .other quiet ih
  | copied copy _ ih => exact .copied (copy.mono hs) ih
  | swept window _ ih =>
    obtain ⟨c, w, early, hw⟩ := window
    exact .swept ⟨c, w, early, hw.mono hs⟩ ih

theorem HalfFired.append {h : History σ} {tasks rest : Agenda σ}
    (quiet : ∀ t ∈ tasks, ¬ t.Consumes) (hf : HalfFired g h rest) :
    HalfFired g h (tasks ++ rest) := by
  induction tasks with
  | nil => exact hf
  | cons t tasks ih =>
    obtain ⟨ht, htasks⟩ := List.forall_mem_cons.1 quiet
    exact .other ht (ih htasks)

/-- No fire loses its order: the slots are copied, then emptied, then handed over. -/
structure Windowed (g : Gate σ δ) (tasks : Agenda σ) (r : Run σ) : Prop where
  fires : r.unwinding = false → HalfFired g r.history tasks
  calls : r.history.Each fun m before => ∀ a args, m = .called a args →
    ∃ c window early, before.Window a c window early
  sweeps : r.history.Each fun m before => ∀ a s, m = .changed a (.cleared true) s →
    ∃ args, before.ReadyCopy g a args

/-- An attempt that finds the gate ready leaves its fire half done. -/
theorem halfFired_attempt (hone : g.settings.oneShot = true) {a : Activity} {args : σ.Arguments}
    {rest : Agenda σ} {r : Run σ} (hu : r.unwinding = false)
    (hready : g.decision r.state = .ready args) (hf : HalfFired g r.history rest) :
    HalfFired g ((Task.attempt a).step g r).2.history (((Task.attempt a).step g r).1 ++ rest) := by
  have hen := (Gate.decision_eq_ready_iff.1 hready).1
  have hrun : ((Task.attempt a).step g r).2 = r.change a .copied r.state := by
    simp [Task.step, hu, Task.attemptStep_run, hen]
  rw [Task.attempt_ready hone hu hready, hrun]
  have hsuffix : r.history <:+ (r.change a .copied r.state).history := List.suffix_cons _ _
  refine .other id (.copied ⟨r.state, r.history, List.suffix_refl _, hready⟩ ?_)
  exact .other id (hf.mono hsuffix)

/-- A sweep closes the window that the copy opened. -/
theorem windowed_sweep {a : Activity} {args : σ.Arguments} {rest : Agenda σ} {r : Run σ}
    (hu : r.unwinding = false) (h : Windowed g (.sweep a :: .call a args :: rest) r)
    (copy : r.history.ReadyCopy g a args) (fires : HalfFired g r.history rest) :
    Windowed g (((Task.sweep a).step g r).1 ++ .call a args :: rest)
      ((Task.sweep a).step g r).2 := by
  obtain ⟨new, s, heffect, -, hnew⟩ := Task.step_effect g hu (.sweep a)
  cases heffect
  obtain ⟨s', early, ⟨window, hwindow⟩, -⟩ := id copy
  have hclosed : ((Task.sweep a).step g r).2.history.Window a
      (if r.state.enabled then .cleared true else .refused) window early := by
    refine ⟨?_, s', r.state.vacateAll, ?_⟩
    · split
      · exact .inl rfl
      · exact .inr rfl
    · rw [hnew, hwindow]
      exact List.suffix_refl _
  constructor
  case fires =>
    intro _
    refine HalfFired.append (fun u hu' => ?_) (.swept ⟨_, window, early, hclosed⟩ ?_)
    · cases Task.successor_of_mem_step hu' <;> exact id
    · rw [hnew]
      exact fires.mono (List.suffix_append _ _)
  case calls =>
    rw [hnew]
    exact ⟨by simp, h.calls⟩
  case sweeps =>
    rw [hnew]
    refine ⟨fun a s he => ?_, h.sweeps⟩
    obtain ⟨rfl, -⟩ := Moment.changed.inj he
    exact ⟨_, copy⟩

theorem windowed_call {a : Activity} {args : σ.Arguments} {rest : Agenda σ} {r : Run σ}
    (hu : r.unwinding = false) (h : Windowed g (.call a args :: rest) r)
    (window : ∃ c window early, r.history.Window a c window early)
    (fires : HalfFired g r.history rest) :
    Windowed g (((Task.call a args).step g r).1 ++ rest) ((Task.call a args).step g r).2 := by
  obtain ⟨new, s, heffect, -, hnew⟩ := Task.step_effect g hu (.call a args)
  cases heffect
  constructor
  case fires =>
    intro _
    rw [hnew]
    refine (fires.mono (List.suffix_append _ _)).append fun u hu' => ?_
    cases Task.successor_of_mem_step hu' <;> exact id
  case calls =>
    rw [hnew]
    refine ⟨fun a args he => ?_, h.calls⟩
    obtain ⟨rfl, -⟩ := Moment.called.inj he
    exact window
  case sweeps =>
    rw [hnew]
    exact ⟨by simp, h.sweeps⟩

theorem windowed_other (hone : g.settings.oneShot = true) {t : Task σ} {rest : Agenda σ} {r : Run σ}
    (hu : r.unwinding = false) (h : Windowed g (t :: rest) r) (quiet : ¬ t.Consumes)
    (fires : HalfFired g r.history rest) :
    Windowed g ((t.step g r).1 ++ rest) (t.step g r).2 := by
  obtain ⟨new, s, heffect, -, hnew⟩ := Task.step_effect g hu t
  constructor
  case fires =>
    intro _
    rcases Task.quiet_or_ready g t r with hq | ⟨a, args, rfl, hready⟩
    · rw [hnew]
      exact (fires.mono (List.suffix_append _ _)).append hq
    · exact halfFired_attempt hone hu hready fires
  case calls =>
    rw [hnew]
    refine History.each_append h.calls fun m hm before a args he => ?_
    obtain ⟨rfl, -⟩ := heffect.of_called (he ▸ hm)
    exact absurd trivial quiet
  case sweeps =>
    rw [hnew]
    refine History.each_append h.sweeps fun m hm before a s' he => ?_
    exact absurd (he ▸ hm) (not_swept heffect quiet a s')

theorem windowed_step (hone : g.settings.oneShot = true) {t : Task σ} {rest : Agenda σ} {r : Run σ}
    (hu : r.unwinding = false) (h : Windowed g (t :: rest) r) :
    Windowed g ((t.step g r).1 ++ rest) (t.step g r).2 := by
  have hfires := h.fires hu
  generalize htasks : t :: rest = tasks at hfires
  cases hfires with
  | nil => cases htasks
  | other quiet fires =>
    obtain ⟨rfl, rfl⟩ := List.cons.inj htasks
    exact windowed_other hone hu h quiet fires
  | copied copy fires =>
    obtain ⟨rfl, rfl⟩ := List.cons.inj htasks
    exact windowed_sweep hu h copy fires
  | swept window fires =>
    obtain ⟨rfl, rfl⟩ := List.cons.inj htasks
    exact windowed_call hu h window fires

theorem windowed_invariant (hone : g.settings.oneShot = true) :
    Invariant g (fun _ => True) (Windowed g) where
  begins op r _ hu h := ⟨fun _ => .other id (h.fires hu), h.calls, h.sweeps⟩
  keeps t rest r _ hu h := windowed_step hone hu h
  drops t rest r hu h := ⟨fun hf => absurd (hu.symm.trans hf) (by decide), h.calls, h.sweeps⟩
  settles r h := ⟨fun _ => .nil, h.calls, h.sweeps⟩

/-- Every run of a one-shot gate is windowed, whoever acts on the gate. -/
theorem windowed_performAll {g : Gate σ (Delegate σ)} (hone : g.settings.oneShot = true)
    (reactions : List (Reaction σ)) (dispatch : Dispatch) (ops : List (Operation σ)) :
    Windowed g [] (performAll g (start g reactions dispatch) ops) :=
  (windowed_invariant hone).performAll ops (fun _ _ => trivial) rfl ⟨fun _ => .nil, trivial, trivial⟩

end Run

end SlotGate
