import SlotGate.Proofs.Replay

/-!
# No complete set of arguments is left lying

A set stores in one critical section and decides in another, and anything may happen to the gate in
between. Still, where every set attempts to fire, nothing disables the gate and nothing panics, a
complete gate is always attended to: an attempt is on the agenda, or what comes after one. So at the
end of an operation of the top a one-shot gate is not complete, and what a complete gate holds was
delivered from a copy that no store has overtaken.
-/
namespace SlotGate

variable {σ : Signature} {δ : Type}

/-- An operation that neither disables the gate nor stores without an attempt to fire. -/
def Gate.Eager (g : Gate σ δ) : Operation σ → Prop
  | .set i v => (σ.type i).isNull v = false ∨ g.settings.nullPolicy = .fire
  | .assign .. => False
  | .setEnabled on => on = true
  | .clearSlot _ | .clear | .fire | .setDebug _ | .read _ => True

def Command.Eager (g : Gate σ δ) : Command σ → Prop
  | perform op => g.Eager op
  | panic => False

namespace Task

def Eager (g : Gate σ δ) : Task σ → Prop
  | start _ op => g.Eager op
  | panic => False
  | _ => True

/-- A task that an attempt to fire consists of. -/
def Attends : Task σ → Prop
  | attempt _ | sweep _ | call .. => True
  | _ => False

end Task

namespace History

/-- The slots held `args` when `a` copied them, and nothing was stored since. -/
def FreshCopy (h : History σ) (a : Activity) (args : σ.Arguments) : Prop :=
  ∃ s early, h.Since (fun m => ¬ m.isStore) (.changed a .copied s) early ∧
    s.slots.arguments = args

/-- The delegate was called with `args` from a copy after which nothing was stored. -/
def Delivered (h : History σ) (args : σ.Arguments) : Prop :=
  ∃ a before, h.Since (fun m => ¬ m.isStore) (.called a args) before ∧ before.FreshCopy a args

theorem FreshCopy.append {h new : History σ} {a : Activity} {args : σ.Arguments}
    (hc : h.FreshCopy a args) (hn : ∀ m ∈ new, ¬ m.isStore) : FreshCopy (new ++ h) a args := by
  obtain ⟨s, early, hs, ha⟩ := hc
  exact ⟨s, early, hs.append hn, ha⟩

theorem Delivered.append {h new : History σ} {args : σ.Arguments}
    (hd : h.Delivered args) (hn : ∀ m ∈ new, ¬ m.isStore) : Delivered (new ++ h) args := by
  obtain ⟨a, before, hs, hc⟩ := hd
  exact ⟨a, before, hs.append hn, hc⟩

end History

namespace Run

variable {g : Gate σ δ}

/-- The slots, which hold `args`, will be looked at by an attempt to fire, or they were: then they are
to be emptied on a one-shot gate, and else their call is due or made. -/
def Attended (g : Gate σ δ) (tasks : Agenda σ) (h : History σ) (args : σ.Arguments) : Prop :=
  (∃ a, .attempt a ∈ tasks) ∨ (g.settings.oneShot = true ∧ ∃ a, .sweep a ∈ tasks) ∨
    (g.settings.oneShot = false ∧
      ((∃ a, .call a args ∈ tasks ∧ h.FreshCopy a args) ∨ h.Delivered args))

theorem Attended.mono {tasks tasks' : Agenda σ} {h new : History σ} {args : σ.Arguments}
    (ha : Attended g tasks h args) (ht : ∀ t ∈ tasks, t.Attends → t ∈ tasks')
    (hn : ∀ m ∈ new, ¬ m.isStore) : Attended g tasks' (new ++ h) args := by
  rcases ha with ⟨a, hm⟩ | ⟨ho, a, hm⟩ | ⟨ho, ⟨a, hm, hc⟩ | hd⟩
  · exact .inl ⟨a, ht _ hm trivial⟩
  · exact .inr (.inl ⟨ho, a, ht _ hm trivial⟩)
  · exact .inr (.inr ⟨ho, .inl ⟨a, ht _ hm trivial, hc.append hn⟩⟩)
  · exact .inr (.inr ⟨ho, .inr (hd.append hn)⟩)

structure Awake (g : Gate σ δ) (tasks : Agenda σ) (r : Run σ) : Prop where
  enabled : r.state.enabled = true
  calm : r.unwinding = false
  agenda : ∀ t ∈ tasks, t.Eager g
  scripts : ∀ s ∈ r.scripts, ∀ c ∈ s, c.Eager g
  reactions : ∀ x ∈ r.reactions, ∀ op ∈ x.operations, g.Eager op
  complete : r.state.slots.allSet = true → Attended g tasks r.history r.state.slots.arguments

end Run

/-- An eager operation keeps an enabled gate enabled. Its first section stores, which an attempt will
follow, or leaves the gate incomplete, or does not touch the slots. -/
theorem Gate.Eager.opening {g : Gate σ δ} {op : Operation σ} {s : State σ} {c : Change σ}
    (he : g.Eager op) (hs : s.enabled = true) (hc : op.opening s = some c) :
    (c.apply s).enabled = true ∧
      ((∃ i v, op = .set i v) ∨ (c.apply s).slots.allSet = false ∨
        ((c.apply s).slots = s.slots ∧ ∀ a s', ¬ Moment.isStore (.changed a c s'))) := by
  cases op with
  | set i v =>
    simp only [Operation.opening, hs, if_true, Option.some.injEq] at hc
    subst hc
    exact ⟨hs, .inl ⟨i, v, rfl⟩⟩
  | assign i v => cases he
  | clearSlot i =>
    simp only [Operation.opening, hs, if_true, Option.some.injEq] at hc
    subst hc
    exact ⟨hs, .inr (.inl (Slots.allSet_put_vacant _ i))⟩
  | clear =>
    simp only [Operation.opening, hs, if_true, Option.some.injEq] at hc
    subst hc
    exact ⟨hs, .inr (.inl Slots.allSet_vacant)⟩
  | fire => cases hc
  | setEnabled on =>
    cases hc
    exact ⟨he, .inr (.inr ⟨rfl, fun _ _ => Bool.false_ne_true⟩)⟩
  | setDebug on =>
    cases hc
    exact ⟨hs, .inr (.inr ⟨rfl, fun _ _ => Bool.false_ne_true⟩)⟩
  | read q =>
    cases hc
    exact ⟨hs, .inr (.inr ⟨rfl, fun _ _ => Bool.false_ne_true⟩)⟩

namespace Run

variable {g : Gate σ δ}

theorem Awake.successor {tasks : Agenda σ} {r : Run σ} {t u : Task σ} (h : Awake g tasks r)
    (hf : Task.Successor g r t u) : u.Eager g := by
  cases hf with
  | reaction hx hop => exact h.reactions _ hx _ hop
  | script hs hop => exact h.scripts _ hs _ hop
  | panic hs hp => exact (h.scripts _ hs _ hp).elim
  | _ => trivial

/-- A task that leaves the slots as they are, stores nothing and is no part of an attempt leaves a
complete gate attended to. -/
theorem Awake.carry {t : Task σ} {rest tasks : Agenda σ} {r : Run σ} {new : History σ}
    {s : State σ} (h : Awake g (t :: rest) r) (hs : s.slots = r.state.slots)
    (hall : s.slots.allSet = true) (ht : ¬ t.Attends) (hn : ∀ m ∈ new, ¬ m.isStore) :
    Attended g (tasks ++ rest) (new ++ r.history) s.slots.arguments := by
  rw [hs] at hall ⊢
  refine (h.complete hall).mono (fun u hu hat => ?_) hn
  rcases List.mem_cons.1 hu with rfl | hu
  · exact absurd hat ht
  · exact List.mem_append_right _ hu

/-- An attempt on a complete gate finds it ready. -/
theorem attended_attempt {a : Activity} {rest : Agenda σ} {r : Run σ} (hu : r.unwinding = false)
    (he : r.state.enabled = true) (hb : g.isBound = true) (hall : r.state.slots.allSet = true) :
    Attended g (((Task.attempt a).step g r).1 ++ rest) (.changed a .copied r.state :: r.history)
      r.state.slots.arguments := by
  have hready := Gate.decision_eq_ready_iff.2 ⟨he, hb, hall, rfl⟩
  simp only [Task.step, hu, Bool.false_eq_true, if_false, Task.attemptStep_ready hready]
  cases ho : g.settings.oneShot with
  | true => exact .inr (.inl ⟨ho, a, by simp⟩)
  | false =>
    refine .inr (.inr ⟨ho, .inl ⟨a, by simp, ?_⟩⟩)
    exact ⟨r.state, r.history, .refl _ _, rfl⟩

/-- A call delivers what it carries, and whoever waits for another task still does. -/
theorem attended_call {a : Activity} {args args' : σ.Arguments} {rest tasks : Agenda σ}
    {h : History σ} (ha : Attended g (.call a args :: rest) h args') :
    Attended g (tasks ++ rest) (.called a args :: h) args' := by
  have hn : ∀ m ∈ [Moment.called a args], ¬ m.isStore := by simp [Moment.isStore]
  rcases ha with ⟨b, hm⟩ | ⟨ho, b, hm⟩ | ⟨ho, ⟨b, hm, hc⟩ | hd⟩
  · exact .inl ⟨b, List.mem_append_right _ (by simpa using hm)⟩
  · exact .inr (.inl ⟨ho, b, List.mem_append_right _ (by simpa using hm)⟩)
  · rcases List.mem_cons.1 hm with he | hm
    · cases he
      exact .inr (.inr ⟨ho, .inr ⟨a, h, .refl _ _, hc⟩⟩)
    · exact .inr (.inr ⟨ho, .inl ⟨b, List.mem_append_right _ hm, hc.append hn⟩⟩)
  · exact .inr (.inr ⟨ho, .inr (hd.append hn)⟩)

theorem awake_step {t : Task σ} {rest : Agenda σ} {r : Run σ} (hb : g.isBound = true)
    (h : Awake g (t :: rest) r) : Awake g ((t.step g r).1 ++ rest) (t.step g r).2 := by
  obtain ⟨new, s, heffect, hs, hnew⟩ := Task.step_effect g h.calm t
  have hframe := Task.step_frame g h.calm t
  have ht : t.Eager g := h.agenda t List.mem_cons_self
  constructor
  case enabled =>
    rw [hs]
    cases heffect with
    | opened opens => exact (Gate.Eager.opening ht h.enabled opens).1
    | swept => rw [State.vacateAll_enabled, h.enabled]
    | _ => exact h.enabled
  case calm =>
    apply hframe.calm
    rintro rfl
    exact ht
  case agenda =>
    intro u hu
    rcases List.mem_append.1 hu with hu | hu
    · exact h.successor (Task.successor_of_mem_step hu)
    · exact h.agenda u (List.mem_cons_of_mem _ hu)
  case scripts => exact fun s hs => h.scripts s (hframe.scripts s hs)
  case reactions => exact fun x hx => h.reactions x (hframe.reactions x hx)
  case complete =>
    rw [hs, hnew]
    intro hall
    cases heffect with
    | opened opens =>
      next caller op c =>
      rcases (Gate.Eager.opening ht h.enabled opens).2 with ⟨i, v, rfl⟩ | hnot | ⟨hsame, hstore⟩
      · refine .inl ⟨⟨r.begun, caller⟩, List.mem_append_left _ ?_⟩
        simp only [Task.step, h.calm, Bool.false_eq_true, if_false]
        exact Task.attempt_mem_startStep_set h.enabled ht
      · rw [hnot] at hall
        cases hall
      · refine h.carry hsame hall id fun m hm => ?_
        rcases List.mem_cons.1 hm with rfl | hm
        · exact hstore _ _
        · rw [List.mem_singleton.1 hm]
          exact Bool.false_ne_true
    | attempted =>
      rw [if_pos h.enabled]
      exact attended_attempt h.calm h.enabled hb hall
    | swept =>
      rw [State.vacateAll, if_pos h.enabled, Slots.allSet_vacant] at hall
      cases hall
    | called => exact attended_call (h.complete hall)
    | _ => exact h.carry rfl hall id (by simp [Moment.isStore])

theorem awake_invariant (hb : g.isBound = true) : Invariant g g.Eager (Awake g) where
  begins op r hop hu h := by
    refine ⟨h.enabled, hu, by simpa [Task.Eager] using hop, h.scripts, h.reactions, fun hall => ?_⟩
    have hno : ∀ m ∈ ([] : History σ), ¬ m.isStore := by simp
    exact (h.complete hall).mono (by simp) hno
  keeps t rest r _ _ h := awake_step hb h
  drops t rest r hu h := by
    have hcalm := h.calm
    rw [hu] at hcalm
    cases hcalm
  settles r h := ⟨h.enabled, rfl, h.agenda, h.scripts, h.reactions, h.complete⟩

/-- After every operation of the top, a complete gate is not a one-shot gate, and what it holds was
delivered by a call from a copy that was made after the last effective store. -/
theorem no_lost_wakeup (g : Gate σ (Delegate σ)) (reactions : List (Reaction σ))
    (dispatch : Dispatch) (ops : List (Operation σ)) (hbound : g.isBound = true)
    (henabled : g.settings.enabled = true) (hops : ∀ op ∈ ops, g.Eager op)
    (hscripts : ∀ d ∈ g.delegate, ∀ s ∈ d.scripts, ∀ c ∈ s, c.Eager g)
    (hreactions : ∀ x ∈ reactions, ∀ op ∈ x.operations, g.Eager op) :
    let r := performAll g (start g reactions dispatch) ops
    r.state.slots.allSet = true →
      g.settings.oneShot = false ∧ r.history.Delivered r.state.slots.arguments := by
  intro r hall
  have hstart : Awake g [] (start g reactions dispatch) := by
    refine ⟨henabled, rfl, by simp, fun s hs => ?_, hreactions, fun h => ?_⟩
    · cases hd : g.delegate with
      | none => simp [start, hd] at hs
      | some d => exact hscripts d hd s (by simpa [start, hd] using hs)
    · rw [show (start g reactions dispatch).state.slots = .vacant from rfl, Slots.allSet_vacant] at h
      cases h
  have h := (awake_invariant hbound).performAll ops hops rfl hstart
  rcases h.complete hall with ⟨a, hm⟩ | ⟨-, a, hm⟩ | ⟨ho, ⟨a, hm, -⟩ | hd⟩
  · cases hm
  · cases hm
  · cases hm
  · exact ⟨ho, hd⟩

/-- The subscriber completes the gate while it hears that the gate is not complete, and the delegate
stores again in its call. -/
theorem no_lost_wakeup_of_refill :
    let g := Gate.flags { debug := true } [[.perform (.set Gate.right false)]]
    let reactions : List (Reaction .flags) := [⟨"gate.fire.pending", [.set Gate.right true]⟩]
    let r := performAll g (start g reactions (.registering [])) [.set Gate.left true]
    r.state.slots.allSet = true ∧ g.settings.oneShot = false ∧
      r.history.Delivered r.state.slots.arguments := by
  intro g reactions r
  have hops : ∀ op ∈ [Operation.set Gate.left true], g.Eager op := by
    intro op hop
    cases List.mem_singleton.1 hop
    exact .inl rfl
  have hscripts : ∀ d ∈ g.delegate, ∀ s ∈ d.scripts, ∀ c ∈ s, c.Eager g := by
    intro d hd s hs c hc
    cases hd
    cases List.mem_singleton.1 hs
    cases List.mem_singleton.1 hc
    exact .inl rfl
  have hreactions : ∀ x ∈ reactions, ∀ op ∈ x.operations, g.Eager op := by
    intro x hx op hop
    cases List.mem_singleton.1 hx
    cases List.mem_singleton.1 hop
    exact .inl rfl
  have hall : r.state.slots.allSet = true := by decide +kernel
  exact ⟨hall, no_lost_wakeup g reactions _ _ rfl rfl hops hscripts hreactions hall⟩

end Run

end SlotGate
