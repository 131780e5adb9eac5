import SlotGate.Proofs.Window

/-!
# The course of one operation

Tasks and moments belong to the activity that they name. Subscribers and delegates put other activities
in between, but what belongs to one of them goes a course of its own: the operation has its first section,
attempts to fire, empties the slots, calls the delegate, has it return, and answers. Nothing but a panic
takes the rest of a course away.
-/
namespace SlotGate

variable {σ : Signature} {δ : Type}

namespace Operation

/-- Whether an operation may fire the gate. -/
def fires : Operation σ → Bool
  | set .. | fire => true
  | assign .. | clearSlot _ | clear | setEnabled _ | setDebug _ | read _ => false

/-- The answer that an operation gives right after its first section, which found the state `s`. -/
def reply (g : Gate σ δ) (s : State σ) : Operation σ → Answer σ
  | set .. | fire => .flag false
  | assign i v => .value i (if s.enabled then (σ.type i).stored v else v)
  | clearSlot _ | clear => .done
  | setEnabled on | setDebug on => .flag on
  | read q => q.answer g s

end Operation

namespace Task

/-- Whether a task is a part of the activity `a`. -/
def isOf (a : Activity) : Task σ → Bool
  | attempt b | sweep b | call b _ | leave b | finish b _ => b = a
  | start .. | emit .. | listen | panic => false

/-- What is left of an activity after its first section: it answers, or it attempts to fire first. -/
theorem startStep_isOf (g : Gate σ δ) (a : Activity) (op : Operation σ) (r : Run σ) :
    ((startStep g a op r).1.filter (isOf a) = [attempt a] ∧ op.fires = true) ∨
      ((startStep g a op r).1.filter (isOf a) = [finish a (op.reply g r.state)] ∧
        ∃ c, op.opening r.state = some c) := by
  cases op <;> simp only [startStep, Operation.reply, Operation.opening] <;> (repeat' split) <;>
    simp_all [isOf, Operation.fires]

/-- What a call puts on the agenda for its own activity is the return. -/
theorem callStep_isOf {g : Gate σ δ} {a : Activity} {args : σ.Arguments} {r : Run σ}
    (hu : r.unwinding = false) : ((call a args).step g r).1.filter (isOf a) = [leave a] := by
  have hscript : ∀ s : Script σ, (Agenda.ofScript s).filter (isOf a) = [] := by
    intro s
    refine List.filter_eq_nil_iff.2 fun t ht => ?_
    obtain ⟨c, -, rfl⟩ := List.mem_map.1 ht
    cases c <;> exact Bool.false_ne_true
  simp only [step, hu, Bool.false_eq_true, if_false, callStep]
  split <;> simp [hscript, isOf]

/-- A task puts on the agenda what belongs to its own activity, or to the one that it begins. -/
theorem isOf_of_mem_step {g : Gate σ δ} {r : Run σ} {t u : Task σ} {a : Activity}
    (h : u ∈ (t.step g r).1) (ha : u.isOf a = true) :
    t.isOf a = true ∨ ∃ caller op, t = start caller op ∧ a = ⟨r.begun, caller⟩ := by
  unfold step at h
  split at h
  · cases h
  · cases t with
    | start caller op =>
      refine .inr ⟨caller, op, rfl, ?_⟩
      rcases mem_startStep h with ⟨e, traced, rfl⟩ | rfl | ⟨answer, rfl⟩
      · cases ha
      · simpa [isOf, eq_comm] using ha
      · simpa [isOf, eq_comm] using ha
    | emit e traced =>
      rcases mem_emitStep h with rfl | ⟨x, -, op, -, rfl⟩ <;> cases ha
    | attempt b =>
      left
      by_cases hr : ∃ args, g.decision r.state = .ready args
      · obtain ⟨args, hr⟩ := hr
        simp only [attemptStep_ready hr] at h
        cases ho : g.settings.oneShot <;> simp [ho] at h <;> grind [isOf]
      · have hnot : u ∈ (attemptStep g b r).1 := h
        rcases attemptStep_not_ready (a := b) (not_exists.1 hr) with he | ⟨e, traced, he⟩ <;>
          rw [he] at hnot <;> simp at hnot <;> grind [isOf]
    | sweep b =>
      rw [mem_sweepStep h] at ha
      cases ha
    | call b args =>
      left
      rcases mem_callStep h with rfl | ⟨s, -, c, -, rfl⟩
      · exact ha
      · cases c <;> cases ha
    | _ => cases h

theorem step_isOf (g : Gate σ δ) {r : Run σ} {t : Task σ} {a : Activity} (ha : a.id < r.begun)
    (ht : t.isOf a = false) : (t.step g r).1.filter (isOf a) = [] := by
  refine List.filter_eq_nil_iff.2 fun u hu hua => ?_
  rcases isOf_of_mem_step hu hua with h | ⟨caller, op, rfl, rfl⟩
  · rw [ht] at h
    cases h
  · exact Nat.lt_irrefl _ ha

end Task

namespace Moment

/-- Whether a moment is a part of the activity `a`. -/
def isOf (a : Activity) : Moment σ → Bool
  | began b _ | changed b _ _ | called b _ | returned b | finished b _ _ => b = a
  | emitted .. | panicked => false

def isFinish : Moment σ → Bool
  | finished .. => true
  | _ => false

end Moment

namespace Task

/-- The moments that a task adds belong to its own activity, or to the one that it begins. -/
theorem Effect.isOf_of_mem {r : Run σ} {t : Task σ} {new : History σ} {s : State σ}
    (h : Effect r t new s) {m : Moment σ} (hm : m ∈ new) {a : Activity} (ha : m.isOf a = true) :
    t.isOf a = true ∨ ∃ caller op, t = start caller op ∧ a = ⟨r.begun, caller⟩ := by
  cases h <;> simp at hm <;> grind [isOf, Moment.isOf]

theorem Effect.of_began {r : Run σ} {t : Task σ} {new after before : History σ} {s : State σ}
    {a : Activity} {op : Operation σ} (h : Effect r t new s)
    (he : new = after ++ .began a op :: before) :
    ∃ caller, t = start caller op ∧ a = ⟨r.begun, caller⟩ ∧ before = [] ∧ ∀ m ∈ after, ¬ m.IsTop := by
  cases h with
  | opened opens =>
    cases after with
    | nil => cases he
    | cons m after =>
      obtain ⟨rfl, hbegan⟩ := List.cons.inj he
      obtain ⟨rfl, rfl⟩ := History.split_singleton hbegan
      cases hbegan
      exact ⟨_, rfl, rfl, rfl, by simp [Moment.IsTop]⟩
  | began opens =>
    obtain ⟨rfl, rfl⟩ := History.split_singleton he
    cases he
    exact ⟨_, rfl, rfl, rfl, by simp⟩
  | silent => simp at he
  | listened => simp at he
  | _ =>
    obtain ⟨rfl, rfl⟩ := History.split_singleton he
    cases he

theorem Effect.filter_isOf {r : Run σ} {t : Task σ} {new : History σ} {s : State σ}
    (h : Effect r t new s) {a : Activity} (ha : a.id < r.begun) (ht : t.isOf a = false) :
    new.filter (Moment.isOf a) = [] := by
  refine List.filter_eq_nil_iff.2 fun m hm hma => ?_
  rcases h.isOf_of_mem hm hma with h | ⟨caller, op, rfl, rfl⟩
  · rw [ht] at h
    cases h
  · exact Nat.lt_irrefl _ ha

end Task

/-- Neither a call nor an answer. -/
def Moment.Early (m : Moment σ) : Prop := m.isCall = false ∧ m.isFinish = false

/-- How far the operation `op` of the activity `a` has got: its moments so far, the latest first, and
its tasks ahead. -/
inductive Course (g : Gate σ δ) (a : Activity) (op : Operation σ) : History σ → Agenda σ → Prop where
  /-- An operation that has had its first section and only has to answer. -/
  | replying {s : State σ} {c : Change σ} (opens : op.opening s = some c) :
      Course g a op [.changed a c (c.apply s), .began a op] [.finish a (op.reply g s)]
  | trying {own : History σ} (fires : op.fires = true) (early : ∀ m ∈ own, m.Early) :
      Course g a op own [.attempt a]
  | refusing {own : History σ} (fires : op.fires = true) (early : ∀ m ∈ own, m.Early) :
      Course g a op own [.finish a (.flag false)]
  | emptying {own : History σ} {args : σ.Arguments} (fires : op.fires = true)
      (bound : g.isBound = true) (early : ∀ m ∈ own, m.Early) :
      Course g a op own [.sweep a, .call a args, .finish a (.flag true)]
  | calling {own : History σ} {args : σ.Arguments} (fires : op.fires = true)
      (bound : g.isBound = true) (early : ∀ m ∈ own, m.Early) :
      Course g a op own [.call a args, .finish a (.flag true)]
  | inside {own : History σ} {args : σ.Arguments} (fires : op.fires = true)
      (bound : g.isBound = true) (early : ∀ m ∈ own, m.Early) :
      Course g a op (.called a args :: own) [.leave a, .finish a (.flag true)]
  | returned {own : History σ} {args : σ.Arguments} (fires : op.fires = true)
      (bound : g.isBound = true) (early : ∀ m ∈ own, m.Early) :
      Course g a op (.returned a :: .called a args :: own) [.finish a (.flag true)]
  | answered {own : History σ} {x : Answer σ} {s : State σ} (last : Course g a op own [.finish a x]) :
      Course g a op (.finished a x s :: own) []

namespace Course

variable {g : Gate σ δ} {a : Activity} {op : Operation σ}

/-- An operation that has just begun. -/
theorem begin {r : Run σ} {caller : Caller} {new : History σ} {s : State σ}
    (hu : r.unwinding = false) (h : Task.Effect r (.start caller op) new s) :
    Course g ⟨r.begun, caller⟩ op (new.filter (Moment.isOf ⟨r.begun, caller⟩))
      (((Task.start caller op).step g r).1.filter (Task.isOf ⟨r.begun, caller⟩)) := by
  let a : Activity := ⟨r.begun, caller⟩
  let r₀ : Run σ := { r with begun := r.begun + 1, history := .began a op :: r.history }
  have hstep : (Task.start caller op).step g r = Task.startStep g a op r₀ :=
    Task.step_start hu caller op
  have hstate : r₀.state = r.state := rfl
  rw [hstep]
  rcases Task.startStep_isOf g a op r₀ with ⟨htasks, hfires⟩ | ⟨htasks, c, hc⟩
  · rw [htasks]
    refine .trying hfires fun m hm => ?_
    have hmem := List.mem_of_mem_filter hm
    cases h <;> simp at hmem <;> rcases hmem with rfl | rfl <;> exact ⟨rfl, rfl⟩
  · rw [htasks, hstate]
    rw [hstate] at hc
    cases h with
    | opened opens =>
      simp only [Moment.isOf, List.filter_cons, decide_true, if_true, List.filter_nil]
      exact .replying opens
    | began opens =>
      rw [opens] at hc
      cases hc

/-- A task of the activity takes it one step further. -/
theorem advance {t : Task σ} {left : Agenda σ} {own : History σ} {r : Run σ}
    (hc : Course g a op own (t :: left)) (hu : r.unwinding = false) (ht : t.isOf a = true)
    {new : History σ} {s : State σ} (h : Task.Effect r t new s) :
    Course g a op (new.filter (Moment.isOf a) ++ own)
      ((t.step g r).1.filter (Task.isOf a) ++ left) := by
  cases hc with
  | replying opens =>
    cases h
    simpa [Task.step, hu, Moment.isOf] using Course.answered (.replying opens)
  | trying fires early =>
    have hstep : (Task.attempt a).step g r = Task.attemptStep g a r := by simp [Task.step, hu]
    cases h
    have hearly : ∀ m ∈ .changed a (if r.state.enabled then .copied else .refused) r.state :: own,
        m.Early := List.forall_mem_cons.2 ⟨⟨rfl, rfl⟩, early⟩
    rw [hstep]
    by_cases hready : ∃ args, g.decision r.state = .ready args
    · obtain ⟨args, hready⟩ := hready
      have hbound := (Gate.decision_eq_ready_iff.1 hready).2.1
      rw [Task.attemptStep_ready hready]
      cases ho : g.settings.oneShot with
      | true => simpa [Task.isOf, Moment.isOf] using Course.emptying fires hbound hearly
      | false => simpa [Task.isOf, Moment.isOf] using Course.calling fires hbound hearly
    · have hrefusing : Course g a op _ [.finish a (.flag false)] := .refusing fires hearly
      rcases Task.attemptStep_not_ready (a := a) (not_exists.1 hready) with he | ⟨e, traced, he⟩ <;>
        simpa [he, Task.isOf, Moment.isOf] using hrefusing
  | refusing fires early =>
    cases h
    simpa [Task.step, hu, Moment.isOf] using Course.answered (.refusing fires early)
  | emptying fires bound early =>
    have hnone : ((Task.sweep a).step g r).1.filter (Task.isOf a) = [] := by
      refine List.filter_eq_nil_iff.2 fun u hmem => ?_
      have hsweep : u ∈ (Task.sweepStep a r).1 := by simpa [Task.step, hu] using hmem
      rw [Task.mem_sweepStep hsweep]
      exact Bool.false_ne_true
    cases h
    rw [hnone]
    simpa [Moment.isOf] using Course.calling fires bound
      (List.forall_mem_cons.2 ⟨⟨rfl, rfl⟩, early⟩)
  | calling fires bound early =>
    cases h
    rw [Task.callStep_isOf hu]
    simpa [Moment.isOf] using Course.inside fires bound early
  | inside fires bound early =>
    cases h
    simpa [Task.step, hu, Moment.isOf] using Course.returned fires bound early
  | returned fires bound early =>
    cases h
    simpa [Task.step, hu, Moment.isOf] using Course.answered (.returned fires bound early)

/-- An operation that cannot fire has its first section and answers by what that section found. -/
theorem of_not_fires {left : Agenda σ} {own : History σ} (hc : Course g a op own left)
    (hf : op.fires = false) : ∃ s c, op.opening s = some c ∧
      ((left = [.finish a (op.reply g s)] ∧ own = [.changed a c (c.apply s), .began a op]) ∨
        ∃ s', left = [] ∧
          own = [.finished a (op.reply g s) s', .changed a c (c.apply s), .began a op]) := by
  cases hc with
  | replying opens => exact ⟨_, _, opens, .inl ⟨rfl, rfl⟩⟩
  | answered last =>
    cases last with
    | replying opens => exact ⟨_, _, opens, .inr ⟨_, rfl, rfl⟩⟩
    | refusing fires | returned fires =>
      rw [fires] at hf
      cases hf
  | trying fires | refusing fires | emptying fires | calling fires | inside fires | returned fires =>
    rw [fires] at hf
    cases hf

end Course

namespace Run

variable {g : Gate σ δ}

/-- What is left of the operation that `a` began before `after` is on the agenda, or a panic has taken
it away. -/
inductive Left (a : Activity) (after : History σ) (tasks : Agenda σ) (r : Run σ) :
    Agenda σ → Prop where
  | ahead (recent : tasks.filter (Task.isOf a) ≠ [] → r.unwinding = false ∧ ∀ m ∈ after, ¬ m.IsTop) :
      Left a after tasks r (tasks.filter (Task.isOf a))
  | lost {left : Agenda σ} (unwound : History.Unwound after)
      (gone : r.unwinding = false → tasks.filter (Task.isOf a) = []) : Left a after tasks r left

/-- Every operation goes its course, and what belongs to an activity belongs to one that has begun. -/
structure Coursing (g : Gate σ δ) (tasks : Agenda σ) (r : Run σ) : Prop where
  moments : ∀ m ∈ r.history, ∀ a, m.isOf a = true → ∃ op, .began a op ∈ r.history
  agenda : ∀ t ∈ tasks, ∀ a, t.isOf a = true → ∃ op, .began a op ∈ r.history
  courses : r.history.Every fun after m before => ∀ a op, m = .began a op →
    a.id < r.begun ∧ (∀ x ∈ before, x.isOf a = false) ∧
      ∃ left, Course g a op (r.history.filter (Moment.isOf a)) left ∧ Left a after tasks r left

/-- With nothing on the agenda, or a panic unwinding it, nothing of an operation is on its way. -/
theorem Left.idle {a : Activity} {after : History σ} {tasks tasks' left : Agenda σ} {r r' : Run σ}
    (h : Left a after tasks r left) (hidle : r.unwinding = true ∨ tasks = [])
    (hless : tasks.filter (Task.isOf a) = [] → tasks'.filter (Task.isOf a) = [])
    (hgone : r'.unwinding = false → tasks'.filter (Task.isOf a) = []) :
    Left a after tasks' r' left := by
  cases h with
  | ahead recent =>
    have hnone : tasks.filter (Task.isOf a) = [] := by
      by_contra hne
      rcases hidle with hu | rfl
      · rw [(recent hne).1] at hu
        cases hu
      · exact hne rfl
    have hnone' := hless hnone
    rw [hnone, ← hnone']
    exact .ahead fun hne => absurd hnone' hne
  | lost unwound gone => exact .lost unwound hgone

/-- A task of another activity leaves alone what is ahead of `a`, unless it is a panic. -/
theorem Left.other {a : Activity} {after new : History σ} {t : Task σ} {rest left : Agenda σ}
    {r : Run σ} {s : State σ} (h : Left a after (t :: rest) r left) (hn : t.Nested ∨ rest = [])
    (hu : r.unwinding = false) (heffect : Task.Effect r t new s) (ha : a.id < r.begun)
    (ht : t.isOf a = false) :
    Left a (new ++ after) ((t.step g r).1 ++ rest) (t.step g r).2 left := by
  have hsame : ((t.step g r).1 ++ rest).filter (Task.isOf a) = rest.filter (Task.isOf a) := by
    rw [List.filter_append, Task.step_isOf g ha ht, List.nil_append]
  have hrest : (t :: rest).filter (Task.isOf a) = rest.filter (Task.isOf a) := by
    simp [ht]
  cases h with
  | lost unwound gone =>
    refine .lost (unwound.append new) fun _ => ?_
    rw [hsame, ← hrest, gone hu]
  | ahead recent =>
    by_cases hnone : rest.filter (Task.isOf a) = []
    · rw [hrest, ← hsame]
      exact .ahead fun hne => absurd (hsame.trans hnone) hne
    · obtain ⟨-, htop⟩ := recent (hrest ▸ hnone)
      have hnested : t.Nested := hn.resolve_right fun he => hnone (by simp [he])
      by_cases hp : t = .panic
      · -- the panic falls into the operation of the top in which `a` began
        subst hp
        cases heffect
        refine .lost ⟨[], after, rfl, htop⟩ fun hcalm => ?_
        simp [Task.step, hu] at hcalm
      · rw [hrest, ← hsame]
        refine .ahead fun _ => ⟨(Task.step_frame g hu t).calm hp, fun m hm => ?_⟩
        exact (List.mem_append.1 hm).elim (heffect.not_isTop hnested m) (htop m)

/-- A task of the activity itself takes what is ahead of it one step further. -/
theorem Left.own {a : Activity} {op : Operation σ} {after new : History σ} {t : Task σ}
    {rest left : Agenda σ} {r : Run σ} {s : State σ} (h : Left a after (t :: rest) r left)
    (hc : Course g a op (r.history.filter (Moment.isOf a)) left) (hu : r.unwinding = false)
    (heffect : Task.Effect r t new s) (ht : t.isOf a = true) :
    ∃ left', Course g a op ((new ++ r.history).filter (Moment.isOf a)) left' ∧
      Left a (new ++ after) ((t.step g r).1 ++ rest) (t.step g r).2 left' := by
  have htasks : (t :: rest).filter (Task.isOf a) = t :: rest.filter (Task.isOf a) := by
    simp [ht]
  cases h with
  | lost unwound gone =>
    have hnone := gone hu
    rw [htasks] at hnone
    cases hnone
  | ahead recent =>
    rw [htasks] at hc
    obtain ⟨-, htop⟩ := recent (htasks ▸ List.cons_ne_nil _ _)
    refine ⟨((t.step g r).1 ++ rest).filter (Task.isOf a), ?_, .ahead fun _ => ⟨?_, fun m hm => ?_⟩⟩
    · rw [List.filter_append, List.filter_append]
      exact hc.advance hu ht heffect
    · refine (Task.step_frame g hu t).calm ?_
      rintro rfl
      cases ht
    · have hnested : t.Nested := by
        cases t <;> trivial
      exact (List.mem_append.1 hm).elim (heffect.not_isTop hnested m) (htop m)

theorem Coursing.numbered {tasks : Agenda σ} {r : Run σ} (h : Coursing g tasks r) {a : Activity}
    {op : Operation σ} (hb : .began a op ∈ r.history) : a.id < r.begun := by
  obtain ⟨after, before, he⟩ := List.append_of_mem hb
  exact (h.courses _ _ _ he a op rfl).1

/-- What comes to pass and what is on the agenda belongs to operations that have begun. -/
theorem Coursing.fresh {tasks : Agenda σ} {r : Run σ} (h : Coursing g tasks r) {a : Activity}
    (ha : r.begun ≤ a.id) :
    (∀ m ∈ r.history, m.isOf a = false) ∧ ∀ t ∈ tasks, t.isOf a = false := by
  constructor
  · intro m hm
    refine Bool.eq_false_iff.2 fun hown => ?_
    obtain ⟨op, hop⟩ := h.moments m hm a hown
    exact Nat.not_lt.2 ha (h.numbered hop)
  · intro t ht
    refine Bool.eq_false_iff.2 fun hown => ?_
    obtain ⟨op, hop⟩ := h.agenda t ht a hown
    exact Nat.not_lt.2 ha (h.numbered hop)

theorem coursing_step {t : Task σ} {rest : Agenda σ} {r : Run σ} (hn : t.Nested ∨ rest = [])
    (hu : r.unwinding = false) (h : Coursing g (t :: rest) r) :
    Coursing g ((t.step g r).1 ++ rest) (t.step g r).2 := by
  obtain ⟨new, s, heffect, -, hnew⟩ := Task.step_effect g hu t
  have hbegun := (Task.step_frame g hu t).begun
  have hbegan : ∀ {a : Activity}, (t.isOf a = true ∨
      ∃ caller op, t = .start caller op ∧ a = ⟨r.begun, caller⟩) →
        ∃ op, .began a op ∈ (t.step g r).2.history := by
    rw [hnew]
    rintro a (ht | ⟨caller, op, rfl, rfl⟩)
    · obtain ⟨op, hop⟩ := h.agenda t List.mem_cons_self a ht
      exact ⟨op, List.mem_append_right _ hop⟩
    · exact ⟨op, List.mem_append_left _ (by cases heffect <;> simp)⟩
  constructor
  case moments =>
    intro m hm a ha
    rw [hnew] at hm
    rcases List.mem_append.1 hm with hm | hm
    · exact hbegan (heffect.isOf_of_mem hm ha)
    · obtain ⟨op, hop⟩ := h.moments m hm a ha
      exact ⟨op, hnew ▸ List.mem_append_right _ hop⟩
  case agenda =>
    intro u hu' a ha
    rcases List.mem_append.1 hu' with hu' | hu'
    · exact hbegan (Task.isOf_of_mem_step hu' ha)
    · obtain ⟨op, hop⟩ := h.agenda u (List.mem_cons_of_mem _ hu') a ha
      exact ⟨op, hnew ▸ List.mem_append_right _ hop⟩
  case courses =>
    rw [hnew]
    refine History.every_append h.courses ?_ ?_
    · intro after m before hold a op hm
      obtain ⟨ha, hbefore, left, hc, hleft⟩ := hold a op hm
      refine ⟨?_, hbefore, ?_⟩
      · rw [hbegun]
        split
        · exact Nat.lt_succ_of_lt ha
        · exact ha
      · cases ht : t.isOf a with
        | true => exact hleft.own hc hu heffect ht
        | false =>
          refine ⟨left, ?_, hleft.other hn hu heffect ha ht⟩
          rw [List.filter_append, heffect.filter_isOf ha ht]
          exact hc
    · intro after m before he a op hm
      subst hm
      obtain ⟨caller, rfl, rfl, rfl, hafter⟩ := heffect.of_began he
      obtain ⟨hpast, hahead⟩ := h.fresh (a := ⟨r.begun, caller⟩) (Nat.le_refl _)
      have hnone : r.history.filter (Moment.isOf ⟨r.begun, caller⟩) = [] :=
        List.filter_eq_nil_iff.2 fun x hx => by simp [hpast x hx]
      have hrest : rest.filter (Task.isOf ⟨r.begun, caller⟩) = [] :=
        List.filter_eq_nil_iff.2 fun u hmem => by simp [hahead u (List.mem_cons_of_mem _ hmem)]
      refine ⟨by simp [hbegun], hpast, _, ?_, .ahead fun _ => ⟨?_, hafter⟩⟩
      · rw [List.filter_append, List.filter_append, hnone, hrest, List.append_nil, List.append_nil]
        exact Course.begin hu heffect
      · exact (Task.step_frame g hu _).calm (by simp)

theorem coursing_invariant (g : Gate σ δ) : Invariant g (fun _ => True) (Coursing g) where
  begins op r _ hu h := by
    refine ⟨h.moments, by simp [Task.isOf], fun after m before he a op hm => ?_⟩
    obtain ⟨ha, hbefore, left, hc, hleft⟩ := h.courses after m before he a op hm
    exact ⟨ha, hbefore, left, hc, hleft.idle (.inr rfl) (by simp [Task.isOf]) (by simp [Task.isOf])⟩
  keeps t rest r hn hu h := coursing_step hn hu h
  drops t rest r hu h := by
    refine ⟨h.moments, fun u hu' => h.agenda u (List.mem_cons_of_mem _ hu'), ?_⟩
    intro after m before he a op hm
    obtain ⟨ha, hbefore, left, hc, hleft⟩ := h.courses after m before he a op hm
    refine ⟨ha, hbefore, left, hc, hleft.idle (.inl hu) (fun hnone => ?_) fun hf => ?_⟩
    · have hsub := (List.sublist_cons_self t rest).filter (Task.isOf a)
      rw [hnone] at hsub
      exact List.sublist_nil.1 hsub
    · rw [hu] at hf
      cases hf
  settles r h := by
    refine ⟨h.moments, by simp, fun after m before he a op hm => ?_⟩
    obtain ⟨ha, hbefore, left, hc, hleft⟩ := h.courses after m before he a op hm
    exact ⟨ha, hbefore, left, hc, hleft.idle (.inr rfl) id (fun _ => rfl)⟩

end Run

namespace History

/-- Every operation of a history has gone its course to the end, or was unwound by a panic. -/
structure Coursed (g : Gate σ δ) (h : History σ) : Prop where
  owned : ∀ m ∈ h, ∀ a, m.isOf a = true → ∃ op, .began a op ∈ h
  courses : h.Every fun after m before => ∀ a op, m = .began a op →
    (∀ x ∈ before, x.isOf a = false) ∧
      ∃ left, Course g a op (h.filter (Moment.isOf a)) left ∧ (left = [] ∨ Unwound after)

end History

namespace Run

theorem coursed_performAll (g : Gate σ (Delegate σ)) (reactions : List (Reaction σ))
    (dispatch : Dispatch) (ops : List (Operation σ)) :
    (performAll g (start g reactions dispatch) ops).history.Coursed g := by
  have hstart : Coursing g [] (start g reactions dispatch) :=
    ⟨by simp [start], by simp, by simp [History.Every, start]⟩
  have h := (coursing_invariant g).performAll ops (fun _ _ => trivial) rfl hstart
  refine ⟨h.moments, fun after m before he a op hm => ?_⟩
  obtain ⟨-, hbefore, left, hc, hleft⟩ := h.courses after m before he a op hm
  refine ⟨hbefore, left, hc, ?_⟩
  cases hleft with
  | ahead => exact .inl rfl
  | lost unwound => exact .inr unwound

end Run

end SlotGate
