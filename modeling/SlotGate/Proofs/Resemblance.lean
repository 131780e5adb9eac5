import Mathlib.Data.List.Basic
import SlotGate.Proofs.Step

/-!
# What a run does next

Where no subscriber acts on a gate, what is to come depends on the state, on the scripts that are left and
on the agenda. What has happened before, which messages have come about and how far operations have been
counted makes no difference but for the numbers of the operations to come, and these are seen nowhere.
-/
namespace SlotGate

variable {σ : Signature} {δ : Type}

def Activity.unnumbered (a : Activity) : Activity := { a with id := 0 }

def Task.unnumbered : Task σ → Task σ
  | start caller op => start caller op
  | emit e traced => emit e traced
  | attempt a => attempt a.unnumbered
  | sweep a => sweep a.unnumbered
  | call a args => call a.unnumbered args
  | leave a => leave a.unnumbered
  | finish a x => finish a.unnumbered x
  | listen => listen
  | panic => panic

namespace Moment

def unnumbered : Moment σ → Moment σ
  | began a op => began a.unnumbered op
  | changed a c s => changed a.unnumbered c s
  | emitted e heard s => emitted e heard s
  | called a args => called a.unnumbered args
  | returned a => returned a.unnumbered
  | finished a x s => finished a.unnumbered x s
  | panicked => panicked

/-- No entry of a log has a number. -/
theorem entry_unnumbered (m : Moment σ) : Moment.entry? m.unnumbered = Moment.entry? m := by
  cases m with
  | emitted e heard s => cases heard <;> rfl
  | finished a x s =>
    obtain ⟨id, caller⟩ := a
    cases caller <;> rfl
  | _ => rfl

end Moment

namespace History

theorem log_append (late early : History σ) : History.log (late ++ early) = early.log ++ late.log := by
  simp [History.log]

/-- Histories that differ in the numbers of their operations have the same log. -/
theorem log_eq_of_unnumbered {h h' : History σ}
    (he : h.map Moment.unnumbered = h'.map Moment.unnumbered) : h.log = h'.log := by
  have hlog : ∀ h : History σ, h.log = (h.map Moment.unnumbered).reverse.filterMap Moment.entry? := by
    intro h
    rw [← List.map_reverse, List.filterMap_map]
    exact List.filterMap_congr fun m _ => (Moment.entry_unnumbered m).symm
  rw [hlog h, hlog h', he]

end History

namespace Run

variable {g : Gate σ δ}

/-- No subscriber acts on the gate, and every event is heard. -/
structure Undisturbed (r : Run σ) : Prop where
  reactions : r.reactions = []
  reacting : r.reacting = 0
  met : ∀ x ∈ r.met, x.reacting = 0

/-- An operation begins. -/
def begin (r : Run σ) (caller : Caller) (op : Operation σ) : Run σ :=
  { r with begun := r.begun + 1, history := .began ⟨r.begun, caller⟩ op :: r.history }

/-- The subscriber hears an event, if there is one. -/
def hear (r : Run σ) (e : Event σ) (traced : Bool) : Run σ :=
  if traced then (r.meet e.message).note (.emitted e true r.state) else r

namespace Undisturbed

theorem emitStep {r : Run σ} (h : r.Undisturbed) (e : Event σ) (traced : Bool) :
    Task.emitStep e traced r = ([], r.hear e traced) := by
  have hheard := Task.hears_of_free h.reacting h.met e.message
  unfold Task.emitStep hear
  cases traced with
  | false => rfl
  | true => simp [hheard, Run.meet, note, h.reactions, takeReaction]

theorem hear {r : Run σ} (h : r.Undisturbed) (e : Event σ) (traced : Bool) :
    (r.hear e traced).Undisturbed := by
  unfold Run.hear
  split
  · exact ⟨h.reactions, h.reacting, List.forall_mem_cons.2 ⟨h.reacting, h.met⟩⟩
  · exact h

theorem step {r : Run σ} (h : r.Undisturbed) (t : Task σ) : (t.step g r).2.Undisturbed := by
  cases hu : r.unwinding with
  | true =>
    rw [Task.step_of_unwinding hu]
    exact h
  | false =>
    simp only [Task.step, hu, Bool.false_eq_true, if_false]
    cases t with
    | start caller op =>
      simp only [Task.startStep_run]
      cases op.opening r.state <;> exact ⟨h.reactions, h.reacting, h.met⟩
    | emit e traced =>
      simp only [h.emitStep]
      exact h.hear e traced
    | attempt a =>
      simp only [Task.attemptStep_run]
      exact ⟨h.reactions, h.reacting, h.met⟩
    | sweep a =>
      simp only [Task.sweepStep_run]
      exact ⟨h.reactions, h.reacting, h.met⟩
    | call a args =>
      obtain ⟨left, -, hc⟩ := Task.callStep_run a args r
      simp only [hc]
      exact ⟨h.reactions, h.reacting, h.met⟩
    | listen => exact ⟨h.reactions, by simp [h.reacting], h.met⟩
    | _ => exact ⟨h.reactions, h.reacting, h.met⟩

theorem advance {r : Run σ} (h : r.Undisturbed) (tasks : Agenda σ) :
    (advance g tasks r).Undisturbed := by
  fun_induction Run.advance g tasks r with
  | case1 => exact h
  | case2 r t rest ih => exact ih (h.step t)

theorem perform {r : Run σ} (h : r.Undisturbed) (op : Operation σ) :
    (perform g r op).Undisturbed := by
  have hend := h.advance (g := g) [.start .top op]
  exact ⟨hend.reactions, rfl, hend.met⟩

theorem performAll {r : Run σ} (h : r.Undisturbed) (ops : List (Operation σ)) :
    (performAll g r ops).Undisturbed := by
  induction ops generalizing r with
  | nil => exact h
  | cons op ops ih => exact ih (h.perform op)

end Undisturbed

theorem undisturbed_start (g : Gate σ (Delegate σ)) (dispatch : Dispatch) :
    (start g [] dispatch).Undisturbed := ⟨rfl, rfl, by simp [start]⟩

theorem performAll_calm {r : Run σ} (hu : r.unwinding = false) (ops : List (Operation σ)) :
    (performAll g r ops).unwinding = false := by
  induction ops generalizing r with
  | nil => exact hu
  | cons op ops ih => exact ih rfl

/-- Two runs that have the same to come. -/
structure Resembles (r q : Run σ) : Prop where
  state : r.state = q.state
  scripts : r.scripts = q.scripts
  unwinding : r.unwinding = q.unwinding
  left : r.Undisturbed
  right : q.Undisturbed

/-- From `r` and `q` on the same happens until `r'` and `q'`. -/
structure Abreast (r q r' q' : Run σ) : Prop where
  resembles : r'.Resembles q'
  history : ∃ new new' : History σ, r'.history = new ++ r.history ∧ q'.history = new' ++ q.history ∧
    new.map Moment.unnumbered = new'.map Moment.unnumbered

namespace Abreast

variable {r q r' q' r'' q'' : Run σ}

theorem refl (h : r.Resembles q) : Abreast r q r q := ⟨h, [], [], rfl, rfl, rfl⟩

theorem trans (h : Abreast r q r' q') (k : Abreast r' q' r'' q'') : Abreast r q r'' q'' := by
  obtain ⟨new, new', hr, hq, he⟩ := h.history
  obtain ⟨late, late', hr', hq', he'⟩ := k.history
  refine ⟨k.resembles, late ++ new, late' ++ new', ?_, ?_, ?_⟩
  · rw [hr', hr, List.append_assoc]
  · rw [hq', hq, List.append_assoc]
  · rw [List.map_append, List.map_append, he, he']

theorem begin (h : r.Resembles q) (caller : Caller) (op : Operation σ) :
    Abreast r q (r.begin caller op) (q.begin caller op) where
  resembles := ⟨h.state, h.scripts, h.unwinding, ⟨h.left.reactions, h.left.reacting, h.left.met⟩,
    ⟨h.right.reactions, h.right.reacting, h.right.met⟩⟩
  history := ⟨[_], [_], rfl, rfl, rfl⟩

theorem note (h : r.Resembles q) {m m' : Moment σ} (hm : m.unnumbered = m'.unnumbered) :
    Abreast r q (r.note m) (q.note m') where
  resembles := ⟨h.state, h.scripts, h.unwinding, ⟨h.left.reactions, h.left.reacting, h.left.met⟩,
    ⟨h.right.reactions, h.right.reacting, h.right.met⟩⟩
  history := ⟨[m], [m'], rfl, rfl, by rw [List.map_singleton, List.map_singleton, hm]⟩

theorem change (h : r.Resembles q) {a b : Activity} (ha : a.unnumbered = b.unnumbered) (c : Change σ)
    (s : State σ) : Abreast r q (r.change a c s) (q.change b c s) where
  resembles := ⟨rfl, h.scripts, h.unwinding, ⟨h.left.reactions, h.left.reacting, h.left.met⟩,
    ⟨h.right.reactions, h.right.reacting, h.right.met⟩⟩
  history := ⟨[_], [_], rfl, rfl, by simp [Moment.unnumbered, ha]⟩

theorem hear (h : r.Resembles q) (e : Event σ) (traced : Bool) :
    Abreast r q (r.hear e traced) (q.hear e traced) := by
  cases traced with
  | false => exact refl h
  | true =>
    refine ⟨⟨h.state, h.scripts, h.unwinding, h.left.hear e true, h.right.hear e true⟩, [_], [_], rfl,
      rfl, ?_⟩
    simp [Moment.unnumbered, h.state]

end Abreast

end Run

namespace Task

variable {g : Gate σ δ} {r q : Run σ} {a b : Activity}

theorem startStep_abreast (h : r.Resembles q) (ha : a.unnumbered = b.unnumbered) (op : Operation σ) :
    (startStep g a op r).1.map unnumbered = (startStep g b op q).1.map unnumbered ∧
      r.Abreast q (startStep g a op r).2 (startStep g b op q).2 := by
  constructor
  · cases op <;> simp only [startStep, h.state] <;> (repeat' split) <;> simp [unnumbered, ha]
  · rw [startStep_run, startStep_run, h.state]
    cases op.opening q.state with
    | none => exact .refl h
    | some c => exact .change h ha c _

theorem attemptStep_abreast (h : r.Resembles q) (ha : a.unnumbered = b.unnumbered) :
    (attemptStep g a r).1.map unnumbered = (attemptStep g b q).1.map unnumbered ∧
      r.Abreast q (attemptStep g a r).2 (attemptStep g b q).2 := by
  constructor
  · simp only [attemptStep, h.state]
    split
    · simp [unnumbered, ha]
    · simp [unnumbered, ha]
    · simp [unnumbered, ha]
    · split <;> simp [unnumbered, ha]
  · rw [attemptStep_run, attemptStep_run, h.state]
    exact .change h ha _ _

theorem sweepStep_abreast (h : r.Resembles q) (ha : a.unnumbered = b.unnumbered) :
    (sweepStep a r).1.map unnumbered = (sweepStep b q).1.map unnumbered ∧
      r.Abreast q (sweepStep a r).2 (sweepStep b q).2 := by
  constructor
  · simp only [sweepStep, h.state]
    split <;> rfl
  · rw [sweepStep_run, sweepStep_run, h.state]
    exact .change h ha _ _

theorem callStep_abreast (h : r.Resembles q) (ha : a.unnumbered = b.unnumbered)
    (args : σ.Arguments) :
    (callStep a args r).1.map unnumbered = (callStep b args q).1.map unnumbered ∧
      r.Abreast q (callStep a args r).2 (callStep b args q).2 := by
  have hnote : r.Abreast q (r.note (.called a args)) (q.note (.called b args)) :=
    .note h (by simp [Moment.unnumbered, ha])
  have hscripts : (r.note (.called a args)).scripts = (q.note (.called b args)).scripts := h.scripts
  simp only [callStep, hscripts]
  cases (q.note (.called b args)).scripts with
  | nil => exact ⟨by simp [unnumbered, ha], hnote⟩
  | cons s rest =>
    obtain ⟨hres, hhistory⟩ := hnote
    refine ⟨by simp [unnumbered, ha], ⟨hres.state, rfl, hres.unwinding, ?_, ?_⟩, hhistory⟩
    · exact ⟨hres.left.reactions, hres.left.reacting, hres.left.met⟩
    · exact ⟨hres.right.reactions, hres.right.reacting, hres.right.met⟩

/-- A task does the same on runs that resemble each other. -/
theorem step_abreast (h : r.Resembles q) {t u : Task σ} (ht : t.unnumbered = u.unnumbered) :
    (t.step g r).1.map unnumbered = (u.step g q).1.map unnumbered ∧
      r.Abreast q (t.step g r).2 (u.step g q).2 := by
  cases hu : r.unwinding with
  | true =>
    rw [step_of_unwinding hu, step_of_unwinding (h.unwinding ▸ hu)]
    exact ⟨rfl, .refl h⟩
  | false =>
    have hu' : q.unwinding = false := h.unwinding ▸ hu
    unfold step
    rw [if_neg (by simp [hu]), if_neg (by simp [hu'])]
    cases t <;> cases u <;> simp only [unnumbered, reduceCtorEq, start.injEq, emit.injEq, attempt.injEq,
      sweep.injEq, call.injEq, leave.injEq, finish.injEq] at ht
    case start.start caller op _ _ =>
      obtain ⟨rfl, rfl⟩ := ht
      have hbegin := Run.Abreast.begin h caller op
      obtain ⟨htasks, hopened⟩ := startStep_abreast (g := g) hbegin.resembles
        (a := ⟨r.begun, caller⟩) (b := ⟨q.begun, caller⟩) rfl op
      exact ⟨htasks, hbegin.trans hopened⟩
    case emit.emit e traced _ _ =>
      obtain ⟨rfl, rfl⟩ := ht
      simp only [h.left.emitStep, h.right.emitStep]
      exact ⟨trivial, .hear h e traced⟩
    case attempt.attempt => exact attemptStep_abreast h ht
    case sweep.sweep => exact sweepStep_abreast h ht
    case call.call =>
      obtain ⟨ha, rfl⟩ := ht
      exact callStep_abreast h ha _
    case leave.leave => exact ⟨rfl, .note h (by simp [Moment.unnumbered, ht])⟩
    case finish.finish =>
      obtain ⟨ha, rfl⟩ := ht
      exact ⟨rfl, .note h (by simp [Moment.unnumbered, ha, h.state])⟩
    case listen.listen =>
      refine ⟨rfl, ⟨h.state, h.scripts, h.unwinding, ?_, ?_⟩, [], [], rfl, rfl, rfl⟩
      · exact ⟨h.left.reactions, by simp [h.left.reacting], h.left.met⟩
      · exact ⟨h.right.reactions, by simp [h.right.reacting], h.right.met⟩
    case panic.panic =>
      refine ⟨rfl, ⟨h.state, h.scripts, rfl, ?_, ?_⟩, [_], [_], rfl, rfl, rfl⟩
      · exact ⟨h.left.reactions, h.left.reacting, h.left.met⟩
      · exact ⟨h.right.reactions, h.right.reacting, h.right.met⟩

end Task

namespace Run

variable {g : Gate σ δ} {r q : Run σ}

theorem advance_abreast (h : r.Resembles q) {tasks tasks' : Agenda σ}
    (ht : tasks.map Task.unnumbered = tasks'.map Task.unnumbered) :
    Abreast r q (advance g tasks r) (advance g tasks' q) := by
  fun_induction advance g tasks r generalizing tasks' q with
  | case1 =>
    obtain rfl := List.map_eq_nil_iff.1 ht.symm
    rw [advance_nil]
    exact .refl h
  | case2 r t rest ih =>
    obtain ⟨u, rest', rfl, htu, hrest⟩ := List.map_eq_cons_iff.1 ht.symm
    obtain ⟨htasks, hstep⟩ := Task.step_abreast (g := g) h htu.symm
    rw [advance_cons]
    refine hstep.trans (ih hstep.resembles ?_)
    rw [List.map_append, List.map_append, htasks, hrest]

namespace Resembles

theorem symm (h : r.Resembles q) : q.Resembles r :=
  ⟨h.state.symm, h.scripts.symm, h.unwinding.symm, h.right, h.left⟩

theorem trans {p : Run σ} (h : r.Resembles q) (k : q.Resembles p) : r.Resembles p :=
  ⟨h.state.trans k.state, h.scripts.trans k.scripts, h.unwinding.trans k.unwinding, h.left, k.right⟩

end Resembles

/-- An operation of the top goes on from where it has begun. -/
theorem perform_eq (hu : r.unwinding = false) (op : Operation σ) :
    let opened := Task.startStep g ⟨r.begun, .top⟩ op (r.begin .top op)
    perform g r op = (advance g opened.1 opened.2).settled := by
  intro opened
  have hstep : (Task.start .top op).step g r = opened := Task.step_start hu .top op
  unfold perform
  rw [advance_cons, hstep, List.append_nil]

theorem advance_history (g : Gate σ δ) (tasks : Agenda σ) (r : Run σ) :
    ∃ late : History σ, (advance g tasks r).history = late ++ r.history := by
  fun_induction advance g tasks r with
  | case1 r => exact ⟨[], rfl⟩
  | case2 r t rest ih =>
    obtain ⟨late, hlate⟩ := ih
    cases hu : r.unwinding with
    | true =>
      rw [Task.step_of_unwinding hu] at hlate
      exact ⟨late, by rw [Task.step_of_unwinding hu]; exact hlate⟩
    | false =>
      obtain ⟨new, s, -, -, hnew⟩ := Task.step_effect g hu t
      exact ⟨late ++ new, by rw [hlate, hnew, List.append_assoc]⟩

theorem perform_history (g : Gate σ δ) {r : Run σ} (hu : r.unwinding = false) (op : Operation σ) :
    ∃ late : History σ, (perform g r op).history = late ++ .began ⟨r.begun, .top⟩ op :: r.history := by
  let opened := Task.startStep g ⟨r.begun, .top⟩ op (r.begin .top op)
  obtain ⟨late, hlate⟩ := advance_history g opened.1 opened.2
  have hrun : opened.2 = _ := Task.startStep_run g ⟨r.begun, .top⟩ op (r.begin .top op)
  rw [perform_eq hu]
  change ∃ late : History σ, (advance g opened.1 opened.2).history = _
  rw [hlate, hrun]
  cases op.opening (r.begin .top op).state with
  | none => exact ⟨late, rfl⟩
  | some c => exact ⟨late ++ [_], (List.append_cons late _ _)⟩

theorem Resembles.settled (h : r.Resembles q) : r.settled.Resembles q.settled :=
  ⟨h.state, h.scripts, rfl, ⟨h.left.reactions, rfl, h.left.met⟩,
    ⟨h.right.reactions, rfl, h.right.met⟩⟩

theorem perform_abreast (h : r.Resembles q) (op : Operation σ) :
    Abreast r q (perform g r op) (perform g q op) := by
  have hbegin : Abreast r q (advance g [.start .top op] r) (advance g [.start .top op] q) :=
    advance_abreast h rfl
  exact ⟨hbegin.resembles.settled, hbegin.history⟩

theorem since_eq {before after : Run σ} {new : History σ}
    (h : after.history = new ++ before.history) : after.since before = new := by
  unfold since
  rw [h, List.length_append, Nat.add_sub_cancel, List.take_left]

/-- Where the same happens, and anything does, it ends in the same way. -/
theorem Abreast.outcome {r' q' : Run σ} (h : Abreast r q r' q') (hne : r'.history ≠ r.history) :
    r'.outcome = q'.outcome := by
  obtain ⟨new, new', hr, hq, he⟩ := h.history
  cases new with
  | nil => exact absurd hr hne
  | cons m new =>
    obtain ⟨m', late', rfl, hm, -⟩ := List.map_eq_cons_iff.1 he.symm
    unfold Run.outcome
    rw [hr, hq]
    cases m <;> cases m' <;> simp only [Moment.unnumbered, reduceCtorEq, Moment.finished.injEq] at hm
    case finished.finished =>
      obtain ⟨-, rfl, -⟩ := hm
      rfl
    all_goals rfl

theorem Abreast.report {r' q' : Run σ} (h : Abreast r q r' q') (hne : r'.history ≠ r.history) :
    report r r' = report q q' := by
  obtain ⟨new, new', hr, hq, he⟩ := h.history
  unfold Run.report
  rw [h.outcome hne, since_eq hr, since_eq hq, History.log_eq_of_unnumbered he, h.resembles.state]

/-- Runs that resemble each other give the same reports from now on. -/
theorem Resembles.reports (h : r.Resembles q) (hu : r.unwinding = false) (ops : List (Operation σ)) :
    reports g r ops = reports g q ops := by
  induction ops generalizing r q with
  | nil => rfl
  | cons op ops ih =>
    have hop := perform_abreast (g := g) h op
    have hne : (perform g r op).history ≠ r.history := by
      obtain ⟨late, hlate⟩ := perform_history g hu op
      intro he
      have hlength := congrArg List.length (hlate.symm.trans he)
      simp only [List.length_append, List.length_cons] at hlength
      omega
    simp only [Run.reports]
    rw [hop.report hne, ih hop.resembles rfl]

end Run

end SlotGate
