import SlotGate.Proofs.Replay

/-!
# Where the arguments of a call come from

A call is given the slots as one attempt to fire copied them, in one critical section. Between the
copy and the call anything may happen to the gate: subscribers store, empty, disable and fire. None
of it reaches the arguments, and none of it cancels the call, but for a panic that unwinds the
operation of the top in which the attempt was made.
-/
namespace SlotGate

variable {σ : Signature} {δ : Type}

namespace Moment

/-- An operation of the top begins. -/
def IsTop : Moment σ → Prop
  | began ⟨_, .top⟩ _ => True
  | _ => False

/-- Whether `a` copies the slots here. -/
def isCopyOf (a : Activity) : Moment σ → Bool
  | changed b .copied _ => b = a
  | _ => false

end Moment

namespace History

/-- The activity `a` copied the slots when all of them were set and held `args`. No operation of the
top has begun since. -/
def Copied (h : History σ) (a : Activity) (args : σ.Arguments) : Prop :=
  ∃ s early, h.Since (fun m => ¬ m.IsTop) (.changed a .copied s) early ∧
    s.slots.allSet = true ∧ args = s.slots.arguments

/-- A panic has unwound the operation of the top that was under way. -/
def Unwound (h : History σ) : Prop :=
  ∃ later mid, h = later ++ .panicked :: mid ∧ ∀ m ∈ mid, ¬ m.IsTop

/-- The slots that are copied after `early` and handed to a call as `args`: those of an enabled gate,
all set, each by the last set or assign that an enabled gate took for it. -/
structure Snapshot (g : Gate σ δ) (early : History σ) (s : State σ) (args : σ.Arguments) : Prop where
  state : s = early.current g
  enabled : s.enabled = true
  isSet : ∀ i, (s.slots i).isSet = true
  arguments : args = s.slots.arguments
  stored : ∀ i, ∃ (a : Activity) (v : (σ.type i).Carrier) (earlier : History σ),
    early.LastStore i a v earlier ∧ args i = (σ.type i).stored v ∧
      (earlier.current g).enabled = true ∧
      ∃ op rest, earlier = .began a op :: rest ∧ (op = .set i v ∨ op = .assign i v)

/-- Every call gets the slots of one earlier state, the one that its own attempt copied, once. And a
copy that is ready is followed by its call with just these values, unless a panic unwinds the attempt. -/
structure Provenance (g : Gate σ δ) (h : History σ) : Prop where
  calls : h.Every fun _ m before => ∀ a args, m = .called a args →
    h.countP (Moment.isCopyOf a) = 1 ∧ ∃ mid s early,
      before = mid ++ .changed a .copied s :: early ∧ Snapshot g early s args
  copies : h.Every fun after m _ => ∀ a s, m = .changed a .copied s → g.isBound = true →
    s.slots.allSet = true → .called a s.slots.arguments ∈ after ∨ Unwound after

theorem Copied.append {h new : History σ} {a : Activity} {args : σ.Arguments}
    (hc : h.Copied a args) (hn : ∀ m ∈ new, ¬ m.IsTop) : Copied (new ++ h) a args := by
  obtain ⟨s, early, hs, hall, ha⟩ := hc
  exact ⟨s, early, hs.append hn, hall, ha⟩

theorem Unwound.append {h : History σ} (hu : h.Unwound) (new : History σ) :
    Unwound (new ++ h) := by
  obtain ⟨later, mid, rfl, hmid⟩ := hu
  exact ⟨new ++ later, mid, by simp, hmid⟩

end History

namespace Task

/-- Only a task of the top begins an operation of the top. -/
theorem Effect.not_isTop {r : Run σ} {t : Task σ} {new : History σ} {s : State σ}
    (h : Effect r t new s) (ht : t.Nested) : ∀ m ∈ new, ¬ m.IsTop := by
  cases h with
  | opened =>
    next caller _ _ _ =>
    cases caller <;> simp_all [Nested, Moment.IsTop]
  | began =>
    next caller _ _ =>
    cases caller <;> simp_all [Nested, Moment.IsTop]
  | _ => simp [Moment.IsTop]

end Task

namespace Run

variable {g : Gate σ δ}

/-- Every call, made or to be made, has its copy. -/
structure Provided (tasks : Agenda σ) (r : Run σ) : Prop where
  due : ∀ a args, .call a args ∈ tasks → r.history.Copied a args
  called : r.history.Every fun _ m before => ∀ a args, m = .called a args → before.Copied a args

theorem provided_invariant (g : Gate σ δ) : Invariant g (fun _ => True) Provided where
  begins op r _ _ h := by
    refine ⟨fun a args hc => ?_, h.called⟩
    simp at hc
  keeps t rest r ht hu h := by
    obtain ⟨new, s, heffect, -, hnew⟩ := Task.step_effect g hu t
    constructor
    · intro a args hc
      rw [hnew]
      rcases List.mem_append.1 hc with hc | hc
      · cases Task.successor_of_mem_step hc with
        | call ready =>
          obtain ⟨he, -, hs, rfl⟩ := Gate.decision_eq_ready_iff.1 ready
          cases heffect
          rw [if_pos he]
          exact ⟨_, _, .refl _ _, hs, rfl⟩
      · have hn : t.Nested := ht.resolve_right (List.ne_nil_of_mem hc)
        exact (h.due a args (List.mem_cons_of_mem _ hc)).append (heffect.not_isTop hn)
    · rw [hnew]
      refine History.every_append h.called (fun _ _ _ hm => hm) ?_
      intro after m before he a args hm
      subst hm
      obtain ⟨rfl, hone⟩ := heffect.of_called (he ▸ List.mem_append_right _ List.mem_cons_self)
      obtain ⟨-, rfl⟩ := History.split_singleton (hone.symm.trans he)
      exact h.due _ _ List.mem_cons_self
  drops t rest r _ h := ⟨fun a args hc => h.due a args (List.mem_cons_of_mem _ hc), h.called⟩
  settles r h := ⟨h.due, h.called⟩

/-- How often `a` has copied the slots, or is still to do so, or may do so once it has begun. -/
def chances (a : Activity) (tasks : Agenda σ) (r : Run σ) : Nat :=
  r.history.countP (Moment.isCopyOf a) + tasks.countP (Task.isAttemptOf a) +
    if a.id < r.begun then 0 else 1

theorem copies_le (a : Activity) {r : Run σ} {t : Task σ} {new : History σ} {s : State σ}
    (h : Task.Effect r t new s) :
    new.countP (Moment.isCopyOf a) ≤ if t.isAttemptOf a then 1 else 0 := by
  by_cases hc : ∃ m ∈ new, m.isCopyOf a = true
  · obtain ⟨m, hm, hc⟩ := hc
    obtain ⟨s', rfl⟩ : ∃ s', m = .changed a .copied s' := by
      cases m with
      | changed b c s' => cases c <;> simp_all [Moment.isCopyOf]
      | _ => simp [Moment.isCopyOf] at hc
    obtain ⟨rfl, rfl, -, -⟩ := h.of_copied hm
    simp [Task.isAttemptOf, Moment.isCopyOf]
  · rw [List.countP_eq_zero.2 (by simpa using hc)]
    exact Nat.zero_le _

theorem attempts_le (g : Gate σ δ) (a : Activity) (t : Task σ) {r : Run σ}
    (hu : r.unwinding = false) :
    (t.step g r).1.countP (Task.isAttemptOf a) + (if a.id < (t.step g r).2.begun then 0 else 1) ≤
      if a.id < r.begun then 0 else 1 := by
  have hb := (Task.step_frame g hu t).begun
  by_cases hc : ∃ u ∈ (t.step g r).1, u.isAttemptOf a = true
  · obtain ⟨u, hm, hc⟩ := hc
    cases Task.successor_of_mem_step hm <;> simp [Task.isAttemptOf] at hc
    next caller op =>
    subst hc
    have hle : ((Task.start caller op).step g r).1.countP (Task.isAttemptOf ⟨r.begun, caller⟩) ≤ 1 := by
      simp only [Task.step, hu, Bool.false_eq_true, if_false]
      exact Task.countP_attempts_startStep ..
    simp only [hb, Nat.lt_irrefl, if_false]
    rw [if_pos (Nat.lt_succ_self _)]
    exact hle
  · rw [List.countP_eq_zero.2 (by simpa using hc), Nat.zero_add]
    have hle : r.begun ≤ (t.step g r).2.begun := by
      rw [hb]
      cases t <;> simp
    split <;> split <;> omega

/-- A task uses up chances and adds none. -/
theorem chances_step (g : Gate σ δ) (a : Activity) {t : Task σ} {rest : Agenda σ} {r : Run σ}
    (hu : r.unwinding = false) :
    chances a ((t.step g r).1 ++ rest) (t.step g r).2 ≤ chances a (t :: rest) r := by
  obtain ⟨new, s, heffect, -, hnew⟩ := Task.step_effect g hu t
  have hcopies := copies_le a heffect
  have hattempts := attempts_le g a t hu
  unfold chances
  rw [hnew, List.countP_append, List.countP_append, List.countP_cons]
  omega

theorem chances_tail (a : Activity) (t : Task σ) (rest : Agenda σ) (r : Run σ) :
    chances a rest r ≤ chances a (t :: rest) r := by
  unfold chances
  rw [List.countP_cons]
  omega

theorem chances_invariant (g : Gate σ δ) (a : Activity) :
    Invariant g (fun _ => True) fun tasks r => chances a tasks r ≤ 1 where
  begins op r _ _ h := by simpa [chances, Task.isAttemptOf] using h
  keeps t rest r _ hu h := Nat.le_trans (chances_step g a hu) h
  drops t rest r _ h := Nat.le_trans (chances_tail a t rest r) h
  settles r h := h

/-- One activity copies the slots at most once. -/
theorem copies_le_one (g : Gate σ (Delegate σ)) (reactions : List (Reaction σ))
    (dispatch : Dispatch) (ops : List (Operation σ)) (a : Activity) :
    (performAll g (start g reactions dispatch) ops).history.countP (Moment.isCopyOf a) ≤ 1 := by
  have h0 : chances a [] (start g reactions dispatch) ≤ 1 := by simp [chances, start]
  have h := (chances_invariant g a).performAll ops (fun _ _ => trivial) rfl h0
  unfold chances at h
  omega

/-- A copy that is ready is answered by its call, or unwound, or its call is still to be made. -/
def Answers (g : Gate σ δ) (tasks : Agenda σ) (r : Run σ) : Prop :=
  r.history.Every fun after m _ => ∀ a s, m = .changed a .copied s → g.isBound = true →
    s.slots.allSet = true → .called a s.slots.arguments ∈ after ∨ History.Unwound after ∨
      (r.unwinding = false ∧ .call a s.slots.arguments ∈ tasks ∧ ∀ m ∈ after, ¬ m.IsTop)

/-- Without a new moment it is enough that no call is forgotten. -/
theorem Answers.keep {tasks tasks' : Agenda σ} {r r' : Run σ} (h : Answers g tasks r)
    (hh : r'.history = r.history) (hcalls : r.unwinding = false → ∀ a args,
      .call a args ∈ tasks → r'.unwinding = false ∧ .call a args ∈ tasks') :
    Answers g tasks' r' := by
  intro after m before he a s hm hb hs
  rcases h after m before (hh ▸ he) a s hm hb hs with hc | hun | ⟨hu, hc, htop⟩
  · exact .inl hc
  · exact .inr (.inl hun)
  · obtain ⟨hu', hc'⟩ := hcalls hu _ _ hc
    exact .inr (.inr ⟨hu', hc', htop⟩)

theorem answers_invariant (g : Gate σ δ) : Invariant g (fun _ => True) (Answers g) where
  begins op r _ _ h := h.keep rfl fun _ a args hc => absurd hc List.not_mem_nil
  keeps t rest r ht hu h := by
    obtain ⟨new, s, heffect, -, hnew⟩ := Task.step_effect g hu t
    unfold Answers
    rw [hnew]
    refine History.every_append h ?_ ?_
    · intro after m before hold a s hm hb hs
      rcases hold a s hm hb hs with hc | hun | ⟨-, hc, htop⟩
      · exact .inl (List.mem_append_right _ hc)
      · exact .inr (.inl (hun.append new))
      · by_cases hp : t = .panic
        · -- the panic falls into the operation of the top in which the copy was made
          subst hp
          cases heffect
          exact .inr (.inl ⟨[], after, rfl, htop⟩)
        · have hu' := (Task.step_frame g hu t).calm hp
          rcases List.mem_cons.1 hc with rfl | hc
          · cases heffect
            exact .inl List.mem_cons_self
          · have hn : t.Nested := ht.resolve_right (List.ne_nil_of_mem hc)
            refine .inr (.inr ⟨hu', List.mem_append_right _ hc, fun m hm => ?_⟩)
            exact (List.mem_append.1 hm).elim (heffect.not_isTop hn m) (htop m)
    · intro after m before he a s hm hb hs
      subst hm
      obtain ⟨rfl, hone, rfl, hen⟩ :=
        heffect.of_copied (he ▸ List.mem_append_right _ List.mem_cons_self)
      obtain ⟨rfl, -⟩ := History.split_singleton (hone.symm.trans he)
      have hready := Gate.decision_eq_ready_iff.2 ⟨hen, hb, hs, rfl⟩
      have hu' := (Task.step_frame g hu (.attempt a)).calm (by simp)
      refine .inr (.inr ⟨hu', List.mem_append_left _ ?_, by simp⟩)
      simp [Task.step, hu, Task.attemptStep_ready hready]
  drops t rest r hu h := h.keep rfl fun hf => absurd (hu.symm.trans hf) (by decide)
  settles r h := h.keep rfl fun _ a args hc => absurd hc List.not_mem_nil

/-- Slots that were copied when all were set are such a snapshot. -/
theorem snapshot_of_copied {h early : History σ} {after : History σ} {a : Activity} {s : State σ}
    (hl : h.Each (Moment.Lawful g)) (he : h = after ++ .changed a .copied s :: early)
    (hs : s.slots.allSet = true) : History.Snapshot g early s s.slots.arguments := by
  obtain ⟨hcurrent, hen⟩ := History.copied_enabled (History.each_at hl he)
  have hset := (Slots.allSet_eq_true_iff s.slots).1 hs
  have hearly := History.each_before hl he
  refine ⟨hcurrent, hen, hset, rfl, fun i => ?_⟩
  obtain ⟨b, v, earlier, hlast, hv⟩ := History.lastStore_of_isSet hearly (hcurrent ▸ hset i)
  have hstore := hlast
  obtain ⟨s', hsince⟩ := hstore
  obtain ⟨hen', hop⟩ := History.stored_asked (hsince.each hearly).1
  refine ⟨b, v, earlier, hlast, ?_, hen', hop⟩
  rw [hcurrent]
  exact hv

/-- Whatever the program, the delegate and the subscriber do, calls and copies that are ready belong
together. -/
theorem arguments_provenance (g : Gate σ (Delegate σ)) (reactions : List (Reaction σ))
    (dispatch : Dispatch) (ops : List (Operation σ)) :
    (performAll g (start g reactions dispatch) ops).history.Provenance g := by
  have hrec := recorded_performAll g reactions dispatch ops
  have hle := copies_le_one g reactions dispatch ops
  have hprov0 : Provided [] (start g reactions dispatch) := ⟨by simp, by simp [History.Every, start]⟩
  have hans0 : Answers g [] (start g reactions dispatch) := by simp [Answers, History.Every, start]
  have hprov := (provided_invariant g).performAll ops (fun _ _ => trivial) rfl hprov0
  have hans := (answers_invariant g).performAll ops (fun _ _ => trivial) rfl hans0
  let h := (performAll g (start g reactions dispatch) ops).history
  constructor
  case calls =>
    intro after m before he a args hm
    obtain ⟨s, early, ⟨mid, hbefore, -⟩, hall, rfl⟩ := hprov.called after m before he a args hm
    have hsplit : h = (after ++ m :: mid) ++ .changed a .copied s :: early := by
      rw [show h = _ from he, hbefore]
      simp
    refine ⟨?_, mid, s, early, hbefore, snapshot_of_copied hrec.lawful hsplit hall⟩
    have hpos : 0 < h.countP (Moment.isCopyOf a) := by
      rw [hsplit, List.countP_append, List.countP_cons, if_pos (by simp [Moment.isCopyOf])]
      omega
    exact Nat.le_antisymm (hle a) hpos
  case copies =>
    intro after m before he a s hm hb hs
    rcases hans after m before he a s hm hb hs with hc | hun | ⟨-, hc, -⟩
    · exact .inl hc
    · exact .inr hun
    · cases hc

/-- The subscriber empties and disables the gate between the copy and the call. -/
theorem arguments_provenance_of_interference :
    let g := Gate.flags { debug := true } []
    let reactions : List (Reaction .flags) := [⟨"gate.fire", [.clear, .setEnabled false]⟩]
    let r := performAll g (start g reactions (.registering []))
      [.assign Gate.left true, .set Gate.right true]
    let given (m : Moment .flags) : Bool :=
      match m with
      | .called _ args => args Gate.left && args Gate.right
      | _ => false
    r.state.enabled = false ∧ r.state.slots.allSet = false ∧ r.history.countP given = 1 ∧
      r.history.Provenance g := by
  refine ⟨by decide +kernel, by decide +kernel, by decide +kernel, ?_⟩
  exact arguments_provenance _ _ _ _

end Run

end SlotGate
