import SlotGate.Proofs.OpenCalls
import SlotGate.Proofs.StoreThenFire
import SlotGate.Proofs.Telling

/-!
# Passages

Where no subscriber acts on a gate, an operation goes in one passage from its beginning to its call of the
delegate, or to its answer if it makes none: sections and their events follow one another, and a panic
cannot fall in between. Only calls are filled with other operations. So the history of a run is made of
whole passages, and of the returns, answers and panics that come between them.
-/
namespace SlotGate

variable {σ : Signature} {δ : Type}

/-- What a passage leads to. -/
inductive Ending (σ : Signature) where
  | answer (x : Answer σ)
  | call (args : σ.Arguments)

namespace Ending

/-- What is left of the operation then. -/
def tasks (a : Activity) : Ending σ → Agenda σ
  | answer x => [.finish a x]
  | call args => [.call a args, .finish a (.flag true)]

def moments (a : Activity) : Ending σ → History σ
  | answer _ => []
  | call args => [.called a args]

end Ending

/-- An event that the subscriber hears, if it is traced. -/
def Event.notice (e : Event σ) (traced : Bool) (s : State σ) : History σ :=
  if traced then [.emitted e true s] else []

namespace Operation

/-- Whether an operation attempts to fire after its first section. -/
def attempts (g : Gate σ δ) (s : State σ) : Operation σ → Bool
  | set i v => s.enabled && !((σ.type i).isNull v && g.settings.nullPolicy = .suppress)
  | fire => true
  | assign .. | clearSlot _ | clear | setEnabled _ | setDebug _ | read _ => false

/-- The state after the first section. -/
def entered (s : State σ) (op : Operation σ) : State σ :=
  (op.opening s).elim s fun c => c.apply s

/-- The moments of an operation up to the event of its first section. -/
def entrance (g : Gate σ δ) (a : Activity) (s : State σ) (op : Operation σ) : History σ :=
  match op.opening s with
  | none => [.began a op]
  | some c => ((c.event? g (some op) s).elim [] fun e => e.notice (c.traced s) (c.apply s)) ++
      [.changed a c (c.apply s), .began a op]

/-- The event that the first section of an operation puts on the agenda. -/
def announcement (g : Gate σ δ) (s : State σ) (op : Operation σ) : Agenda σ :=
  match op.opening s with
  | none => []
  | some c => (c.event? g (some op) s).toList.map fun e => .emit e (c.traced s)

end Operation

/-- An attempt of `a` to fire in the state `s`: its moments, the state after it, what it leads to. -/
inductive Attempt (g : Gate σ δ) (a : Activity) (s : State σ) :
    History σ → State σ → Ending σ → Prop where
  | refused (disabled : s.enabled = false) :
      Attempt g a s [.changed a .refused s] s (.answer (.flag false))
  | unbound (enabled : s.enabled = true) (unbound : g.isBound = false) :
      Attempt g a s (Event.fireUnbound.notice s.debug s ++ [.changed a .copied s]) s
        (.answer (.flag false))
  | pending (enabled : s.enabled = true) (bound : g.isBound = true)
      (incomplete : s.slots.allSet = false) :
      Attempt g a s ((Event.firePending (g.pending s.slots)).notice s.debug s ++
        [.changed a .copied s]) s (.answer (.flag false))
  | fires (enabled : s.enabled = true) (bound : g.isBound = true)
      (complete : s.slots.allSet = true) (lasting : g.settings.oneShot = false) :
      Attempt g a s (Event.fired.notice s.debug s ++ [.changed a .copied s]) s
        (.call s.slots.arguments)
  | consumes (enabled : s.enabled = true) (bound : g.isBound = true)
      (complete : s.slots.allSet = true) (oneShot : g.settings.oneShot = true) :
      Attempt g a s ((Event.cleared.notice s.debug s.vacateAll ++
        [.changed a (.cleared true) s.vacateAll]) ++
          (Event.fired.notice s.debug s ++ [.changed a .copied s])) s.vacateAll
        (.call s.slots.arguments)

/-- The passage of the operation `op` that `a` begins in the state `s`. -/
inductive Passage (g : Gate σ δ) (a : Activity) (s : State σ) (op : Operation σ) :
    History σ → State σ → Ending σ → Prop where
  | answers {c : Change σ} (opens : op.opening s = some c) (no : op.attempts g s = false) :
      Passage g a s op (op.entrance g a s) (c.apply s) (.answer (op.reply g s))
  | attempts {new : History σ} {s' : State σ} {e : Ending σ} (yes : op.attempts g s = true)
      (attempt : Attempt g a (op.entered s) new s' e) :
      Passage g a s op (new ++ op.entrance g a s) s' e

/-- Whether a moment comes between two passages. -/
def Moment.isClosing : Moment σ → Bool
  | returned _ | finished .. | panicked => true
  | began .. | changed .. | emitted .. | called .. => false

/-- A history that is made of whole passages and of what comes between them. -/
inductive History.Unbroken (g : Gate σ δ) : History σ → Prop where
  | nil : Unbroken g []
  | passage {a : Activity} {op : Operation σ} {new h : History σ} {s : State σ} {e : Ending σ}
      (passage : Passage g a (h.current g) op new s e) (earlier : Unbroken g h) :
      Unbroken g (e.moments a ++ (new ++ h))
  | closing {m : Moment σ} {h : History σ} (closing : m.isClosing = true) (earlier : Unbroken g h) :
      Unbroken g (m :: h)

namespace History

variable {g : Gate σ δ}

theorem current_notice (e : Event σ) (traced : Bool) (s : State σ) (h : History σ) :
    current g (e.notice traced s ++ h) = h.current g := by
  cases traced <;> rfl

theorem current_closing {m : Moment σ} (hm : m.isClosing = true) (h : History σ) :
    current g (m :: h) = h.current g := by
  cases m <;> first | rfl | cases hm

theorem current_entrance (op : Operation σ) (a : Activity) (h : History σ) :
    current g (op.entrance g a (h.current g) ++ h) = op.entered (h.current g) := by
  unfold Operation.entrance Operation.entered
  cases op.opening (h.current g) with
  | none => rfl
  | some c =>
    simp only [Option.elim_some]
    rw [List.append_assoc]
    cases c.event? g (some op) (h.current g) with
    | none => rfl
    | some e => exact current_notice e _ _ _

end History

theorem Attempt.current {g : Gate σ δ} {a : Activity} {s s' : State σ} {new : History σ}
    {e : Ending σ} (attempt : Attempt g a s new s' e) (h : History σ) :
    History.current g (new ++ h) = s' := by
  cases attempt with
  | refused disabled => rfl
  | consumes enabled bound complete oneShot =>
    rw [List.append_assoc, List.append_assoc, History.current_notice]
    rfl
  | _ =>
    rw [List.append_assoc, History.current_notice]
    rfl

/-- A passage leads to the state that its history tells. -/
theorem Passage.current {g : Gate σ δ} {a : Activity} {op : Operation σ} {s' : State σ}
    {new h : History σ} {e : Ending σ} (passage : Passage g a (h.current g) op new s' e) :
    History.current g (new ++ h) = s' := by
  cases passage with
  | @answers c opens no =>
    rw [History.current_entrance, Operation.entered, opens]
    rfl
  | @attempts new s' e yes attempt =>
    rw [List.append_assoc]
    exact attempt.current _

def Moment.isBegan : Moment σ → Bool
  | began .. => true
  | _ => false

/-- Whether a moment is a section or an event. -/
def Moment.isInner : Moment σ → Bool
  | changed .. | emitted .. => true
  | _ => false

theorem Moment.not_began_of_inner {m : Moment σ} (h : m.isInner = true) : m.isBegan = false := by
  cases m <;> first | rfl | cases h

theorem Event.inner_of_mem_notice {e : Event σ} {traced : Bool} {s : State σ} {m : Moment σ}
    (hm : m ∈ e.notice traced s) : m.isInner = true := by
  cases traced with
  | true =>
    obtain rfl := List.mem_singleton.1 hm
    rfl
  | false => cases hm

theorem Attempt.inner_of_mem {g : Gate σ δ} {a : Activity} {s s' : State σ} {new : History σ}
    {e : Ending σ} (attempt : Attempt g a s new s' e) {m : Moment σ} (hm : m ∈ new) :
    m.isInner = true := by
  have hsection {e : Event σ} {c : Change σ} {traced : Bool} {s : State σ}
      (hm : m ∈ e.notice traced s ++ [.changed a c s]) : m.isInner = true := by
    rcases List.mem_append.1 hm with hm | hm
    · exact Event.inner_of_mem_notice hm
    · obtain rfl := List.mem_singleton.1 hm
      rfl
  cases attempt with
  | refused disabled =>
    obtain rfl := List.mem_singleton.1 hm
    rfl
  | consumes enabled bound complete oneShot => exact (List.mem_append.1 hm).elim hsection hsection
  | _ => exact hsection hm

/-- A passage is the beginning of its operation and then sections and events. -/
theorem Passage.begins {g : Gate σ δ} {a : Activity} {op : Operation σ} {s s' : State σ}
    {new : History σ} {e : Ending σ} (passage : Passage g a s op new s' e) :
    ∃ course, new = course ++ [.began a op] ∧ ∀ m ∈ course, m.isInner = true := by
  have hentrance : ∃ course, op.entrance g a s = course ++ [.began a op] ∧
      ∀ m ∈ course, m.isInner = true := by
    unfold Operation.entrance
    cases op.opening s with
    | none => exact ⟨[], rfl, by simp⟩
    | some c =>
      refine ⟨_ ++ [.changed a c (c.apply s)], List.append_cons .., fun m hm => ?_⟩
      rcases List.mem_append.1 hm with hm | hm
      · cases he : c.event? g (some op) s <;> rw [he] at hm
        · cases hm
        · exact Event.inner_of_mem_notice hm
      · obtain rfl := List.mem_singleton.1 hm
        rfl
  obtain ⟨course, hcourse, hinner⟩ := hentrance
  cases passage with
  | answers opens no => exact ⟨course, hcourse, hinner⟩
  | @attempts late s' e yes attempt =>
    refine ⟨late ++ course, by rw [hcourse, List.append_assoc], fun m hm => ?_⟩
    exact (List.mem_append.1 hm).elim attempt.inner_of_mem (hinner m)

namespace History

variable {g : Gate σ δ}

/-- An element of a list in two parts stands in one of them. -/
theorem split_append {α : Type} {front rest after before : List α} {x : α}
    (h : front ++ rest = after ++ x :: before) :
    (∃ inner, front = after ++ x :: inner ∧ before = inner ++ rest) ∨
      ∃ late, after = front ++ late ∧ rest = late ++ x :: before := by
  rcases List.append_eq_append_iff.1 h with ⟨late, hafter, hlate⟩ | ⟨inner, hfront, hinner⟩
  · exact .inr ⟨late, hafter, hlate⟩
  · cases inner with
    | nil => exact .inr ⟨[], by rw [hfront, List.append_nil, List.append_nil], hinner.symm⟩
    | cons y inner =>
      obtain ⟨rfl, rfl⟩ := List.cons.inj hinner
      exact .inl ⟨inner, hfront, rfl⟩

/-- The beginning of an operation stands at the end of a block or before it. -/
theorem split_began {course h after before : History σ} {a b : Activity} {op op' : Operation σ}
    (hcourse : ∀ m ∈ course, m.isBegan = false)
    (he : (course ++ [.began a op]) ++ h = after ++ .began b op' :: before) :
    (a = b ∧ op = op' ∧ h = before) ∨ ∃ late, h = late ++ .began b op' :: before := by
  rcases split_append he with ⟨inner, hfront, hbefore⟩ | ⟨late, -, hlate⟩
  · have hnot : Moment.began b op' ∉ course := fun hm => absurd (hcourse _ hm) Bool.noConfusion
    obtain ⟨-, hm, rfl⟩ := split_last hfront hnot
    obtain ⟨rfl, rfl⟩ := Moment.began.inj hm
    exact .inl ⟨rfl, rfl, hbefore.symm⟩
  · exact .inr ⟨late, hlate⟩

/-- Wherever an operation begins in an unbroken history, its whole passage follows. -/
theorem Unbroken.passage_at {h : History σ} (hh : h.Unbroken g) {after before : History σ}
    {a : Activity} {op : Operation σ} (he : h = after ++ .began a op :: before) :
    ∃ later new s e, Passage g a (before.current g) op new s e ∧
      h = later ++ (e.moments a ++ (new ++ before)) := by
  induction hh generalizing after with
  | nil => cases after <;> cases he
  | @passage b op' new h s e passage _ ih =>
    obtain ⟨course, hnew, hinner⟩ := passage.begins
    have hcourse : ∀ m ∈ e.moments b ++ course, m.isBegan = false := by
      intro m hm
      rcases List.mem_append.1 hm with hm | hm
      · cases e with
        | answer x => cases hm
        | call args =>
          obtain rfl := List.mem_singleton.1 hm
          rfl
      · exact Moment.not_began_of_inner (hinner m hm)
    have he' : (e.moments b ++ course ++ [.began b op']) ++ h = after ++ .began a op :: before := by
      rw [← he, hnew]
      simp
    rcases split_began hcourse he' with ⟨rfl, rfl, rfl⟩ | ⟨late, hlate⟩
    · exact ⟨[], new, s, e, passage, rfl⟩
    · obtain ⟨later, new', s', e', hpassage, hlater⟩ := ih hlate
      refine ⟨e.moments b ++ (new ++ later), new', s', e', hpassage, ?_⟩
      rw [hlater]
      simp
  | @closing m h closing _ ih =>
    cases after with
    | nil =>
      obtain ⟨rfl, -⟩ := List.cons.inj he
      cases closing
    | cons m' after =>
      obtain ⟨rfl, hlate⟩ := List.cons.inj he
      obtain ⟨later, new, s, e, hpassage, hlater⟩ := ih hlate
      exact ⟨m :: later, new, s, e, hpassage, congrArg _ hlater⟩

end History

namespace Task

/-- Whether a task can be next where a passage has ended. -/
def isOuter : Task σ → Bool
  | start .. | leave _ | finish .. | panic => true
  | emit .. | attempt _ | sweep _ | call .. | listen => false

/-- A call of the delegate plays the next script, if there is one. -/
theorem step_call_eq {g : Gate σ δ} {r : Run σ} (hu : r.unwinding = false) (a : Activity)
    (args : σ.Arguments) :
    (call a args).step g r = (Agenda.ofScript (r.scripts.headD []) ++ [leave a],
      { r.note (.called a args) with scripts := r.scripts.tail }) := by
  cases hs : r.scripts with
  | nil =>
    rw [step_call_nil hu hs]
    cases r
    subst hs
    rfl
  | cons s left => exact step_call_cons hu hs a args

theorem isOuter_of_mem_ofScript {s : Script σ} {t : Task σ} (ht : t ∈ Agenda.ofScript s) :
    t.isOuter = true := by
  obtain ⟨c, -, rfl⟩ := List.mem_map.1 ht
  cases c <;> rfl

/-- What follows from the first section: its event, and then an attempt or the answer. -/
theorem startStep_tasks (g : Gate σ δ) (a : Activity) (op : Operation σ) (r : Run σ) :
    (startStep g a op r).1 = op.announcement g r.state ++
      [if op.attempts g r.state then attempt a else finish a (op.reply g r.state)] := by
  cases op with
  | set i v =>
    by_cases he : r.state.enabled = true <;>
      by_cases hn : (σ.type i).isNull v = true ∧ g.settings.nullPolicy = .suppress <;>
      simp [startStep, Operation.announcement, Operation.opening, Operation.attempts, Operation.reply,
        Change.event?, Change.traced, he, hn]
  | _ =>
    by_cases he : r.state.enabled = true <;>
      simp [startStep, Operation.announcement, Operation.opening, Operation.attempts, Operation.reply,
        Change.event?, Change.traced, he]

end Task

namespace Run

variable {g : Gate σ δ}

/-- A run that went on from `r` in one operation, no subscriber acting. -/
structure Passed (r after : Run σ) (new : History σ) (s : State σ) : Prop where
  undisturbed : after.Undisturbed
  calm : after.unwinding = false
  state : after.state = s
  scripts : after.scripts = r.scripts
  history : after.history = new ++ r.history

theorem Passed.trans {r q after : Run σ} {new late : History σ} {s s' : State σ}
    (h : Passed r q new s) (k : Passed q after late s') : Passed r after (late ++ new) s' :=
  ⟨k.undisturbed, k.calm, k.state, k.scripts.trans h.scripts, by
    rw [k.history, h.history, List.append_assoc]⟩

theorem Passed.change {r : Run σ} (hr : r.Undisturbed) (hu : r.unwinding = false) (a : Activity)
    (c : Change σ) (s : State σ) : Passed r (r.change a c s) [.changed a c s] s :=
  ⟨⟨hr.reactions, hr.reacting, hr.met⟩, hu, rfl, rfl, rfl⟩

theorem Passed.hear {r : Run σ} (hr : r.Undisturbed) (hu : r.unwinding = false) (e : Event σ)
    (traced : Bool) : Passed r (r.hear e traced) (e.notice traced r.state) r.state := by
  obtain ⟨hstate, hscripts, hunwinding⟩ := r.hear_frame e traced
  exact ⟨hr.hear e traced, hunwinding.trans hu, hstate, hscripts, r.hear_history e traced⟩

/-- The first section of an operation, and its event. -/
theorem advance_entrance {r : Run σ} (hr : r.Undisturbed) (hu : r.unwinding = false) (c : Caller)
    (op : Operation σ) (rest : Agenda σ) :
    let a : Activity := ⟨r.begun, c⟩
    ∃ after, Passed r after (op.entrance g a r.state) (op.entered r.state) ∧
      advance g (.start c op :: rest) r =
        advance g ((if op.attempts g r.state then .attempt a else .finish a (op.reply g r.state)) ::
          rest) after := by
  intro a
  let q := r.begin c op
  have hq : q.Undisturbed := ⟨hr.reactions, hr.reacting, hr.met⟩
  have hstep : (Task.start c op).step g r = Task.startStep g a op q := Task.step_start hu c op
  have htasks := Task.startStep_tasks g a op q
  have hrun := Task.startStep_run g a op q
  rw [advance_cons, hstep, htasks, hrun, List.append_assoc]
  have hstate : q.state = r.state := rfl
  unfold Operation.announcement Operation.entrance Operation.entered
  rw [hstate]
  cases ho : op.opening r.state with
  | none => exact ⟨q, ⟨hq, hu, rfl, rfl, rfl⟩, rfl⟩
  | some x =>
    let p := q.change a x (x.apply r.state)
    have hp : Passed r p [.changed a x (x.apply r.state), .began a op] (x.apply r.state) :=
      ⟨⟨hr.reactions, hr.reacting, hr.met⟩, hu, rfl, rfl, rfl⟩
    simp only [Option.elim_some]
    cases he : x.event? g (some op) r.state with
    | none => exact ⟨p, hp, rfl⟩
    | some e =>
      refine ⟨p.hear e (x.traced r.state), hp.trans (.hear hp.undisturbed hu e _), ?_⟩
      exact advance_emit hp.undisturbed hu e _ _

/-- After a section comes its event. -/
theorem Passed.section {r : Run σ} (hr : r.Undisturbed) (hu : r.unwinding = false) (a : Activity)
    (c : Change σ) (s : State σ) (e : Event σ) (traced : Bool) (rest : Agenda σ) :
    Passed r ((r.change a c s).hear e traced) (e.notice traced s ++ [.changed a c s]) s ∧
      advance g (.emit e traced :: rest) (r.change a c s) =
        advance g rest ((r.change a c s).hear e traced) := by
  have hchange := Passed.change hr hu a c s
  exact ⟨hchange.trans (.hear hchange.undisturbed hu e traced),
    advance_emit hchange.undisturbed hu e traced rest⟩

/-- An attempt to fire, up to the call or the answer. -/
theorem advance_attempt {r : Run σ} (hr : r.Undisturbed) (hu : r.unwinding = false) (a : Activity)
    (rest : Agenda σ) :
    ∃ after new s e, Attempt g a r.state new s e ∧ Passed r after new s ∧
      advance g (.attempt a :: rest) r = advance g (e.tasks a ++ rest) after := by
  have hcopied (e : Event σ) (rest : Agenda σ) :=
    Passed.section (g := g) hr hu a .copied r.state e r.state.debug rest
  rw [advance_cons, Task.step_attempt hu, Task.attemptStep]
  cases he : r.state.enabled with
  | false =>
    have hdecision : g.decision r.state = .refused := by simp [Gate.decision, he]
    rw [hdecision]
    exact ⟨_, _, _, _, .refused he, .change hr hu a .refused r.state, rfl⟩
  | true =>
    cases hb : g.isBound with
    | false =>
      have hdecision : g.decision r.state = .unbound := by simp [Gate.decision, he, hb]
      obtain ⟨hpassed, hrest⟩ := hcopied .fireUnbound (.finish a (.flag false) :: rest)
      rw [hdecision]
      exact ⟨_, _, _, _, .unbound he hb, hpassed, hrest⟩
    | true =>
      cases hs : r.state.slots.allSet with
      | false =>
        have hdecision : g.decision r.state = .pending (g.pending r.state.slots) := by
          simp [Gate.decision, he, hb, hs]
        obtain ⟨hpassed, hrest⟩ :=
          hcopied (.firePending (g.pending r.state.slots)) (.finish a (.flag false) :: rest)
        rw [hdecision]
        exact ⟨_, _, _, _, .pending he hb hs, hpassed, hrest⟩
      | true =>
        have hdecision : g.decision r.state = .ready r.state.slots.arguments := by
          simp [Gate.decision, he, hb, hs]
        let call := Task.call a r.state.slots.arguments :: .finish a (.flag true) :: rest
        rw [hdecision]
        cases ho : g.settings.oneShot with
        | false =>
          obtain ⟨hpassed, hrest⟩ := hcopied .fired call
          exact ⟨_, _, _, _, .fires he hb hs ho, hpassed, hrest⟩
        | true =>
          obtain ⟨hpassed, hrest⟩ := hcopied .fired (.sweep a :: call)
          let q := (r.change a .copied r.state).hear .fired r.state.debug
          have hstate : q.state = r.state := hpassed.state
          obtain ⟨hswept, hrest'⟩ := Passed.section (g := g) hpassed.undisturbed hpassed.calm a
            (.cleared true) r.state.vacateAll .cleared r.state.debug call
          refine ⟨_, _, _, _, .consumes he hb hs ho, hpassed.trans hswept, hrest.trans ?_⟩
          have hstep : (Task.sweep a).step g q =
              ([.emit .cleared r.state.debug], q.change a (.cleared true) r.state.vacateAll) := by
            rw [Task.step_sweep hpassed.calm, Task.sweepStep, hstate, if_pos he]
          rw [advance_cons, hstep]
          exact hrest'

/-- An operation goes its passage. -/
theorem advance_passage {r : Run σ} (hr : r.Undisturbed) (hu : r.unwinding = false) (c : Caller)
    (op : Operation σ) (rest : Agenda σ) :
    ∃ after new s e, Passage g ⟨r.begun, c⟩ r.state op new s e ∧ Passed r after new s ∧
      advance g (.start c op :: rest) r = advance g (e.tasks ⟨r.begun, c⟩ ++ rest) after := by
  obtain ⟨q, hq, hentrance⟩ := advance_entrance (g := g) hr hu c op rest
  cases hattempts : op.attempts g r.state with
  | true =>
    rw [hattempts, if_pos rfl] at hentrance
    obtain ⟨after, new, s, e, hattempt, hpassed, hrest⟩ :=
      advance_attempt (g := g) hq.undisturbed hq.calm ⟨r.begun, c⟩ rest
    rw [hq.state] at hattempt
    exact ⟨after, _, s, e, .attempts hattempts hattempt, hq.trans hpassed, hentrance.trans hrest⟩
  | false =>
    rw [hattempts, if_neg Bool.false_ne_true] at hentrance
    have hopens : ∃ x, op.opening r.state = some x := by
      cases op <;> first | exact ⟨_, rfl⟩ | cases hattempts
    obtain ⟨x, hx⟩ := hopens
    have hstate : op.entered r.state = x.apply r.state := by
      unfold Operation.entered
      rw [hx]
      rfl
    rw [hstate] at hq
    exact ⟨q, _, _, _, .answers hx hattempts, hq, hentrance⟩

theorem Passed.reserve {r after : Run σ} {new : History σ} {s : State σ} (hr : r.Undisturbed)
    (h : Passed r after new s) : after.reserve = r.reserve := by
  unfold Run.reserve
  rw [h.scripts, h.undisturbed.reactions, hr.reactions]

/-- A run between two passages. -/
structure Between (g : Gate σ δ) (r : Run σ) : Prop where
  undisturbed : r.Undisturbed
  calm : r.unwinding = false
  state : r.state = r.history.current g
  unbroken : r.history.Unbroken g

theorem Between.note {r : Run σ} (h : Between g r) {m : Moment σ} (hm : m.isClosing = true) :
    Between g (r.note m) :=
  ⟨⟨h.undisturbed.reactions, h.undisturbed.reacting, h.undisturbed.met⟩, h.calm,
    h.state.trans (History.current_closing hm _).symm, .closing hm h.unbroken⟩

/-- An operation leads from one point between two passages to the next: to its answer, or to the script
of the delegate that it called. -/
theorem Between.passage {r : Run σ} (h : Between g r) (c : Caller) (op : Operation σ)
    {rest : Agenda σ} (hrest : ∀ t ∈ rest, t.isOuter = true) :
    ∃ tasks q, Between g q ∧ (∀ t ∈ tasks, t.isOuter = true) ∧
      tasks.weight + q.reserve < (Task.start c op).weight + rest.weight + r.reserve ∧
      advance g (.start c op :: rest) r = advance g tasks q := by
  obtain ⟨q, new, s, e, hpassage, hpassed, hadvance⟩ :=
    advance_passage (g := g) h.undisturbed h.calm c op rest
  rw [h.state] at hpassage
  have hcurrent := hpassage.current
  have hunbroken := History.Unbroken.passage hpassage h.unbroken
  rw [← hpassed.history] at hcurrent hunbroken
  have hstate := hpassed.state.trans hcurrent.symm
  have hreserve := hpassed.reserve h.undisturbed
  cases e with
  | answer x =>
    refine ⟨_, q, ⟨hpassed.undisturbed, hpassed.calm, hstate, hunbroken⟩, ?_, ?_, hadvance⟩
    · exact List.forall_mem_cons.2 ⟨rfl, hrest⟩
    · rw [hreserve]
      simp [Ending.tasks, Task.weight]
  | call args =>
    let a : Activity := ⟨r.begun, c⟩
    let script := Agenda.ofScript (q.scripts.headD []) ++ [.leave a]
    let p : Run σ := { q.note (.called a args) with scripts := q.scripts.tail }
    have hstep : (Task.call a args).step g q = (script, p) := Task.step_call_eq hpassed.calm a args
    have hweight := Task.step_weight g (.call a args) q
    have hcall : advance g (.call a args :: .finish a (.flag true) :: rest) q =
        advance g (script ++ .finish a (.flag true) :: rest) p := by
      rw [advance_cons, hstep]
    rw [hstep] at hweight
    refine ⟨_, p, ⟨⟨hpassed.undisturbed.reactions, hpassed.undisturbed.reacting,
      hpassed.undisturbed.met⟩, hpassed.calm, hstate, hunbroken⟩, ?_, ?_, hadvance.trans hcall⟩
    · have hreturn : ∀ t ∈ .leave a :: .finish a (.flag true) :: rest, t.isOuter = true :=
        List.forall_mem_cons.2 ⟨rfl, List.forall_mem_cons.2 ⟨rfl, hrest⟩⟩
      rw [List.append_assoc]
      exact List.forall_mem_append.2 ⟨fun t ht => Task.isOuter_of_mem_ofScript ht, hreturn⟩
    · simp only [Agenda.weight_append, Agenda.weight_cons, Task.weight] at hweight ⊢
      omega

/-- From an agenda on which there are only operations to begin, returns, answers and panics, the
history stays unbroken. -/
theorem unbroken_advance (tasks : Agenda σ) {r : Run σ} (h : Between g r)
    (ht : ∀ t ∈ tasks, t.isOuter = true) : (advance g tasks r).history.Unbroken g := by
  -- a passage works off many tasks, so the induction is on what all tasks weigh
  induction hn : tasks.weight + r.reserve using Nat.strong_induction_on generalizing tasks r with
  | _ n ih =>
    subst hn
    cases tasks with
    | nil =>
      rw [advance_nil]
      exact h.unbroken
    | cons t rest =>
      obtain ⟨htask, hrest⟩ := List.forall_mem_cons.1 ht
      have hnote {m : Moment σ} (hm : m.isClosing = true) (hpos : 0 < t.weight) :
          (advance g rest (r.note m)).history.Unbroken g :=
        ih _ (Nat.add_lt_add_right (Nat.lt_add_of_pos_left hpos) _) rest (h.note hm) hrest rfl
      cases t with
      | start c op =>
        obtain ⟨tasks, q, hbetween, houter, hless, hadvance⟩ := h.passage c op hrest
        rw [hadvance]
        exact ih _ hless tasks hbetween houter rfl
      | leave a =>
        rw [advance_cons, Task.step_leave h.calm]
        exact hnote rfl Nat.one_pos
      | finish a x =>
        rw [advance_cons, Task.step_finish h.calm]
        exact hnote rfl Nat.one_pos
      | panic =>
        rw [advance_cons, Task.step_panic h.calm, advance_of_unwinding rfl]
        exact .closing rfl h.unbroken
      | _ => cases htask

/-- No subscriber acting, the history of every run is unbroken, whatever the delegate does. -/
theorem unbroken_performAll (g : Gate σ (Delegate σ)) (dispatch : Dispatch)
    (ops : List (Operation σ)) : (performAll g (start g [] dispatch) ops).history.Unbroken g := by
  induction ops using List.reverseRecOn with
  | nil => exact .nil
  | append_singleton ops op ih =>
    have hr := (undisturbed_start g dispatch).performAll (g := g) ops
    have hs := (recorded_performAll g [] dispatch ops).state
    have hop := unbroken_advance [.start .top op] ⟨hr, performAll_calm rfl ops, hs, ih⟩
      (List.forall_mem_singleton.2 rfl)
    unfold performAll
    rw [List.foldl_append]
    exact hop

end Run

end SlotGate
