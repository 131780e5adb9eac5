import Mathlib.Data.List.Basic
import SlotGate.Proofs.Picture

/-!
# Traces reconstruct the gate

In a run in which debug stays on, the picture that the events give is that of the live gate at every
event and at the end of every operation, panics or not: a panic comes from a script, and no script
runs between a section and its event. And a subscriber that only reads hears every event, for it is
told nothing while it reads.
-/
namespace SlotGate

variable {σ : Signature} {δ : Type}

def Operation.isRead : Operation σ → Bool
  | read _ => true
  | _ => false

namespace Moment

/-- A section turns debug off. -/
def endsTracing : Moment σ → Bool
  | changed _ (.debugSet on) _ => !on
  | _ => false

/-- The subscriber begins an operation that is no question. -/
def isMeddling : Moment σ → Bool
  | began ⟨_, .subscriber⟩ op => !op.isRead
  | _ => false

end Moment

/-- The event of an entry of a log. -/
def Entry.event? : Entry σ → Option (Event σ)
  | event e _ => some e
  | _ => none

namespace History

/-- Debug is not turned off. -/
def Traced (h : History σ) : Prop := ∀ m ∈ h, m.endsTracing = false

/-- The subscriber does nothing but read. -/
def ReadOnly (h : History σ) : Prop := ∀ m ∈ h, m.isMeddling = false

variable {g : Gate σ δ}

theorem current_debug (hdebug : g.settings.debug = true) {h : History σ}
    (hl : h.Each (Moment.Lawful g)) (ht : h.Traced) : (h.current g).debug = true := by
  induction h with
  | nil => exact hdebug
  | cons m h ih =>
    obtain ⟨hm, hh⟩ := List.forall_mem_cons.1 ht
    have hbefore := ih hl.2 hh
    cases m with
    | changed a c s =>
      obtain ⟨rfl, -⟩ := hl.1
      cases c with
      | debugSet on =>
        have hon : on = true := by simpa [Moment.endsTracing] using hm
        exact hon
      | _ => exact hbefore
    | _ => exact hbefore

/-- If no event goes unheard, the log holds them all. -/
theorem log_events {h : History σ} (hh : ∀ e heard s, .emitted e heard s ∈ h → heard = true) :
    h.log.filterMap Entry.event? = h.events := by
  unfold log events
  rw [List.filterMap_filterMap]
  refine List.filterMap_congr fun m hm => ?_
  cases m with
  | emitted e heard s =>
    obtain rfl := hh e heard s (List.mem_reverse.1 hm)
    rfl
  | finished a answer s =>
    obtain ⟨id, caller⟩ := a
    cases caller <;> rfl
  | _ => rfl

end History

/-- The picture is right at an event, which is taken into it, and at the end of an operation. -/
def Moment.Pictured (g : Gate σ δ) (m : Moment σ) (before : History σ) : Prop :=
  match m with
  | .emitted _ _ s => History.picture g (m :: before) = Picture.of s
  | .finished _ _ s => before.picture g = Picture.of s
  | _ => True

namespace Task

/-- An event of a traced gate is emitted, whether it is heard or not. -/
theorem emitStep_traced (e : Event σ) (r : Run σ) :
    ∃ heard, (emitStep e true r).2.history = .emitted e heard r.state :: r.history := by
  refine ⟨r.hears e.message, ?_⟩
  simp only [emitStep, Bool.not_true, Bool.false_eq_true, if_false]
  split
  · rfl
  · split <;> rfl

/-- A subscriber that was never acting when an event came about hears the next one, and may act on
it. -/
theorem emitStep_heard (e : Event σ) {r : Run σ} (hr : r.reacting = 0)
    (hmet : ∀ x ∈ r.met, x.reacting = 0) :
    (∀ x ∈ (emitStep e true r).2.met, x.reacting = 0) ∧
      (emitStep e true r).2.history = .emitted e true r.state :: r.history ∧
        ((emitStep e true r).2.reacting = 0 ∨
          (emitStep e true r).2.reacting = 1 ∧ ∃ x, (emitStep e true r).1 = Agenda.ofReaction x) := by
  have hmet' : ∀ x ∈ (r.meet e.message).met, x.reacting = 0 := List.forall_mem_cons.2 ⟨hr, hmet⟩
  simp only [emitStep, hears_of_free hr hmet, Bool.not_true, Bool.false_eq_true, if_false]
  split
  · exact ⟨hmet', rfl, .inl hr⟩
  · next x rest hx => exact ⟨hmet', rfl, .inr ⟨congrArg (· + 1) hr, x, rfl⟩⟩

/-- Only events and the end of a reaction bear on what reaches the subscriber. -/
theorem step_attention (g : Gate σ δ) (r : Run σ) {t : Task σ} (ht : ¬ t.IsEmit)
    (hlisten : t ≠ listen) :
    (t.step g r).2.reacting = r.reacting ∧ (t.step g r).2.met = r.met := by
  unfold step
  split
  · exact ⟨rfl, rfl⟩
  · cases t with
    | start caller op =>
      simp only [startStep_run]
      cases op.opening r.state <;> exact ⟨rfl, rfl⟩
    | emit => exact absurd trivial ht
    | attempt a =>
      simp only [attemptStep_run]
      exact ⟨rfl, rfl⟩
    | sweep a =>
      simp only [sweepStep_run]
      exact ⟨rfl, rfl⟩
    | call a args =>
      obtain ⟨left, -, hrun⟩ := callStep_run a args r
      simp only [hrun]
      exact ⟨rfl, rfl⟩
    | listen => exact absurd rfl hlisten
    | _ => exact ⟨rfl, rfl⟩

/-- Only an event is noted as one. -/
theorem Effect.silent_of_not_emit {r : Run σ} {t : Task σ} {new : History σ} {s : State σ}
    (h : Effect r t new s) (ht : ¬ t.IsEmit) : ∀ m ∈ new, m.event? = none := by
  cases h with
  | silent => exact absurd trivial ht
  | emitted => exact absurd trivial ht
  | _ => simp [Moment.event?]

end Task

namespace Run

variable {g : Gate σ δ}

/-- The picture is that of the gate, or will be with the event that is due. -/
structure Drawn (g : Gate σ δ) (tasks : Agenda σ) (r : Run σ) : Prop where
  tells : tasks.Tells g (r.history.picture g) r.state
  plain : r.unwinding = true → ∀ t ∈ tasks, ¬ t.IsEmit
  moments : r.history.Each (Moment.Pictured g)

/-- The event that is due brings the picture up to date. -/
theorem drawn_emit {e : Event σ} {traced : Bool} {rest : Agenda σ} {r : Run σ}
    (hu : r.unwinding = false) (h : Drawn g (.emit e traced :: rest) r) :
    Drawn g (((Task.emit e traced).step g r).1 ++ rest) ((Task.emit e traced).step g r).2 := by
  have hstep : (Task.emit e traced).step g r = Task.emitStep e traced r := by simp [Task.step, hu]
  rcases h.tells with ⟨e', rest', he, hrest, hpicture⟩ | ⟨hplain, -⟩
  · obtain ⟨hfront, rfl⟩ := List.cons.inj he
    obtain ⟨rfl, rfl⟩ := Task.emit.inj hfront
    obtain ⟨heard, hhistory⟩ := Task.emitStep_traced e r
    have hplain : ∀ t ∈ (Task.emitStep e true r).1 ++ rest, ¬ t.IsEmit := by
      intro t ht
      rcases List.mem_append.1 ht with ht | ht
      · rcases Task.mem_emitStep ht with rfl | ⟨x, -, op, -, rfl⟩ <;> exact id
      · exact hrest t ht
    have hnow : History.picture g (.emitted e heard r.state :: r.history) = Picture.of r.state := by
      rw [History.picture_emitted, hpicture]
    rw [hstep]
    refine ⟨.inr ⟨hplain, ?_⟩, fun _ => hplain, ?_⟩
    · rw [hhistory, (Task.emitStep_aside e true r).state, hnow]
    · rw [hhistory]
      exact ⟨hnow, h.moments⟩
  · exact absurd trivial (hplain _ List.mem_cons_self)

theorem opening_of_traced {t : Task σ} {r : Run σ} (hu : r.unwinding = false)
    (hnot : (t.step g r).2.history.Traced) (caller : Caller) (op : Operation σ)
    (ht : t = .start caller op) : op.opening r.state ≠ some (.debugSet false) := by
  subst ht
  intro hopens
  obtain ⟨new, s, heffect, -, hnew⟩ := Task.step_effect g hu (.start caller op)
  cases heffect with
  | opened opens =>
    obtain rfl := Option.some.inj (opens.symm.trans hopens)
    have hends := hnot _ (hnew ▸ List.mem_append_left _ List.mem_cons_self)
    cases hends
  | began opens =>
    rw [opens] at hopens
    cases hopens

/-- Any other task leaves the picture alone and tells what it changes. -/
theorem drawn_other {t : Task σ} {rest : Agenda σ} {r : Run σ} (hu : r.unwinding = false)
    (hd : r.state.debug = true) (ht : ¬ t.IsEmit) (hnot : (t.step g r).2.history.Traced)
    (h : Drawn g (t :: rest) r) : Drawn g ((t.step g r).1 ++ rest) (t.step g r).2 := by
  obtain ⟨new, s, heffect, -, hnew⟩ := Task.step_effect g hu t
  have hsilent := heffect.silent_of_not_emit ht
  obtain ⟨hplain, hpicture⟩ : (∀ u ∈ t :: rest, ¬ u.IsEmit) ∧
      r.history.picture g = Picture.of r.state := by
    rcases h.tells with ⟨e, rest', he, -⟩ | hsync
    · obtain ⟨rfl, -⟩ := List.cons.inj he
      exact absurd trivial ht
    · exact hsync
  obtain ⟨-, hrest⟩ := List.forall_mem_cons.1 hplain
  have htells := Task.step_tells (g := g) hu hd ht (opening_of_traced hu hnot)
  constructor
  case tells =>
    rw [hnew, History.picture_of_silent hsilent, hpicture]
    exact htells.append hrest
  case plain =>
    intro hunwinds
    by_cases hp : t = .panic
    · subst hp
      simpa [Task.step, hu] using hrest
    · rw [(Task.step_frame g hu t).calm hp] at hunwinds
      cases hunwinds
  case moments =>
    rw [hnew]
    have hmoments := h.moments
    cases heffect with
    | finished => exact ⟨hpicture, hmoments⟩
    | opened => exact ⟨trivial, trivial, hmoments⟩
    | silent => exact absurd trivial ht
    | emitted => exact absurd trivial ht
    | listened => exact hmoments
    | _ => exact ⟨trivial, hmoments⟩

theorem traced_of_step {t : Task σ} {r : Run σ} (hu : r.unwinding = false)
    (h : (t.step g r).2.history.Traced) : r.history.Traced := by
  obtain ⟨new, s, -, -, hnew⟩ := Task.step_effect g hu t
  rw [hnew] at h
  exact fun m hm => h m (List.mem_append_right _ hm)

/-- In a run in which debug stays on, every section is told before anything else happens. -/
theorem drawn_invariant (hdebug : g.settings.debug = true) :
    Invariant g (fun _ => True) fun tasks r =>
      Recorded g r ∧ (r.history.Traced → Drawn g tasks r) where
  begins op r _ hu h := by
    refine ⟨h.1, fun ht => ?_⟩
    have hdrawn := h.2 ht
    refine ⟨?_, fun hf => absurd (hu.symm.trans hf) (by decide), hdrawn.moments⟩
    rcases hdrawn.tells with ⟨e, rest, he, -⟩ | ⟨-, hpicture⟩
    · cases he
    · exact .inr ⟨by simp [Task.IsEmit], hpicture⟩
  keeps t rest r _ hu h := by
    refine ⟨recorded_step hu h.1, fun ht => ?_⟩
    have hbefore := traced_of_step hu ht
    by_cases he : t.IsEmit
    · cases t with
      | emit e traced => exact drawn_emit hu (h.2 hbefore)
      | _ => cases he
    · have hd : r.state.debug = true := by
        rw [h.1.state]
        exact History.current_debug hdebug h.1.lawful hbefore
      exact drawn_other hu hd he ht (h.2 hbefore)
  drops t rest r hu h := by
    refine ⟨h.1, fun ht => ?_⟩
    have hdrawn := h.2 ht
    have hplain := hdrawn.plain hu
    refine ⟨?_, fun _ => (List.forall_mem_cons.1 hplain).2, hdrawn.moments⟩
    rcases hdrawn.tells with ⟨e, rest', he, -⟩ | ⟨-, hpicture⟩
    · obtain ⟨rfl, -⟩ := List.cons.inj he
      exact absurd trivial (hplain _ List.mem_cons_self)
    · exact .inr ⟨(List.forall_mem_cons.1 hplain).2, hpicture⟩
  settles r h := ⟨⟨h.1.state, h.1.lawful⟩, fun ht => ⟨(h.2 ht).tells, by simp, (h.2 ht).moments⟩⟩

/-- What is left of a reaction. -/
def IsReading : Task σ → Prop
  | .start .subscriber _ | .finish .. => True
  | _ => False

/-- The subscriber hears every event: it is free, or it has some questions left to ask. -/
structure Attentive (tasks : Agenda σ) (r : Run σ) : Prop where
  met : ∀ x ∈ r.met, x.reacting = 0
  free : r.unwinding = false → r.reacting = 0 ∨ r.reacting = 1 ∧
    ∃ reading rest, tasks = reading ++ .listen :: rest ∧ ∀ t ∈ reading, IsReading t
  heard : ∀ e heard s, .emitted e heard s ∈ r.history → heard = true

/-- A question is answered at once. -/
theorem step_read {q : Query σ} {caller : Caller} {r : Run σ} (hu : r.unwinding = false) :
    ((Task.start caller (.read q)).step g r).1 =
      [.finish ⟨r.begun, caller⟩ (q.answer g r.state)] := by
  simp [Task.step, hu, Task.startStep]

theorem attentive_emit {e : Event σ} {traced : Bool} {rest : Agenda σ} {r : Run σ}
    (hu : r.unwinding = false) (h : Attentive (.emit e traced :: rest) r) :
    Attentive (((Task.emit e traced).step g r).1 ++ rest) ((Task.emit e traced).step g r).2 := by
  -- an event is no question, so the subscriber is not reading
  have hfree : r.reacting = 0 := by
    rcases h.free hu with hf | ⟨-, reading, rest', he, hreading⟩
    · exact hf
    · cases reading with
      | nil => cases he
      | cons t reading =>
        obtain ⟨rfl, -⟩ := List.cons.inj he
        exact (hreading _ List.mem_cons_self).elim
  have hstep : (Task.emit e traced).step g r = Task.emitStep e traced r := by simp [Task.step, hu]
  rw [hstep]
  cases traced with
  | false => exact ⟨h.met, fun _ => .inl hfree, h.heard⟩
  | true =>
    obtain ⟨hmet, hhistory, hthen⟩ := Task.emitStep_heard e hfree h.met
    refine ⟨hmet, fun _ => ?_, fun e' heard s hm => ?_⟩
    · rcases hthen with hf | ⟨hacts, x, hx⟩
      · exact .inl hf
      · refine .inr ⟨hacts, x.operations.map (Task.start .subscriber), rest, ?_, ?_⟩
        · simp [hx, Agenda.ofReaction]
        · simp [IsReading]
    · rw [hhistory] at hm
      rcases List.mem_cons.1 hm with he | hm
      · exact (Moment.emitted.inj he).2.1
      · exact h.heard e' heard s hm

/-- While the subscriber reads nothing is told. -/
theorem attentive_reading {t : Task σ} {r : Run σ} (hu : r.unwinding = false)
    (ht : IsReading t) (hread : (t.step g r).2.history.ReadOnly) :
    ∀ u ∈ (t.step g r).1, IsReading u := by
  cases t with
  | start caller op =>
    cases caller with
    | subscriber =>
      obtain ⟨new, s, heffect, -, hnew⟩ := Task.step_effect g hu (.start .subscriber op)
      have hbegan : .began ⟨r.begun, .subscriber⟩ op ∈ new := by
        cases heffect <;> simp
      have hop := hread _ (hnew ▸ List.mem_append_left _ hbegan)
      cases op with
      | read q => simp [step_read hu, IsReading]
      | _ => cases hop
    | _ => cases ht
  | finish a answer => simp [Task.step, hu]
  | _ => cases ht

theorem attentive_step {t : Task σ} {rest : Agenda σ} {r : Run σ} (hu : r.unwinding = false)
    (hread : (t.step g r).2.history.ReadOnly) (h : Attentive (t :: rest) r) :
    Attentive ((t.step g r).1 ++ rest) (t.step g r).2 := by
  by_cases hemit : t.IsEmit
  · cases t with
    | emit e traced => exact attentive_emit hu h
    | _ => cases hemit
  by_cases hlisten : t = .listen
  · subst hlisten
    have hstep : Task.listen.step g r = ([], { r with reacting := r.reacting - 1 }) := by
      simp [Task.step, hu]
    have hfree : r.reacting - 1 = 0 := by
      rcases h.free hu with hf | ⟨hacts, -⟩ <;> omega
    rw [hstep]
    exact ⟨h.met, fun _ => .inl hfree, h.heard⟩
  obtain ⟨hreacting, hmet⟩ := Task.step_attention g r hemit hlisten
  obtain ⟨new, s, heffect, -, hnew⟩ := Task.step_effect g hu t
  refine ⟨hmet ▸ h.met, fun _ => ?_, fun e heard s' hm => ?_⟩
  · rcases h.free hu with hf | ⟨hacts, reading, rest', he, hreading⟩
    · exact .inl (hreacting.trans hf)
    · cases reading with
      | nil => exact absurd (List.cons.inj he).1 hlisten
      | cons u reading =>
        obtain ⟨rfl, rfl⟩ := List.cons.inj he
        obtain ⟨ht, hrest⟩ := List.forall_mem_cons.1 hreading
        have hstep := attentive_reading hu ht hread
        refine .inr ⟨hreacting.trans hacts, (t.step g r).1 ++ reading, rest', by simp, fun u hu' => ?_⟩
        exact (List.mem_append.1 hu').elim (hstep u) (hrest u)
  · rw [hnew] at hm
    rcases List.mem_append.1 hm with hm | hm
    · cases heffect.silent_of_not_emit hemit _ hm
    · exact h.heard e heard s' hm

theorem attentive_invariant (g : Gate σ δ) :
    Invariant g (fun _ => True) fun tasks r => r.history.ReadOnly → Attentive tasks r where
  begins op r _ hu h hread := by
    have hbefore := h hread
    refine ⟨hbefore.met, fun _ => .inl ?_, hbefore.heard⟩
    rcases hbefore.free hu with hf | ⟨-, reading, rest, he, -⟩
    · exact hf
    · simp at he
  keeps t rest r _ hu h hread := by
    obtain ⟨new, s, -, -, hnew⟩ := Task.step_effect g hu t
    refine attentive_step hu hread (h fun m hm => hread m ?_)
    rw [hnew]
    exact List.mem_append_right _ hm
  drops t rest r hu h hread :=
    ⟨(h hread).met, fun hf => absurd (hu.symm.trans hf) (by decide), (h hread).heard⟩
  settles r h hread := ⟨(h hread).met, fun _ => .inl rfl, (h hread).heard⟩

/-- What the events of a run give of its gate. -/
structure Reconstructed (g : Gate σ δ) (r : Run σ) : Prop where
  /-- At the moment of an event the picture is right, this event included. -/
  events : r.history.Every fun _ m before => ∀ e heard s, m = .emitted e heard s →
    History.picture g (m :: before) = Picture.of s
  answers : r.history.Every fun _ m before => ∀ a answer s, m = .finished a answer s →
    before.picture g = Picture.of s
  now : r.history.picture g = Picture.of r.state
  /-- A subscriber that only reads has all events in its log, at any time. -/
  heard : r.history.ReadOnly → ∀ before : History σ, before <:+ r.history →
    before.log.filterMap Entry.event? = before.events

/-- Where debug is on from the beginning and stays on, events give the gate as it is, whatever
operations, scripts, reactions and panics there are. -/
theorem trace_reconstructs {g : Gate σ (Delegate σ)} (hdebug : g.settings.debug = true)
    (reactions : List (Reaction σ)) (dispatch : Dispatch) (ops : List (Operation σ))
    (htraced : (performAll g (start g reactions dispatch) ops).history.Traced) :
    Reconstructed g (performAll g (start g reactions dispatch) ops) := by
  have hstart : Recorded g (start g reactions dispatch) ∧
      ((start g reactions dispatch).history.Traced → Drawn g [] (start g reactions dispatch)) :=
    ⟨⟨rfl, trivial⟩, fun _ => ⟨.inr ⟨by simp, rfl⟩, by simp, trivial⟩⟩
  have hdrawn := ((drawn_invariant hdebug).performAll ops (fun _ _ => trivial) rfl hstart).2 htraced
  have hattentive := (attentive_invariant g).performAll ops (fun _ _ => trivial)
    (r := start g reactions dispatch) rfl fun _ => ⟨by simp [start], fun _ => .inl rfl, by simp [start]⟩
  constructor
  case events =>
    rintro after m before he e heard s rfl
    exact History.each_at hdrawn.moments he
  case answers =>
    rintro after m before he a answer s rfl
    exact History.each_at hdrawn.moments he
  case now =>
    rcases hdrawn.tells with ⟨e, rest, he, -⟩ | ⟨-, hpicture⟩
    · cases he
    · exact hpicture
  case heard =>
    intro hread before hs
    refine History.log_events fun e heard s hm => ?_
    exact (hattentive hread).heard e heard s (hs.subset hm)

/-- The delegate acts on the gate and panics, and the subscriber reads. -/
theorem trace_reconstructs_of_panic :
    let g := Gate.flags { oneShot := true, debug := true }
      [[.perform (.assign Gate.right true), .perform (.setEnabled false), .panic]]
    let reactions : List (Reaction .flags) := [⟨"gate.fire", [.read .state, .read .pending]⟩]
    let r := performAll g (start g reactions (.registering []))
      [.assign Gate.left true, .set Gate.right true, .clear]
    g.settings.debug = true ∧ r.history.Traced ∧ r.history.ReadOnly ∧ Reconstructed g r := by
  refine ⟨rfl, ?_, ?_, trace_reconstructs rfl _ _ _ ?_⟩
  · unfold History.Traced
    decide +kernel
  · unfold History.ReadOnly
    decide +kernel
  · unfold History.Traced
    decide +kernel

end Run

end SlotGate
