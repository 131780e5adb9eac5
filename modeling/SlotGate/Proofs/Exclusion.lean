import SlotGate.Proofs.Guard

/-!
# Sections do not nest

The machine with the guard is followed by the run without one. What an operation has ahead spells a few
tasks of an agenda, three steps of the machine are one critical section, and all that a delegate or a
subscriber asks for comes in front of an operation that has given the guard back. So in both lock modes
the guard is free wherever it is taken.
-/
namespace SlotGate.Guarded

variable {σ : Signature} {δ : Type} {g : Gate σ δ}

/-- A frame that neither holds the guard nor is about to need it. -/
def Frame.Quiet (f : Frame σ) : Prop := f.holds = false ∧ f.inside = false

theorem Config.sound_of_quiet {frames : List (Frame σ)} {r : Run σ}
    (h : ∀ f ∈ frames, f.Quiet) : Config.Sound ⟨frames, false, r⟩ where
  held := by
    cases frames with
    | nil => rfl
    | cons f rest => exact (h f List.mem_cons_self).2.symm
  holder f hf := by
    have hquiet := h f (List.mem_of_mem_head? hf)
    rw [hquiet.1, hquiet.2]
  others f hf := (h f (List.mem_of_mem_tail hf)).1

/-- The machine gets from one configuration to another, and all of them are sound but perhaps the last. -/
inductive Leads (g : Gate σ δ) : Config σ → Config σ → Prop where
  | refl (c : Config σ) : Leads g c c
  | step {c d : Config σ} (sound : c.Sound) (rest : Leads g (c.step g) d) : Leads g c d

namespace Leads

theorem trans {c d e : Config σ} (h : Leads g c d) (k : Leads g d e) : Leads g c e := by
  induction h with
  | refl => exact k
  | step sound rest ih => exact .step sound (ih k)

theorem iterate {c d : Config σ} (h : Leads g c d) :
    ∃ n, (Config.step g)^[n] c = d ∧ ∀ m < n, ((Config.step g)^[m] c).Sound := by
  induction h with
  | refl c => exact ⟨0, rfl, fun m hm => absurd hm (Nat.not_lt_zero m)⟩
  | step sound rest ih =>
    obtain ⟨n, hn, hsound⟩ := ih
    refine ⟨n + 1, hn, fun m hm => ?_⟩
    cases m with
    | zero => exact sound
    | succ m => exact hsound m (Nat.lt_of_succ_lt_succ hm)

end Leads

/-- What the operation of `a` still has to do, as tasks. -/
inductive Program.Spells (g : Gate σ δ) (a : Activity) : Program σ → Agenda σ → Prop where
  | answer {x : Answer σ} : Spells g a (answer x) [.finish a x]
  | attempt : Spells g a (attempt g) [.attempt a]
  | trace {traced : Bool} {e : Event σ} {next : Program σ} {tasks : Agenda σ}
      (h : Spells g a next tasks) : Spells g a (trace traced e next) (.emit e traced :: tasks)
  | clear {next : Program σ} {tasks : Agenda σ} (h : Spells g a next tasks) :
      Spells g a (clear true next) (.sweep a :: tasks)
  | call {args : σ.Arguments} {next : Program σ} {tasks : Agenda σ} (h : Spells g a next tasks) :
      Spells g a (call args next) (.call a args :: tasks)

/-- What is ahead on the machine, as an agenda. -/
inductive Spelled (g : Gate σ δ) : List (Frame σ) → Agenda σ → Prop where
  | nil : Spelled g [] []
  | foreign {f : Frame σ} {t : Task σ} {frames : List (Frame σ)} {tasks : Agenda σ}
      (asks : Frame.ofTask? t = some f) (h : Spelled g frames tasks) :
      Spelled g (f :: frames) (t :: tasks)
  | running {a : Activity} {p : Program σ} {own tasks : Agenda σ} {frames : List (Frame σ)}
      (spells : p.Spells g a own) (h : Spelled g frames tasks) :
      Spelled g (.running a false p :: frames) (own ++ tasks)

namespace Spelled

/-- Tasks of delegates and subscribers come in front of what is ahead. -/
theorem prepend {asked tasks : Agenda σ} {frames : List (Frame σ)} (h : Spelled g frames tasks)
    (hasked : ∀ t ∈ asked, (Frame.ofTask? t).isSome) :
    Spelled g (asked.filterMap Frame.ofTask? ++ frames) (asked ++ tasks) := by
  induction asked with
  | nil => exact h
  | cons t asked ih =>
    obtain ⟨ht, hrest⟩ := List.forall_mem_cons.1 hasked
    obtain ⟨f, hf⟩ := Option.isSome_iff_exists.1 ht
    rw [List.filterMap_cons_some hf]
    exact .foreign hf (ih hrest)

end Spelled

theorem Program.Spells.front {a : Activity} {p : Program σ} {own : Agenda σ}
    (h : p.Spells g a own) : ∃ t left, own = t :: left := by
  cases h <;> exact ⟨_, _, rfl⟩

theorem Spelled.eq_nil {frames : List (Frame σ)} (h : Spelled g frames []) : frames = [] := by
  generalize hts : [] = tasks at h
  cases h with
  | nil => rfl
  | foreign => cases hts
  | running spells h =>
    obtain ⟨t, left, rfl⟩ := spells.front
    cases hts

theorem Program.Spells.outside {a : Activity} {p : Program σ} {own : Agenda σ}
    (h : p.Spells g a own) : (Frame.running a false p).Quiet := by
  induction h with
  | @trace traced e next tasks h ih =>
    cases traced with
    | false => exact ih
    | true => exact ⟨rfl, rfl⟩
  | _ => exact ⟨rfl, rfl⟩

theorem Frame.quiet_of_task {t : Task σ} {f : Frame σ} (h : ofTask? t = some f) :
    f.Quiet ∧ f ≠ .settle := by
  cases t <;> cases h <;> exact ⟨⟨rfl, rfl⟩, by simp⟩

theorem Spelled.quiet {frames : List (Frame σ)} {tasks : Agenda σ} (h : Spelled g frames tasks) :
    ∀ f ∈ frames, f.Quiet ∧ f ≠ .settle := by
  induction h with
  | nil => simp
  | foreign asks h ih => exact List.forall_mem_cons.2 ⟨Frame.quiet_of_task asks, ih⟩
  | running spells h ih => exact List.forall_mem_cons.2 ⟨⟨spells.outside, by simp⟩, ih⟩

section Steps

variable {r : Run σ} {a : Activity} {rest : List (Frame σ)}

/-- A section is three steps: take the guard, look and change, give it back. -/
theorem leads_under {β : Type} {change : State σ → Change σ} {found : State σ → β}
    {next : β → Program σ} (hu : r.unwinding = false) (hrest : ∀ f ∈ rest, f.Quiet) :
    Leads g ⟨.running a false (.under change found next) :: rest, false, r⟩
      ⟨.running a false (next (found r.state)) :: rest, false,
        r.change a (change r.state) ((change r.state).apply r.state)⟩ := by
  have hothers : ∀ f ∈ rest, f.holds = false := fun f hf => (hrest f hf).1
  refine .step (Config.sound_of_quiet (List.forall_mem_cons.2 ⟨⟨rfl, rfl⟩, hrest⟩)) ?_
  simp only [Config.step, hu, Bool.false_eq_true, if_false, Program.under, Config.proceed]
  refine .step ⟨rfl, by simp [Frame.holds, Frame.inside], hothers⟩ ?_
  simp only [Config.step, hu, Bool.false_eq_true, if_false, Config.proceed]
  refine .step ⟨rfl, by simp [Frame.holds, Frame.inside], hothers⟩ ?_
  simp only [Config.step, Run.change, hu, Bool.false_eq_true, if_false, Config.proceed]
  exact .refl _

/-- A section of which the run says the same, and what it leaves ahead. -/
theorem leads_section {β : Type} {change : State σ → Change σ} {found : State σ → β}
    {next : β → Program σ} {own : Agenda σ} {after : Run σ} (hu : r.unwinding = false)
    (hrest : ∀ f ∈ rest, f.Quiet)
    (hrun : after = r.change a (change r.state) ((change r.state).apply r.state))
    (spells : (next (found r.state)).Spells g a own) :
    ∃ p, Leads g ⟨.running a false (.under change found next) :: rest, false, r⟩
        ⟨.running a false p :: rest, false, after⟩ ∧ p.Spells g a own := by
  subst hrun
  exact ⟨_, leads_under hu hrest, spells⟩

/-- After its section an attempt has ahead what is decided on the copy. -/
theorem leads_attempt (hu : r.unwinding = false) (hrest : ∀ f ∈ rest, f.Quiet) :
    ∃ p, Leads g ⟨.running a false (.attempt g) :: rest, false, r⟩
        ⟨.running a false p :: rest, false, (Task.attemptStep g a r).2⟩ ∧
      p.Spells g a (Task.attemptStep g a r).1 := by
  refine leads_section hu hrest ?_ ?_
  · rw [Task.attemptStep_run]
    split <;> rfl
  simp only [Task.attemptStep, Gate.decision]
  cases he : r.state.enabled with
  | false => exact .answer
  | true =>
    cases hb : g.isBound with
    | false => simpa [Program.resolve, hb] using .trace .answer
    | true =>
      cases hs : r.state.slots.allSet with
      | false => simpa [Program.resolve, hb, hs] using .trace .answer
      | true =>
        cases ho : g.settings.oneShot with
        | false => simpa [Program.resolve, hb, hs, ho] using .trace (.call .answer)
        | true => simpa [Program.resolve, hb, hs, ho] using .trace (.clear (.call .answer))

/-- The slots are emptied in one section, and then it goes on. -/
theorem leads_clear {next : Program σ} {tasks : Agenda σ} (hu : r.unwinding = false)
    (hrest : ∀ f ∈ rest, f.Quiet) (h : next.Spells g a tasks) :
    ∃ p, Leads g ⟨.running a false (.clear true next) :: rest, false, r⟩
        ⟨.running a false p :: rest, false, (Task.sweepStep a r).2⟩ ∧
      p.Spells g a ((Task.sweepStep a r).1 ++ tasks) := by
  refine leads_section hu hrest ?_ ?_
  · rw [Task.sweepStep_run, State.vacateAll]
    split <;> rfl
  cases he : r.state.enabled with
  | false => simpa [Task.sweepStep, he, Program.trace] using h
  | true => simpa [Task.sweepStep, he] using .trace h

/-- An operation that has just begun has its first section, or attempts to fire right away. -/
theorem leads_operation (op : Operation σ) (hu : r.unwinding = false) (hrest : ∀ f ∈ rest, f.Quiet) :
    ∃ p, Leads g ⟨.running a false (.ofOperation g op) :: rest, false, r⟩
        ⟨.running a false p :: rest, false, (Task.startStep g a op r).2⟩ ∧
      p.Spells g a (Task.startStep g a op r).1 := by
  have hrun := Task.startStep_run g a op r
  unfold Program.ofOperation
  cases op with
  | fire => exact ⟨_, .refl _, .attempt⟩
  | set i v =>
    refine leads_section hu hrest hrun ?_
    cases he : r.state.enabled with
    | false => simpa [Task.startStep, he] using .answer
    | true =>
      by_cases hn : ((σ.type i).isNull v && g.settings.nullPolicy = .suppress) = true
      · simpa [Task.startStep, he, hn] using .trace .answer
      · simpa [Task.startStep, he, hn] using .trace .attempt
  | assign i v | clearSlot i | clear =>
    refine leads_section hu hrest hrun ?_
    cases he : r.state.enabled with
    | false => simpa [Task.startStep, he, Program.trace] using .answer
    | true => simpa [Task.startStep, he] using .trace .answer
  | setEnabled on | setDebug on =>
    refine leads_section hu hrest hrun ?_
    exact .trace .answer
  | read q =>
    refine leads_section hu hrest hrun ?_
    exact .answer

/-- What an operation has ahead is worked off task by task. -/
theorem leads_running {p : Program σ} {own : Agenda σ} {t : Task σ} (h : p.Spells g a (t :: own))
    (hu : r.unwinding = false) (hrest : ∀ f ∈ rest, f.Quiet) {tasks : Agenda σ}
    {frames bottom : List (Frame σ)} (hr : rest = frames ++ bottom) (hs : Spelled g frames tasks) :
    ∃ frames', Leads g ⟨.running a false p :: rest, false, r⟩
        ⟨frames' ++ bottom, false, (t.step g r).2⟩ ∧
      Spelled g frames' ((t.step g r).1 ++ (own ++ tasks)) := by
  subst hr
  have hquiet : ∀ f ∈ .running a false p :: (frames ++ bottom), f.Quiet :=
    List.forall_mem_cons.2 ⟨h.outside, hrest⟩
  have hsound := Config.sound_of_quiet (r := r) hquiet
  simp only [Task.step, hu, Bool.false_eq_true, if_false]
  cases h with
  | answer =>
    refine ⟨frames, .step hsound ?_, hs⟩
    simp only [Config.step, hu, Bool.false_eq_true, if_false, Config.proceed]
    exact .refl _
  | attempt =>
    obtain ⟨p, hleads, hspells⟩ := leads_attempt (g := g) (a := a) hu hrest
    exact ⟨.running a false p :: frames, hleads, .running hspells hs⟩
  | @trace traced e next _ h =>
    cases traced with
    | false =>
      have hspelled : Spelled g (.running a false next :: frames) (own ++ tasks) := .running h hs
      exact ⟨.running a false next :: frames, .refl _, hspelled⟩
    | true =>
      -- what the subscriber asks for comes in front, and the operation waits without the guard
      have hasked : ∀ t ∈ (Task.emitStep e true r).1, (Frame.ofTask? t).isSome := by
        intro t ht
        rcases Task.mem_emitStep ht with rfl | ⟨x, -, op, -, rfl⟩ <;> rfl
      refine ⟨_, .step hsound ?_, (Spelled.running h hs).prepend hasked⟩
      simp only [Program.trace, Config.step, hu, Bool.false_eq_true, if_false, if_true,
        Config.proceed, List.append_assoc, List.cons_append]
      exact .refl _
  | clear h =>
    obtain ⟨p, hleads, hspells⟩ := leads_clear hu hrest h
    refine ⟨.running a false p :: frames, hleads, ?_⟩
    rw [← List.append_assoc]
    exact .running hspells hs
  | @call args next _ h =>
    have hasked : ∀ t ∈ (Task.callStep a args r).1, (Frame.ofTask? t).isSome := by
      intro t ht
      rcases Task.mem_callStep ht with rfl | ⟨s, -, c, -, rfl⟩
      · rfl
      · cases c <;> rfl
    refine ⟨_, .step hsound ?_, (Spelled.running h hs).prepend hasked⟩
    simp only [Config.step, hu, Bool.false_eq_true, if_false, Config.proceed, List.append_assoc,
      List.cons_append]
    exact .refl _

/-- What foreign code asks for begins, or is done at once. -/
theorem leads_foreign {f : Frame σ} {t : Task σ} (h : Frame.ofTask? t = some f)
    (hu : r.unwinding = false) (hrest : ∀ f ∈ rest, f.Quiet) {tasks : Agenda σ}
    {frames bottom : List (Frame σ)} (hr : rest = frames ++ bottom) (hs : Spelled g frames tasks) :
    ∃ frames', Leads g ⟨f :: rest, false, r⟩ ⟨frames' ++ bottom, false, (t.step g r).2⟩ ∧
      Spelled g frames' ((t.step g r).1 ++ tasks) := by
  subst hr
  have hsound := Config.sound_of_quiet (r := r)
    (List.forall_mem_cons.2 ⟨(Frame.quiet_of_task h).1, hrest⟩)
  cases t with
  | start caller op =>
    obtain rfl := Option.some.inj h
    let a : Activity := ⟨r.begun, caller⟩
    let begun : Run σ := { r with begun := r.begun + 1, history := .began a op :: r.history }
    have htask : (Task.start caller op).step g r = Task.startStep g a op begun :=
      Task.step_start hu caller op
    have hconfig : Config.step g ⟨.start caller op :: (frames ++ bottom), false, r⟩ =
        ⟨.running a false (.ofOperation g op) :: (frames ++ bottom), false, begun⟩ := by
      simp [Config.step, hu, begun, a]
    obtain ⟨p, hleads, hspells⟩ := leads_operation (g := g) (a := a) (r := begun) op hu hrest
    rw [htask]
    refine ⟨.running a false p :: frames, .step hsound ?_, .running hspells hs⟩
    rw [hconfig]
    exact hleads
  | leave | listen | panic =>
    obtain rfl := Option.some.inj h
    refine ⟨frames, .step hsound ?_, ?_⟩
    · simp only [Config.step, Task.step, hu, Bool.false_eq_true, if_false]
      exact .refl _
    · simpa [Task.step, hu] using hs
  | _ => cases h

end Steps

/-- One task of the run takes a few steps of the machine. -/
theorem leads_task {frames bottom : List (Frame σ)} {t : Task σ} {tasks : Agenda σ} {r : Run σ}
    (h : Spelled g frames (t :: tasks)) (hu : r.unwinding = false) (hb : ∀ f ∈ bottom, f.Quiet) :
    ∃ frames', Leads g ⟨frames ++ bottom, false, r⟩ ⟨frames' ++ bottom, false, (t.step g r).2⟩ ∧
      Spelled g frames' ((t.step g r).1 ++ tasks) := by
  have hquiet : ∀ f ∈ frames ++ bottom, f.Quiet := fun f hf =>
    (List.mem_append.1 hf).elim (fun hf => (h.quiet f hf).1) (hb f)
  generalize hts : t :: tasks = ts at h
  cases h with
  | nil => cases hts
  | foreign asks h =>
    obtain ⟨rfl, rfl⟩ := List.cons.inj hts
    exact leads_foreign asks hu (List.forall_mem_cons.1 hquiet).2 rfl h
  | @running a p own rest _ spells h =>
    obtain ⟨u, left, rfl⟩ := spells.front
    obtain ⟨rfl, rfl⟩ := List.cons.inj hts
    exact leads_running spells hu (List.forall_mem_cons.1 hquiet).2 rfl h

/-- A panic leaves all frames above the end of the operation of the top. -/
theorem leads_unwind {frames bottom : List (Frame σ)} {r : Run σ} (hu : r.unwinding = true)
    (hframes : ∀ f ∈ frames, f.Quiet ∧ f ≠ .settle) (hb : ∀ f ∈ bottom, f.Quiet) :
    Leads g ⟨frames ++ bottom, false, r⟩ ⟨bottom, false, r⟩ := by
  induction frames with
  | nil => exact .refl _
  | cons f frames ih =>
    obtain ⟨⟨hf, hsettle⟩, hrest⟩ := List.forall_mem_cons.1 hframes
    have hbelow : ∀ x ∈ frames ++ bottom, x.Quiet := fun x hx =>
      (List.mem_append.1 hx).elim (fun hx => (hrest x hx).1) (hb x)
    refine .step (Config.sound_of_quiet (List.forall_mem_cons.2 ⟨hf, hbelow⟩)) ?_
    have hstep : Config.step g ⟨f :: (frames ++ bottom), false, r⟩ = ⟨frames ++ bottom, false, r⟩ := by
      cases f with
      | running a holds left =>
        obtain rfl : holds = false := hf.1
        simp [Config.step, hu, Config.unwind]
      | settle => exact absurd rfl hsettle
      | _ => simp [Config.step, hu, Config.unwind]
    rw [List.cons_append, hstep]
    exact ih hrest

/-- The machine works off what the run works off, and keeps what lies below. -/
theorem leads_advance {frames bottom : List (Frame σ)} {tasks : Agenda σ} {r : Run σ}
    (h : Spelled g frames tasks) (hb : ∀ f ∈ bottom, f.Quiet) :
    Leads g ⟨frames ++ bottom, false, r⟩ ⟨bottom, false, Run.advance g tasks r⟩ := by
  fun_induction Run.advance g tasks r generalizing frames with
  | case1 r =>
    rw [h.eq_nil]
    exact .refl _
  | case2 r t rest ih =>
    cases hu : r.unwinding with
    | true =>
      rw [← Run.advance_cons, Run.advance_of_unwinding hu]
      exact leads_unwind hu h.quiet hb
    | false =>
      obtain ⟨frames', hleads, hspelled⟩ := leads_task h hu hb
      exact hleads.trans (ih hspelled)

/-- The machine performs what the run performs. -/
theorem leads_performAll (ops : List (Operation σ)) (r : Run σ) :
    Leads g ⟨ops.flatMap fun op => [.start .top op, .settle], false, r⟩
      ⟨[], false, Run.performAll g r ops⟩ := by
  induction ops generalizing r with
  | nil => exact .refl _
  | cons op ops ih =>
    let below : List (Frame σ) := ops.flatMap fun op => [.start .top op, .settle]
    have hbelow : ∀ f ∈ .settle :: below, f.Quiet := by
      refine List.forall_mem_cons.2 ⟨⟨rfl, rfl⟩, fun f hf => ?_⟩
      obtain ⟨op', -, hf⟩ := List.mem_flatMap.1 hf
      simp only [List.mem_cons, List.not_mem_nil, or_false] at hf
      rcases hf with rfl | rfl <;> exact ⟨rfl, rfl⟩
    let after : Run σ := Run.advance g [.start .top op] r
    have hperforms : Leads g ⟨.start .top op :: .settle :: below, false, r⟩
        ⟨.settle :: below, false, after⟩ := leads_advance (.foreign rfl .nil) hbelow
    have hsettles : Config.step g ⟨.settle :: below, false, after⟩ = ⟨below, false, after.settled⟩ := by
      cases hu : after.unwinding <;> simp [Config.step, hu, Config.unwind]
    refine hperforms.trans (.step (Config.sound_of_quiet hbelow) ?_)
    rw [hsettles]
    exact ih after.settled

/-- Everywhere on its way the machine is sound, and it ends where the run without a guard ends. -/
structure Exclusive (g : Gate σ (Delegate σ)) (reactions : List (Reaction σ)) (dispatch : Dispatch)
    (ops : List (Operation σ)) : Prop where
  sound : ∀ n, ((Config.step g)^[n] (.start g reactions dispatch ops)).Sound
  ends : ∃ n, (Config.step g)^[n] (.start g reactions dispatch ops) =
    ⟨[], false, Run.performAll g (.start g reactions dispatch) ops⟩

theorem exclusive (g : Gate σ (Delegate σ)) (reactions : List (Reaction σ)) (dispatch : Dispatch)
    (ops : List (Operation σ)) : Exclusive g reactions dispatch ops := by
  obtain ⟨n, hn, hsound⟩ := (leads_performAll ops (.start g reactions dispatch)).iterate
  refine ⟨fun m => ?_, n, hn⟩
  rcases Nat.lt_or_ge m n with hm | hm
  · exact hsound m hm
  · -- nothing is left to be done, and the machine stays where it is
    obtain ⟨k, rfl⟩ := Nat.exists_eq_add_of_le hm
    have hend : (Config.step g)^[k] ⟨[], false, Run.performAll g (.start g reactions dispatch) ops⟩ =
        ⟨[], false, Run.performAll g (.start g reactions dispatch) ops⟩ := Function.iterate_fixed rfl k
    have hm : (Config.step g)^[n + k] (.start g reactions dispatch ops) =
        ⟨[], false, Run.performAll g (.start g reactions dispatch) ops⟩ := by
      rw [Nat.add_comm, Function.iterate_add_apply]
      exact (congrArg (Config.step g)^[k] hn).trans hend
    rw [hm]
    exact Config.sound_of_quiet (by simp)

end SlotGate.Guarded
