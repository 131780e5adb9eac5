import SlotGate.Proofs.Provenance

/-!
# A disabled gate is frozen

From a section that disables the gate to the next one that enables it nothing touches the slots:
every section looks at the flag for itself, also that of an operation that was under way when the
flag changed. An operation whose first section finds the gate disabled is over with that section.
Only fires that had copied the slots before still make their calls.
-/
namespace SlotGate

variable {σ : Signature} {δ : Type}

/-- The answer of an operation whose first section finds the gate disabled. -/
def Operation.refusal : Operation σ → Option (Answer σ)
  | set .. | fire => some (.flag false)
  | assign i v => some (.value i v)
  | clearSlot _ | clear => some .done
  | setEnabled _ | setDebug _ | read _ => none

/-- A section enables the gate. -/
def Moment.Enables : Moment σ → Prop
  | changed _ (.enabledSet on) _ => on = true
  | _ => False

/-- Sections that find the gate disabled change its flags at most. -/
theorem Change.Justified.of_disabled {a : Activity} {before : History σ} {s : State σ} {c : Change σ}
    (h : c.Justified a before s) (hd : s.enabled = false) :
    c = .refused ∨ c = .looked ∨ (∃ on, c = .enabledSet on) ∨ ∃ on, c = .debugSet on := by
  cases h with
  | opening began opens =>
    next op earlier =>
    cases op <;> simp [Operation.opening, hd] at opens <;> simp [← opens]
  | attempt h => exact .inl (by simp [h, hd])
  | sweep h => exact .inl (by simp [h, hd])

/-- The first section of an operation that a disabled gate refuses does nothing. -/
theorem Change.Justified.refused {a : Activity} {op : Operation σ} {answer : Answer σ}
    {earlier : History σ} {s : State σ} {c : Change σ} (h : c.Justified a (.began a op :: earlier) s)
    (hd : s.enabled = false) (ha : op.refusal = some answer) : c = .refused := by
  cases h with
  | opening began opens =>
    obtain ⟨-, rfl⟩ := Moment.began.inj (List.cons.inj began).1
    cases op <;> simp [Operation.opening, hd] at opens <;> first | exact opens.symm | cases ha
  | attempt h => simp [h, hd]
  | sweep h => simp [h, hd]

namespace History

/-- The gate was disabled after `early`, and no section of `mid` enabled it. -/
structure Outage (g : Gate σ δ) (early mid : History σ) : Prop where
  disabled : (early.current g).enabled = false
  unbroken : ∀ m ∈ mid, ¬ m.Enables

/-- What an outage means for the slots, for the operations that come to their first section in it and
for the calls that are made in it. -/
structure Frozen (g : Gate σ δ) (h : History σ) : Prop where
  /-- A section that disables the gate begins an outage. -/
  begins : ∀ a s before, .changed a (.enabledSet false) s :: before <:+ h →
    Outage g (.changed a (.enabledSet false) s :: before) []
  slots : ∀ mid early, mid ++ early <:+ h → Outage g early mid →
    (current g (mid ++ early)).slots = (current g early).slots
  /-- An operation whose first section falls in an outage is answered right after it, and never calls
  the delegate. -/
  refuses : ∀ mid early a c s op answer, .changed a c s :: (mid ++ early) <:+ h →
    Outage g early mid → .began a op ∈ mid ++ early → (∀ c s, .changed a c s ∉ mid ++ early) →
      op.refusal = some answer → c = .refused ∧
        .finished a answer s :: .changed a c s :: (mid ++ early) <:+ h ∧
          ∀ args, .called a args ∉ h
  /-- A call during an outage is that of a fire which had copied the slots before it. -/
  calls : ∀ mid early a args, .called a args :: (mid ++ early) <:+ h → Outage g early mid →
    ∃ s, .changed a .copied s ∈ early
  resumes : ∀ mid early a s, .changed a (.enabledSet true) s :: (mid ++ early) <:+ h →
    Outage g early mid → s.slots = (current g early).slots

variable {g : Gate σ δ}

theorem current_of_disabled {h : History σ} {m : Moment σ} (hl : m.Lawful g h)
    (hd : (h.current g).enabled = false) (hm : ¬ m.Enables) :
    (current g (m :: h)).slots = (h.current g).slots ∧ (current g (m :: h)).enabled = false := by
  cases m with
  | changed a c s =>
    obtain ⟨rfl, hjustified⟩ := hl
    rcases hjustified.of_disabled hd with rfl | rfl | ⟨on, rfl⟩ | ⟨on, rfl⟩
    · exact ⟨rfl, hd⟩
    · exact ⟨rfl, hd⟩
    · exact ⟨rfl, Bool.eq_false_iff.2 hm⟩
    · exact ⟨rfl, hd⟩
  | _ => exact ⟨rfl, hd⟩

/-- Throughout an outage the slots stay as they were when it began. -/
theorem Outage.frozen {early mid : History σ} (ho : Outage g early mid)
    (hl : Each (Moment.Lawful g) (mid ++ early)) :
    (current g (mid ++ early)).slots = (early.current g).slots ∧
      (current g (mid ++ early)).enabled = false := by
  induction mid with
  | nil => exact ⟨rfl, ho.disabled⟩
  | cons m mid ih =>
    obtain ⟨hm, hmid⟩ := List.forall_mem_cons.1 ho.unbroken
    obtain ⟨hslots, hdisabled⟩ := ih ⟨ho.disabled, hmid⟩ hl.2
    obtain ⟨hslots', hdisabled'⟩ := current_of_disabled hl.1 hdisabled hm
    exact ⟨hslots'.trans hslots, hdisabled'⟩

/-- No slots are copied in an outage. -/
theorem Outage.not_copied {early mid : History σ} (ho : Outage g early mid)
    (hl : Each (Moment.Lawful g) (mid ++ early)) (a : Activity) (s : State σ) :
    .changed a .copied s ∉ mid := by
  intro hm
  obtain ⟨later, mid', rfl⟩ := List.append_of_mem hm
  have ho' : Outage g early mid' :=
    ⟨ho.disabled, fun m hm' => ho.unbroken m (by simp [hm'])⟩
  have hl' : Each (Moment.Lawful g) (.changed a .copied s :: (mid' ++ early)) := by
    rw [List.append_assoc] at hl
    exact each_suffix hl
  obtain ⟨hsame, hen⟩ := copied_enabled hl'.1
  have hdisabled := (ho'.frozen hl'.2).2
  rw [← hsame, hen] at hdisabled
  cases hdisabled

end History

namespace Task

theorem startStep_refused {g : Gate σ δ} {a : Activity} {op : Operation σ} {r : Run σ}
    {answer : Answer σ} (hc : op.opening r.state = some .refused) (ha : op.refusal = some answer) :
    (startStep g a op r).1 = [finish a answer] := by
  cases op <;> simp only [Operation.opening] at hc <;> simp only [Operation.refusal] at ha <;>
    grind [startStep]

theorem attemptStep_refused {g : Gate σ δ} {a : Activity} {r : Run σ}
    (h : r.state.enabled = false) : (attemptStep g a r).1 = [finish a (.flag false)] := by
  simp [attemptStep, Gate.decision, h]

end Task

namespace Run

variable {g : Gate σ δ}

/-- An operation comes to its first section as soon as it has begun, and to its end as soon as that
section has found the gate disabled. Then it never copies the slots. -/
structure Prompt (tasks : Agenda σ) (r : Run σ) : Prop where
  once : ∀ a, chances a tasks r ≤ 1
  opens : r.history.Every fun after m _ => ∀ a op, m = .began a op →
    (∃ later c s, after = later ++ [.changed a c s]) ∨
      (after = [] ∧ op = .fire ∧ r.unwinding = false ∧ ∃ rest, tasks = .attempt a :: rest)
  answers : r.history.Every fun after m before => ∀ a s op earlier answer,
    m = .changed a .refused s → before = .began a op :: earlier → op.refusal = some answer →
      chances a tasks r = 0 ∧ ((∃ later, after = later ++ [.finished a answer s]) ∨
        (after = [] ∧ s = r.state ∧ r.unwinding = false ∧
          ∃ rest, tasks = .finish a answer :: rest))

/-- Without a new moment it is enough that the task in front is not forgotten. -/
theorem Prompt.keep {tasks tasks' : Agenda σ} {r r' : Run σ} (h : Prompt tasks r)
    (hh : r'.history = r.history) (hc : ∀ a, chances a tasks' r' ≤ chances a tasks r)
    (hidle : r.unwinding = true ∨ tasks = []) : Prompt tasks' r' where
  once a := Nat.le_trans (hc a) (h.once a)
  opens := by
    rw [hh]
    intro after m before he a op hm
    rcases h.opens after m before he a op hm with hl | ⟨-, -, hu, rest, ht⟩
    · exact .inl hl
    · rcases hidle with hu' | ht'
      · rw [hu'] at hu; cases hu
      · rw [ht'] at ht; cases ht
  answers := by
    rw [hh]
    intro after m before he a s op earlier answer hm hb ha
    obtain ⟨hzero, hl⟩ := h.answers after m before he a s op earlier answer hm hb ha
    refine ⟨Nat.le_zero.1 (hzero ▸ hc a), ?_⟩
    rcases hl with hl | ⟨-, -, hu, rest, ht⟩
    · exact .inl hl
    · rcases hidle with hu' | ht'
      · rw [hu'] at hu; cases hu
      · rw [ht'] at ht; cases ht

/-- The first section comes at once. -/
theorem opens_step (g : Gate σ δ) {t : Task σ} {rest : Agenda σ} {r : Run σ}
    (hu : r.unwinding = false) (h : Prompt (t :: rest) r) :
    (t.step g r).2.history.Every fun after m _ => ∀ a op, m = .began a op →
      (∃ later c s, after = later ++ [.changed a c s]) ∨
        (after = [] ∧ op = .fire ∧ (t.step g r).2.unwinding = false ∧
          ∃ rest', (t.step g r).1 ++ rest = .attempt a :: rest') := by
  obtain ⟨new, s, heffect, -, hnew⟩ := Task.step_effect g hu t
  rw [hnew]
  refine History.every_append h.opens ?_ ?_
  · intro after m before hold a op hm
    rcases hold a op hm with ⟨later, c, s, rfl⟩ | ⟨rfl, -, -, rest', ht⟩
    · exact .inl ⟨new ++ later, c, s, by simp⟩
    · obtain ⟨rfl, -⟩ := List.cons.inj ht
      cases heffect
      exact .inl ⟨[], _, _, rfl⟩
  · intro after m before he a op hm
    subst hm
    cases heffect with
    | opened =>
      cases after with
      | nil => cases he
      | cons x after =>
        obtain ⟨rfl, hbegan⟩ := List.cons.inj he
        obtain ⟨rfl, rfl⟩ := History.split_singleton hbegan
        cases hbegan
        exact .inl ⟨[], _, _, rfl⟩
    | began opens =>
      obtain ⟨rfl, rfl⟩ := History.split_singleton he
      cases he
      have hfire : op = .fire := by cases op <;> first | rfl | cases opens
      subst hfire
      refine .inr ⟨rfl, rfl, (Task.step_frame g hu _).calm (by simp), rest, ?_⟩
      simp [Task.step, hu, Task.startStep]
    | silent => simp at he
    | listened => simp at he
    | _ =>
      obtain ⟨rfl, rfl⟩ := History.split_singleton he
      cases he

/-- The chance that an operation has to copy the slots is gone when its first section is refused. -/
theorem chances_of_refused {a : Activity} {answer : Answer σ} {new : History σ}
    {rest tasks : Agenda σ} {r r' : Run σ} (h : chances a tasks r ≤ 1)
    (hnew : r'.history = new ++ r.history) (hcopies : new.countP (Moment.isCopyOf a) = 0)
    (hbegun : a.id < r'.begun)
    (hturn : chances a tasks r = r.history.countP (Moment.isCopyOf a) +
      rest.countP (Task.isAttemptOf a) + 1) :
    chances a (.finish a answer :: rest) r' = 0 := by
  unfold chances
  rw [hnew, List.countP_append, hcopies, List.countP_cons, if_pos hbegun,
    if_neg (by simp [Task.isAttemptOf])]
  omega

theorem id_lt_of_attempt {a : Activity} {rest : Agenda σ} {r : Run σ}
    (h : chances a (.attempt a :: rest) r ≤ 1) : a.id < r.begun := by
  refine Nat.lt_of_not_le fun hle => ?_
  unfold chances at h
  rw [List.countP_cons, if_pos (by simp [Task.isAttemptOf]), if_neg (Nat.not_lt.2 hle)] at h
  omega

/-- What is left of an operation whose first section is refused. -/
theorem refused_opening {caller : Caller} {op : Operation σ} {answer : Answer σ} {rest : Agenda σ}
    {r : Run σ} (hu : r.unwinding = false) (hc : op.opening r.state = some .refused)
    (ha : op.refusal = some answer)
    (h : chances ⟨r.begun, caller⟩ (.start caller op :: rest) r ≤ 1) :
    ((Task.start caller op).step g r).1 ++ rest = .finish ⟨r.begun, caller⟩ answer :: rest ∧
      chances ⟨r.begun, caller⟩ (.finish ⟨r.begun, caller⟩ answer :: rest)
        ((Task.start caller op).step g r).2 = 0 := by
  obtain ⟨new, s, heffect, -, hnew⟩ := Task.step_effect g hu (.start caller op)
  have htasks : ((Task.start caller op).step g r).1 = [.finish ⟨r.begun, caller⟩ answer] := by
    simp only [Task.step, hu, Bool.false_eq_true, if_false]
    exact Task.startStep_refused hc ha
  refine ⟨by rw [htasks]; rfl, chances_of_refused h hnew ?_ ?_ ?_⟩
  · cases heffect with
    | opened opens =>
      obtain rfl := Option.some.inj (opens.symm.trans hc)
      rfl
    | began => rfl
  · rw [(Task.step_frame g hu (.start caller op)).begun]
    exact Nat.lt_succ_self _
  · simp [chances, Task.isAttemptOf]

theorem refused_attempt {a : Activity} {rest : Agenda σ} {r : Run σ} (hu : r.unwinding = false)
    (hd : r.state.enabled = false) (h : chances a (.attempt a :: rest) r ≤ 1) :
    ((Task.attempt a).step g r).1 ++ rest = .finish a (.flag false) :: rest ∧
      chances a (.finish a (.flag false) :: rest) ((Task.attempt a).step g r).2 = 0 := by
  obtain ⟨new, s, heffect, -, hnew⟩ := Task.step_effect g hu (.attempt a)
  have htasks : ((Task.attempt a).step g r).1 = [.finish a (.flag false)] := by
    simp only [Task.step, hu, Bool.false_eq_true, if_false]
    exact Task.attemptStep_refused hd
  have hbegun : a.id < r.begun := id_lt_of_attempt h
  cases heffect
  refine ⟨by rw [htasks]; rfl, chances_of_refused h hnew ?_ ?_ ?_⟩
  · simp [hd, Moment.isCopyOf]
  · rw [(Task.step_frame g hu (.attempt a)).begun]
    exact hbegun
  · simp [chances, Task.isAttemptOf, hbegun, Nat.add_assoc]

/-- An operation whose first section is refused is over with it. -/
theorem answers_step (g : Gate σ δ) {t : Task σ} {rest : Agenda σ} {r : Run σ}
    (hu : r.unwinding = false) (h : Prompt (t :: rest) r) :
    (t.step g r).2.history.Every fun after m before => ∀ a s op earlier answer,
      m = .changed a .refused s → before = .began a op :: earlier → op.refusal = some answer →
        chances a ((t.step g r).1 ++ rest) (t.step g r).2 = 0 ∧
          ((∃ later, after = later ++ [.finished a answer s]) ∨
            (after = [] ∧ s = (t.step g r).2.state ∧ (t.step g r).2.unwinding = false ∧
              ∃ rest', (t.step g r).1 ++ rest = .finish a answer :: rest')) := by
  obtain ⟨new, s', heffect, hs', hnew⟩ := Task.step_effect g hu t
  have hframe := Task.step_frame g hu t
  rw [hnew]
  refine History.every_append h.answers ?_ ?_
  · intro after m before hold a s op earlier answer hm hb ha
    obtain ⟨hzero, hl⟩ := hold a s op earlier answer hm hb ha
    refine ⟨Nat.le_zero.1 (hzero ▸ chances_step g a hu), ?_⟩
    rcases hl with ⟨later, rfl⟩ | ⟨rfl, rfl, -, rest', ht⟩
    · exact .inl ⟨new ++ later, by simp⟩
    · obtain ⟨rfl, -⟩ := List.cons.inj ht
      cases heffect
      exact .inl ⟨[], rfl⟩
  · intro after m before he a s op earlier answer hm hb ha
    subst hm
    cases heffect with
    | opened opens =>
      next caller op' c =>
      cases after with
      | nil =>
        obtain ⟨hm, rfl⟩ := List.cons.inj he
        obtain ⟨rfl, rfl, rfl⟩ := Moment.changed.inj hm
        obtain ⟨hm, rfl⟩ := List.cons.inj hb
        obtain ⟨-, rfl⟩ := Moment.began.inj hm
        obtain ⟨htasks, hzero⟩ := refused_opening (g := g) hu opens ha (h.once _)
        rw [htasks]
        exact ⟨hzero, .inr ⟨rfl, hs'.symm, hframe.calm (by simp), rest, rfl⟩⟩
      | cons x after =>
        obtain ⟨-, hbegan⟩ := List.cons.inj he
        obtain ⟨rfl, rfl⟩ := History.split_singleton hbegan
        cases hbegan
    | attempted =>
      next b =>
      obtain ⟨rfl, rfl⟩ := History.split_singleton he
      obtain ⟨rfl, hc, rfl⟩ := Moment.changed.inj (List.cons.inj he).1
      have hd : r.state.enabled = false := by
        cases hen : r.state.enabled with
        | false => rfl
        | true =>
          rw [if_pos hen] at hc
          cases hc
      -- an attempt right after the beginning is that of a fire
      rcases h.opens [] _ earlier hb b op rfl with ⟨later, c, s, hl⟩ | ⟨-, rfl, -, -⟩
      · simp at hl
      · cases ha
        obtain ⟨htasks, hzero⟩ := refused_attempt (g := g) hu hd (h.once b)
        rw [htasks]
        exact ⟨hzero, .inr ⟨rfl, hs'.symm, hframe.calm (by simp), rest, rfl⟩⟩
    | swept =>
      obtain ⟨rfl, rfl⟩ := History.split_singleton he
      rcases h.opens [] _ earlier hb a op rfl with ⟨later, c, s, hl⟩ | ⟨-, -, -, rest', ht⟩
      · simp at hl
      · cases ht
    | silent => simp at he
    | listened => simp at he
    | _ =>
      obtain ⟨rfl, rfl⟩ := History.split_singleton he
      cases he

theorem prompt_invariant (g : Gate σ δ) : Invariant g (fun _ => True) Prompt where
  begins op r _ _ h := h.keep rfl (fun a => by simp [chances, Task.isAttemptOf]) (.inr rfl)
  keeps t rest r _ hu h :=
    ⟨fun a => Nat.le_trans (chances_step g a hu) (h.once a), opens_step g hu h, answers_step g hu h⟩
  drops t rest r hu h := h.keep rfl (fun a => chances_tail a t rest r) (.inl hu)
  settles r h := h.keep rfl (fun _ => Nat.le_refl _) (.inr rfl)

theorem prompt_performAll (g : Gate σ (Delegate σ)) (reactions : List (Reaction σ))
    (dispatch : Dispatch) (ops : List (Operation σ)) :
    Prompt [] (performAll g (start g reactions dispatch) ops) := by
  refine (prompt_invariant g).performAll ops (fun _ _ => trivial) rfl ⟨fun a => ?_, ?_, ?_⟩
  · simp [chances, start]
  · simp [History.Every, start]
  · simp [History.Every, start]

/-- The first section of an operation follows its beginning. -/
theorem Prompt.began_of_first {r : Run σ} (h : Prompt [] r) {before : History σ} {a : Activity}
    {c : Change σ} {s : State σ} {op : Operation σ} (hs : .changed a c s :: before <:+ r.history)
    (hop : .began a op ∈ before) (hfirst : ∀ c s, .changed a c s ∉ before) :
    ∃ earlier, before = .began a op :: earlier := by
  obtain ⟨after, he⟩ := hs
  obtain ⟨mid, earlier, rfl⟩ := List.append_of_mem hop
  rcases List.eq_nil_or_concat mid with rfl | ⟨mid, m, rfl⟩
  · exact ⟨earlier, rfl⟩
  · have hsplit : r.history = (after ++ .changed a c s :: mid ++ [m]) ++ .began a op :: earlier := by
      simp [← he]
    rcases h.opens _ _ _ hsplit a op rfl with ⟨later, c', s', hl⟩ | ⟨-, -, -, rest, ht⟩
    · obtain ⟨-, hm⟩ := List.append_inj' hl rfl
      obtain rfl := (List.cons.inj hm).1
      exact absurd (by simp) (hfirst c' s')
    · cases ht

theorem Prompt.refuses {r : Run σ} (h : Prompt [] r) (hl : r.history.Each (Moment.Lawful g))
    (hp : r.history.Provenance g) {before : History σ} {a : Activity} {c : Change σ} {s : State σ}
    {op : Operation σ} {answer : Answer σ} (hs : .changed a c s :: before <:+ r.history)
    (hd : (before.current g).enabled = false) (hop : .began a op ∈ before)
    (hfirst : ∀ c s, .changed a c s ∉ before) (ha : op.refusal = some answer) :
    c = .refused ∧ .finished a answer s :: .changed a c s :: before <:+ r.history ∧
      ∀ args, .called a args ∉ r.history := by
  obtain ⟨earlier, hbegan⟩ := h.began_of_first hs hop hfirst
  obtain ⟨after, he⟩ := hs
  have hjustified := (History.each_at hl he.symm).2
  rw [hbegan] at hjustified
  have hc : c = .refused := hjustified.refused (hbegan ▸ hd) ha
  subst hc
  obtain ⟨hzero, hanswer⟩ := h.answers _ _ _ he.symm a s op earlier answer rfl hbegan ha
  refine ⟨rfl, ?_, fun args hcall => ?_⟩
  · rcases hanswer with ⟨later, rfl⟩ | ⟨-, -, -, rest, ht⟩
    · exact ⟨later, by simpa using he⟩
    · cases ht
  · obtain ⟨later, mid, hsplit⟩ := List.append_of_mem hcall
    have hcopies := (hp.calls _ _ _ hsplit a args rfl).1
    unfold chances at hzero
    omega

/-- A disabled gate is frozen in every run, whatever its operations, scripts and reactions. -/
theorem disabled_gate_frozen (g : Gate σ (Delegate σ)) (reactions : List (Reaction σ))
    (dispatch : Dispatch) (ops : List (Operation σ)) :
    (performAll g (start g reactions dispatch) ops).history.Frozen g := by
  have hl := (recorded_performAll g reactions dispatch ops).lawful
  have hp := arguments_provenance g reactions dispatch ops
  have lawful : ∀ {before : History σ},
      before <:+ (performAll g (start g reactions dispatch) ops).history →
      before.Each (Moment.Lawful g) := by
    rintro before ⟨after, he⟩
    exact History.each_suffix (he ▸ hl)
  constructor
  case begins =>
    intro a s before hs
    obtain ⟨rfl, -⟩ := (lawful hs).1
    exact ⟨rfl, by simp⟩
  case slots =>
    intro mid early hs ho
    exact (ho.frozen (lawful hs)).1
  case refuses =>
    intro mid early a c s op answer hs ho
    have hd := (ho.frozen (lawful hs).2).2
    exact (prompt_performAll g reactions dispatch ops).refuses hl hp hs hd
  case calls =>
    intro mid early a args hs ho
    have hmid := (lawful hs).2
    obtain ⟨after, he⟩ := hs
    obtain ⟨-, later, s, copied, hcopy, -⟩ := hp.calls _ _ _ he.symm a args rfl
    have hmem : .changed a .copied s ∈ mid ++ early := by simp [hcopy]
    exact ⟨s, (List.mem_append.1 hmem).resolve_left (ho.not_copied hmid a s)⟩
  case resumes =>
    intro mid early a s hs ho
    obtain ⟨rfl, -⟩ := (lawful hs).1
    exact (ho.frozen (lawful hs).2).1

end Run

end SlotGate
