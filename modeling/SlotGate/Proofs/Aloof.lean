import SlotGate.Proofs.Passage

/-!
# Delegates that keep away

A delegate that asks nothing of its gate can still panic. No subscriber acting, an operation of the top
is then its passage and a short closing, and its report can be read off: what it answered, what it
called, and the state it left.
-/
namespace SlotGate

variable {σ : Signature}

/-- No script of the delegate asks anything of the gate. -/
def Delegate.Aloof (d : Delegate σ) : Prop := ∀ s ∈ d.scripts, ∀ op, .perform op ∉ s

/-- Whether some script of the delegate does more than to return. -/
def Delegate.Panics (d : Delegate σ) : Prop := ∃ s ∈ d.scripts, s ≠ []

/-- What comes after a passage in an operation of the top, in the state `s`. -/
inductive Ending.Closes (d : Delegate σ) (a : Activity) (s : State σ) :
    Ending σ → History σ → Prop where
  | answered (x : Answer σ) : Closes d a s (.answer x) [.finished a x s]
  | returned (args : σ.Arguments) :
      Closes d a s (.call args) [.finished a (.flag true) s, .returned a]
  | panicked (args : σ.Arguments) (panics : d.Panics) : Closes d a s (.call args) [.panicked]

def Entry.call? : Entry σ → Option σ.Arguments
  | call args => some args
  | _ => none

/-- The arguments of the calls in the log of an operation. -/
def Report.calls (rep : Report σ) : List σ.Arguments := rep.log.filterMap Entry.call?

/-- An operation of the top was answered `x` and called nothing. -/
structure Report.Answers (rep : Report σ) (x : Answer σ) : Prop where
  outcome : rep.outcome = .answered x
  calls : rep.calls = []

/-- An operation of the top called the delegate once. It was answered `true`, or the delegate
panicked. -/
structure Report.Calls (rep : Report σ) (d : Delegate σ) (args : σ.Arguments) : Prop where
  outcome : rep.outcome = .answered (.flag true) ∨ rep.outcome = .panicked ∧ d.Panics
  calls : rep.calls = [args]

/-- What a report shows of an ending. -/
def Ending.Shown (d : Delegate σ) (rep : Report σ) : Ending σ → Prop
  | answer x => rep.Answers x
  | call args => rep.Calls d args

/-- Before its end a passage calls nothing. -/
theorem Passage.uncalled {δ : Type} {g : Gate σ δ} {a : Activity} {s s' : State σ} {op : Operation σ}
    {new : History σ} {e : Ending σ} (passage : Passage g a s op new s' e) :
    new.log.filterMap Entry.call? = [] := by
  obtain ⟨course, rfl, hinner⟩ := passage.begins
  refine List.filterMap_eq_nil_iff.2 fun x hx => ?_
  obtain ⟨m, hm, hx⟩ := List.mem_filterMap.1 hx
  rcases List.mem_append.1 (List.mem_reverse.1 hm) with hm | hm
  · have hm := hinner m hm
    cases m with
    | emitted e heard s => cases heard <;> cases hx; rfl
    | changed a c s => cases hx
    | _ => cases hm
  · obtain rfl := List.mem_singleton.1 hm
    cases hx

theorem Ending.Closes.shown {d : Delegate σ} {id : Nat} {s : State σ} {e : Ending σ}
    {closing new : History σ} (h : e.Closes d ⟨id, .top⟩ s closing)
    (hnew : new.log.filterMap Entry.call? = []) {before after : Run σ}
    (hhistory : after.history = closing ++ (e.moments ⟨id, .top⟩ ++ (new ++ before.history))) :
    e.Shown d (Run.report before after) := by
  have hsince : after.since before = closing ++ (e.moments ⟨id, .top⟩ ++ new) := by
    refine Run.since_eq (hhistory.trans ?_)
    rw [List.append_assoc, List.append_assoc]
  have hcalls : (Run.report before after).calls =
      (History.log (closing ++ e.moments ⟨id, .top⟩)).filterMap Entry.call? := by
    unfold Report.calls Run.report
    rw [hsince, ← List.append_assoc, History.log_append, List.filterMap_append, hnew, List.nil_append]
  have houtcome : (Run.report before after).outcome = after.outcome := rfl
  unfold Run.outcome at houtcome
  rw [hhistory] at houtcome
  cases h with
  | answered x => exact ⟨houtcome, hcalls⟩
  | returned args => exact ⟨.inl houtcome, hcalls⟩
  | panicked args panics => exact ⟨.inr ⟨houtcome, panics⟩, hcalls⟩

namespace Run

/-- A run between two operations of the top, where nobody acts on the gate but the top. -/
structure Secluded (d : Delegate σ) (r : Run σ) : Prop where
  undisturbed : r.Undisturbed
  calm : r.unwinding = false
  scripts : ∀ s ∈ r.scripts, s ∈ d.scripts

variable {δ : Type} {g : Gate σ δ} {d : Delegate σ}

/-- What the delegate does when it is called: it returns or panics. -/
theorem script_cases (hd : d.Aloof) {r : Run σ} (hr : ∀ s ∈ r.scripts, s ∈ d.scripts) :
    Agenda.ofScript (r.scripts.headD []) = [] ∨
      d.Panics ∧ ∃ rest, Agenda.ofScript (r.scripts.headD []) = .panic :: rest := by
  cases hs : r.scripts with
  | nil => exact .inl rfl
  | cons s left =>
    have hmem : s ∈ d.scripts := hr s (hs ▸ List.mem_cons_self)
    cases s with
    | nil => exact .inl rfl
    | cons c s =>
      cases c with
      | perform op => exact absurd List.mem_cons_self (hd _ hmem op)
      | panic => exact .inr ⟨⟨_, hmem, List.cons_ne_nil _ _⟩, _, rfl⟩

/-- What is left of an operation of the top after its passage. -/
theorem advance_ending (hd : d.Aloof) {r : Run σ} (hr : r.Secluded d) (a : Activity) (e : Ending σ) :
    ∃ closing, e.Closes d a r.state closing ∧
      (advance g (e.tasks a) r).history = closing ++ (e.moments a ++ r.history) ∧
      (advance g (e.tasks a) r).state = r.state ∧
      ∀ s ∈ (advance g (e.tasks a) r).scripts, s ∈ d.scripts := by
  cases e with
  | answer x =>
    rw [Ending.tasks, advance_finish hr.calm]
    exact ⟨_, .answered x, rfl, rfl, hr.scripts⟩
  | call args =>
    let q : Run σ := { r.note (.called a args) with scripts := r.scripts.tail }
    have hcalm : q.unwinding = false := hr.calm
    have hscripts : ∀ s ∈ q.scripts, s ∈ d.scripts := fun s hs => hr.scripts s (List.mem_of_mem_tail hs)
    have hcall : advance g (Ending.tasks a (.call args)) r =
        advance g (Agenda.ofScript (r.scripts.headD []) ++ [.leave a] ++ [.finish a (.flag true)]) q := by
      rw [Ending.tasks, advance_cons, Task.step_call_eq hr.calm]
    rw [hcall]
    rcases script_cases hd hr.scripts with hs | ⟨hpanics, rest, hs⟩
    · have hreturn : advance g ([] ++ [.leave a] ++ [.finish a (.flag true)]) q =
          (q.note (.returned a)).note (.finished a (.flag true) r.state) := by
        change advance g (.leave a :: [.finish a (.flag true)]) q = _
        have hcalm' : (q.note (.returned a)).unwinding = false := hcalm
        rw [advance_cons, Task.step_leave hcalm, List.nil_append, advance_finish hcalm']
        rfl
      rw [hs, hreturn]
      exact ⟨_, .returned args, rfl, rfl, hscripts⟩
    · have hpanic : advance g (.panic :: rest ++ [.leave a] ++ [.finish a (.flag true)]) q =
          { q.note .panicked with unwinding := true } := by
        rw [List.cons_append, List.cons_append, advance_cons, Task.step_panic hcalm]
        exact advance_of_unwinding rfl _
      rw [hs, hpanic]
      exact ⟨_, .panicked args hpanics, rfl, rfl, hscripts⟩

/-- An operation of the top, where nobody else acts on the gate: its passage, its report, and the run
after it. -/
theorem perform_secluded (hd : d.Aloof) {r : Run σ} (hr : r.Secluded d) (op : Operation σ) :
    ∃ a new s e, Passage g a r.state op new s e ∧ e.Shown d (report r (perform g r op)) ∧
      (perform g r op).state = s ∧ (perform g r op).Secluded d := by
  obtain ⟨q, new, s, e, hpassage, hpassed, hadvance⟩ :=
    advance_passage (g := g) hr.undisturbed hr.calm .top op []
  have hq : q.Secluded d := ⟨hpassed.undisturbed, hpassed.calm, hpassed.scripts ▸ hr.scripts⟩
  obtain ⟨closing, hcloses, hhistory, hstate, hscripts⟩ := advance_ending (g := g) hd hq ⟨r.begun, .top⟩ e
  rw [List.append_nil] at hadvance
  rw [← hadvance] at hhistory hstate hscripts
  rw [hpassed.history] at hhistory
  rw [hpassed.state] at hstate hcloses
  exact ⟨_, new, s, e, hpassage, hcloses.shown hpassage.uncalled hhistory, hstate,
    hr.undisturbed.perform op, rfl, hscripts⟩

theorem secluded_performAll (hd : d.Aloof) {r : Run σ} (hr : r.Secluded d) (ops : List (Operation σ)) :
    (performAll g r ops).Secluded d := by
  induction ops generalizing r with
  | nil => exact hr
  | cons op ops ih =>
    obtain ⟨a, new, s, e, -, -, -, hop⟩ := perform_secluded (g := g) hd hr op
    exact ih hop

/-- A fresh gate without a delegate calls nothing, so any delegate will do for it. -/
theorem secluded_start (g : Gate σ (Delegate σ)) (dispatch : Dispatch) :
    (start g [] dispatch).Secluded (g.delegate.getD ⟨[]⟩) := by
  refine ⟨undisturbed_start g dispatch, rfl, fun s hs => ?_⟩
  unfold start at hs
  cases hg : g.delegate with
  | none =>
    rw [hg] at hs
    cases hs
  | some d =>
    rw [hg] at hs
    exact hs

/-- The report of an operation in a list of them. -/
theorem reports_getElem? (g : Gate σ δ) (r : Run σ) (ops : List (Operation σ)) (op : Operation σ)
    (rest : List (Operation σ)) :
    (reports g r (ops ++ op :: rest))[ops.length]? =
      some (report (performAll g r ops) (perform g (performAll g r ops) op)) := by
  induction ops generalizing r with
  | nil => rfl
  | cons first ops ih => exact ih (perform g r first)

end Run

end SlotGate
