import SlotGate.Proofs.Consumption
import SlotGate.Proofs.OpenCalls

/-!
# What a panic of the delegate leaves behind

A panic comes between two operations of a script. Nothing that was done is undone, and what unwinding
skips would not have changed the gate: behind every open call only its return and an answer are left.
So the operation of the top ends as if the delegate that panics had returned there, and every delegate
further out after the operation that it was in.
-/
namespace SlotGate

variable {σ : Signature} {δ : Type}

/-- Scripts of which some are cut off: one that panics before its panic, and `n - 1` before it in the
list behind an operation. All others are as they were. -/
inductive CutOff : Nat → List (Script σ) → List (Script σ) → Prop where
  | panicking (before : List (Operation σ)) (after : Script σ) (later : List (Script σ)) :
      CutOff 1 ((before.map .perform ++ .panic :: after) :: later) (before.map .perform :: later)
  | calling {n : Nat} {scripts cut : List (Script σ)} (before : List (Operation σ)) (op : Operation σ)
      (after : Script σ) (h : CutOff n scripts cut) :
      CutOff (n + 1) ((before.map .perform ++ .perform op :: after) :: scripts)
        ((before.map .perform ++ [.perform op]) :: cut)
  | returning {n : Nat} {scripts cut : List (Script σ)} (s : Script σ) (h : CutOff n scripts cut) :
      CutOff n (s :: scripts) (s :: cut)

instance Moment.decidableEqPanicked : (m : Moment σ) → Decidable (m = .panicked)
  | .panicked => isTrue rfl
  | .began .. | .changed .. | .emitted .. | .called .. | .returned _ | .finished .. => isFalse nofun

instance History.decidablePanickedMem (h : History σ) : Decidable (.panicked ∈ h) :=
  decidable_of_iff (∃ m ∈ h, m = .panicked) exists_eq_right

def Run.withScripts (r : Run σ) (scripts : List (Script σ)) : Run σ := { r with scripts := scripts }

namespace Task

variable {g : Gate σ δ} {r : Run σ} {t : Task σ}

/-- Only a call looks at the scripts. -/
theorem step_withScripts (hr : r.Undisturbed) (ht : ∀ a args, t ≠ call a args)
    (scripts : List (Script σ)) :
    t.step g (r.withScripts scripts) = ((t.step g r).1, (t.step g r).2.withScripts scripts) := by
  have hr' : (r.withScripts scripts).Undisturbed := ⟨hr.reactions, hr.reacting, hr.met⟩
  cases hu : r.unwinding with
  | true =>
    have hu' : (r.withScripts scripts).unwinding = true := hu
    rw [step_of_unwinding hu, step_of_unwinding hu']
  | false =>
    have hu' : (r.withScripts scripts).unwinding = false := hu
    unfold step
    rw [if_neg (by rw [hu']; exact Bool.false_ne_true), if_neg (by rw [hu]; exact Bool.false_ne_true)]
    cases t with
    | start caller op =>
      by_cases he : r.state.enabled = true <;> cases op <;>
        simp [startStep, Run.withScripts, Run.change, he]
    | emit e traced =>
      simp only [hr.emitStep, hr'.emitStep]
      cases traced <;> rfl
    | attempt a =>
      simp only [attemptStep, Run.withScripts]
      cases g.decision r.state <;> rfl
    | sweep a =>
      by_cases he : r.state.enabled = true <;> simp [sweepStep, Run.withScripts, Run.change, he]
    | call a args => exact absurd rfl (ht a args)
    | _ => rfl

/-- What follows from a task that is no call is no matter of scripts. -/
theorem not_command_of_mem_step (hr : r.Undisturbed) (ht : ∀ a args, t ≠ call a args) {u : Task σ}
    (hu : u ∈ (t.step g r).1) : u.isCommand = false ∧ u.isLeave = false := by
  cases successor_of_mem_step hu with
  | reaction hx =>
    rw [hr.reactions] at hx
    cases hx
  | script => exact absurd rfl (ht _ _)
  | panic => exact absurd rfl (ht _ _)
  | leave => exact absurd rfl (ht _ _)
  | _ => exact ⟨rfl, rfl⟩

theorem scripts_step (hr : r.Undisturbed) (ht : ∀ a args, t ≠ call a args) :
    (t.step g r).2.scripts = r.scripts := by
  have h := step_withScripts (g := g) hr ht r.scripts
  exact congrArg (fun p => p.2.scripts) h

end Task

namespace Agenda

theorem withoutCommands_eq_self {tasks : Agenda σ} (h : ∀ t ∈ tasks, t.isCommand = false) :
    tasks.withoutCommands = tasks :=
  List.filter_eq_self.2 fun t ht => by rw [h t ht]; rfl

theorem withoutCommands_script (s : Script σ) (a : Activity) (rest : Agenda σ) :
    (ofScript s ++ [Task.leave a] ++ rest).withoutCommands = .leave a :: rest.withoutCommands := by
  rw [withoutCommands_append, withoutCommands_append, withoutCommands_ofScript]
  rfl

theorem countP_leave_script (s : Script σ) (a : Activity) (rest : Agenda σ) :
    (ofScript s ++ [Task.leave a] ++ rest).countP Task.isLeave = 1 + rest.countP Task.isLeave := by
  rw [List.countP_append, List.countP_append, countP_leave_ofScript, Nat.zero_add]
  rfl

/-- What is put in front of an agenda ends within the first part of a cut, or beyond it. -/
theorem append_split {new rest first second : Agenda σ} (h : new ++ rest = first ++ second) :
    (∃ m, first = new ++ m ∧ rest = m ++ second) ∨
      ∃ m, m ≠ [] ∧ new = first ++ m ∧ second = m ++ rest := by
  rcases List.append_eq_append_iff.1 h with hin | ⟨m, hnew, hsecond⟩
  · exact .inl hin
  · cases m with
    | nil => exact .inl ⟨[], by simp [hnew], hsecond.symm⟩
    | cons t m => exact .inr ⟨t :: m, List.cons_ne_nil t m, hnew, hsecond⟩

/-- A script without a panic only performs operations. -/
theorem exists_operations {s : Script σ} (h : .panic ∉ ofScript s) :
    ∃ ops : List (Operation σ), s = ops.map .perform := by
  induction s with
  | nil => exact ⟨[], rfl⟩
  | cons c s ih =>
    cases c with
    | panic => exact absurd List.mem_cons_self h
    | perform op =>
      obtain ⟨ops, rfl⟩ := ih fun hm => h (List.mem_cons_of_mem _ hm)
      exact ⟨op :: ops, rfl⟩

/-- The tasks of a script and its return fall in two within the script, or behind the return. -/
theorem ofScript_split {s : Script σ} {a : Activity} {first second : Agenda σ} (hne : second ≠ [])
    (h : ofScript s ++ [.leave a] = first ++ second) :
    ∃ s₁ s₂, s = s₁ ++ s₂ ∧ first = ofScript s₁ ∧ second = ofScript s₂ ++ [.leave a] := by
  rcases List.append_eq_append_iff.1 h with ⟨m, hfirst, hleave⟩ | ⟨m, hscript, hsecond⟩
  · cases m with
    | nil =>
      rw [List.append_nil] at hfirst
      exact ⟨s, [], (List.append_nil s).symm, hfirst, hleave.symm⟩
    | cons t m =>
      have hnil : second = [] := by
        have hlength := congrArg List.length hleave
        simp only [List.length_append, List.length_cons, List.length_nil] at hlength
        exact List.length_eq_zero_iff.1 (by omega)
      exact absurd hnil hne
  · obtain ⟨s₁, s₂, rfl, rfl, rfl⟩ := List.map_eq_append_iff.1 hscript
    exact ⟨s₁, s₂, rfl, rfl, hsecond⟩

end Agenda

/-- A call finds all slots vacant, so what is set after it has been stored since. -/
theorem History.vacant_at_call {g : Gate σ δ} {events earlier : History σ} {a : Activity}
    {args : σ.Arguments} (hl : Each (Moment.Lawful g) (events ++ .called a args :: earlier))
    (hc : CallsConsume g (events ++ .called a args :: earlier)) :
    (current g earlier).slots = .vacant ∧
      ∀ i, ((current g (events ++ .called a args :: earlier)).slots i).isSet = true →
        ∃ m ∈ events, m.isStoreOf i = true := by
  obtain ⟨full, copied, hconsumed⟩ := each_at hc rfl a args rfl
  have hvacant : (current g earlier).slots = .vacant := hconsumed.vacant (each_before hl rfl)
  refine ⟨hvacant, fun i hi => stored_between hl ?_ hi⟩
  change ((current g earlier).slots i).isSet = false
  rw [hvacant]
  rfl

namespace Run

open Agenda

/-- From `tasks` and `r` a panic comes to `left` and `q`. Either it stands on the agenda, and what comes
before it leads to `q` also without it; or a script asks for it, and then scripts can be cut off so that
the same part of the agenda leads to `q`, with nothing left of the scripts that are under way. -/
inductive CutShort (g : Gate σ δ) (tasks : Agenda σ) (r : Run σ) (left : Agenda σ) (q : Run σ) :
    Prop where
  | onAgenda {first : Agenda σ} (htasks : tasks = first ++ .panic :: left) (hfirst : .panic ∉ first)
      (h : CalmPath g (first ++ left.withoutCommands) r left.withoutCommands q)
  | inScript {first rest : Agenda σ} {n : Nat} {cut : List (Script σ)} (htasks : tasks = first ++ rest)
      (hne : first ≠ []) (hfirst : .panic ∉ first) (hcut : CutOff n r.scripts cut)
      (hcount : left.countP Task.isLeave = n + rest.countP Task.isLeave)
      (h : CalmPath g (first ++ rest.withoutCommands) (r.withScripts cut) left.withoutCommands q)

variable {g : Gate σ δ} {t : Task σ} {rest left : Agenda σ} {r q : Run σ}

/-- What comes in front of an agenda without a panic in the part that is kept. -/
theorem CutShort.of_onAgenda {first m : Agenda σ} (hu : r.unwinding = false) (hpanic : t ≠ .panic)
    (hfirst : .panic ∉ first) (h : CalmPath g (first ++ left.withoutCommands) (t.step g r).2
      left.withoutCommands q)
    (hnew : first = (t.step g r).1 ++ m) (hrest : rest = m ++ .panic :: left) :
    CutShort g (t :: rest) r left q := by
  subst hnew hrest
  rw [List.append_assoc] at h
  have hkept : .panic ∉ m := fun hm => hfirst (List.mem_append_right _ hm)
  exact .onAgenda (List.cons_append ..).symm (List.not_mem_cons_of_ne_of_not_mem hpanic.symm hkept)
    (.task hu hpanic h)

/-- A task that is no call, in front of what is cut short. -/
theorem CutShort.of_task (hr : r.Undisturbed) (hu : r.unwinding = false) (hpanic : t ≠ .panic)
    (ht : ∀ a args, t ≠ .call a args)
    (h : CutShort g ((t.step g r).1 ++ rest) (t.step g r).2 left q) :
    CutShort g (t :: rest) r left q := by
  have hquiet {u : Task σ} (hm : u ∈ (t.step g r).1) := Task.not_command_of_mem_step hr ht hm
  cases h with
  | @onAgenda first htasks hfirst h =>
    rcases append_split htasks with ⟨m, hnew, hrest⟩ | ⟨m, hne, hnew, hrest⟩
    · exact .of_onAgenda hu hpanic hfirst h hnew hrest
    · obtain ⟨u, m, rfl⟩ := List.exists_cons_of_ne_nil hne
      obtain ⟨rfl, -⟩ := List.cons.inj hrest
      have hcommand := (hquiet (hnew ▸ List.mem_append_right _ List.mem_cons_self)).1
      cases hcommand
  | @inScript first rest' n cut htasks hne hfirst hcut hcount h =>
    have hcut' : CutOff n r.scripts cut := Task.scripts_step (g := g) hr ht ▸ hcut
    have hstep := Task.step_withScripts (g := g) hr ht cut
    have hcalm : (r.withScripts cut).unwinding = false := hu
    rcases append_split htasks with ⟨m, hnew, hrest⟩ | ⟨m, -, hnew, hrest⟩
    · subst hnew hrest
      rw [List.append_assoc] at h
      have hkept : .panic ∉ m := fun hm => hfirst (List.mem_append_right _ hm)
      exact .inScript (List.cons_append ..).symm (List.cons_ne_nil _ _)
        (List.not_mem_cons_of_ne_of_not_mem hpanic.symm hkept) hcut' hcount
        (.task hcalm hpanic (by rw [hstep]; exact h))
    · have hm {u : Task σ} (hu : u ∈ m) := hquiet (hnew ▸ List.mem_append_right first hu)
      have hleave : m.countP Task.isLeave = 0 :=
        List.countP_eq_zero.2 fun u hu => by rw [(hm hu).2]; exact Bool.false_ne_true
      subst hrest
      rw [List.countP_append, hleave, Nat.zero_add] at hcount
      rw [withoutCommands_append, withoutCommands_eq_self fun u hu => (hm hu).1,
        ← List.append_assoc, ← hnew] at h
      refine .inScript (List.singleton_append).symm (List.cons_ne_nil _ _) (fun hm => ?_) hcut' hcount
        (.task hcalm hpanic (by rw [hstep]; exact h))
      exact hpanic (List.mem_singleton.1 hm).symm

/-- A call without a script, in front of what is cut short. -/
theorem CutShort.of_call_nil (hu : r.unwinding = false) (hs : r.scripts = []) (a : Activity)
    (args : σ.Arguments) (h : CutShort g (.leave a :: rest) (r.note (.called a args)) left q) :
    CutShort g (.call a args :: rest) r left q := by
  have hstep := Task.step_call_nil (g := g) hu hs a args
  cases h with
  | @onAgenda first htasks hfirst h =>
    have htasks' : [.leave a] ++ rest = first ++ .panic :: left := htasks
    rcases append_split htasks' with ⟨m, hnew, hrest⟩ | ⟨m, hne, hnew, hrest⟩
    · exact .of_onAgenda hu (by simp) hfirst (by rwa [hstep]) (by rwa [hstep]) hrest
    · obtain ⟨u, m, rfl⟩ := List.exists_cons_of_ne_nil hne
      obtain ⟨rfl, -⟩ := List.cons.inj hrest
      have hmem : .panic ∈ [Task.leave (σ := σ) a] := hnew ▸ List.mem_append_right _ List.mem_cons_self
      cases List.mem_singleton.1 hmem
  | inScript _ _ _ hcut =>
    have hscripts : (r.note (.called a args)).scripts = [] := hs
    rw [hscripts] at hcut
    cases hcut

/-- A call takes the script in front, whichever it is. -/
theorem CalmPath.of_call (hu : r.unwinding = false) {s : Script σ} {scripts : List (Script σ)}
    {a : Activity} {args : σ.Arguments} {tasks tasks' : Agenda σ}
    (h : CalmPath g (ofScript s ++ [.leave a] ++ tasks)
      { r.note (.called a args) with scripts := scripts } tasks' q) :
    CalmPath g (.call a args :: tasks) (r.withScripts (s :: scripts)) tasks' q := by
  have hcalm : (r.withScripts (s :: scripts)).unwinding = false := hu
  have hstep := Task.step_call_cons (g := g) hcalm rfl a args
  refine .task hcalm (by simp) ?_
  rw [hstep]
  exact h

/-- The call whose script asks for the panic. The script is cut off at it. -/
theorem CutShort.of_panicking (hu : r.unwinding = false) {s : Script σ} {scripts : List (Script σ)}
    (hs : r.scripts = s :: scripts) {a : Activity} {args : σ.Arguments} {first second : Agenda σ}
    (hsecond : second ≠ []) (hsplit : ofScript s ++ [.leave a] = first ++ second)
    (hrest : .panic :: left = second ++ rest) (hfirst : .panic ∉ first)
    (h : CalmPath g (first ++ left.withoutCommands)
      { r.note (.called a args) with scripts := scripts } left.withoutCommands q) :
    CutShort g (.call a args :: rest) r left q := by
  obtain ⟨s₁, s₂, rfl, rfl, rfl⟩ := ofScript_split hsecond hsplit
  obtain ⟨before, rfl⟩ := exists_operations hfirst
  cases s₂ with
  | nil => cases hrest
  | cons c after =>
    cases c with
    | perform op => cases hrest
    | panic =>
      have hleft : left = ofScript after ++ [Task.leave a] ++ rest := (List.cons.inj hrest).2
      subst hleft
      have hcount := countP_leave_script after a rest
      rw [withoutCommands_script] at h
      have hcut : CutOff 1 r.scripts (before.map .perform :: scripts) := by
        rw [hs]
        exact .panicking before after scripts
      refine .inScript List.singleton_append.symm (List.cons_ne_nil _ _) (by simp) hcut hcount ?_
      rw [withoutCommands_script]
      refine .of_call hu ?_
      rw [List.append_assoc]
      exact h

/-- A call whose script asks for the operation that the panic comes out of. The script is cut off
behind that operation. -/
theorem CutShort.of_calling (hu : r.unwinding = false) {s : Script σ} {scripts cut : List (Script σ)}
    (hs : r.scripts = s :: scripts) {a : Activity} {args : σ.Arguments} {first second rest' : Agenda σ}
    {n : Nat} (hne : first ≠ []) (hsecond : second ≠ [])
    (hsplit : ofScript s ++ [.leave a] = first ++ second) (hrest : rest' = second ++ rest)
    (hfirst : .panic ∉ first) (hcut : CutOff n scripts cut)
    (hcount : left.countP Task.isLeave = n + rest'.countP Task.isLeave)
    (h : CalmPath g (first ++ rest'.withoutCommands) { r.note (.called a args) with scripts := cut }
      left.withoutCommands q) :
    CutShort g (.call a args :: rest) r left q := by
  obtain ⟨s₁, s₂, rfl, rfl, rfl⟩ := ofScript_split hsecond hsplit
  obtain ⟨ops, rfl⟩ := exists_operations hfirst
  obtain ⟨before, op, rfl⟩ : ∃ before op, ops = before ++ [op] := by
    rcases List.eq_nil_or_concat ops with rfl | ⟨before, op, rfl⟩
    · exact absurd rfl hne
    · exact ⟨before, op, List.concat_eq_append⟩
  subst hrest
  have hcut' : CutOff (n + 1) r.scripts ((before.map .perform ++ [.perform op]) :: cut) := by
    have hcalling := CutOff.calling before op s₂ hcut
    rw [hs]
    simpa using hcalling
  rw [countP_leave_script, Nat.add_comm 1, ← Nat.add_assoc, Nat.add_right_comm] at hcount
  rw [withoutCommands_script] at h
  refine .inScript List.singleton_append.symm (List.cons_ne_nil _ _) (by simp) hcut' hcount (.of_call hu ?_)
  rw [List.append_assoc]
  rw [List.map_append] at h
  exact h

/-- A call with a script, in front of what is cut short. -/
theorem CutShort.of_call_cons (hu : r.unwinding = false) {s : Script σ} {scripts : List (Script σ)}
    (hs : r.scripts = s :: scripts) (a : Activity) (args : σ.Arguments)
    (h : CutShort g ((ofScript s ++ [.leave a]) ++ rest)
      { r.note (.called a args) with scripts := scripts } left q) :
    CutShort g (.call a args :: rest) r left q := by
  have hstep := Task.step_call_cons (g := g) hu hs a args
  have hpanic : Task.call a args ≠ .panic := by simp
  cases h with
  | @onAgenda first htasks hfirst h =>
    rcases append_split htasks with ⟨m, hnew, hrest⟩ | ⟨second, hne, hnew, hrest⟩
    · exact .of_onAgenda hu hpanic hfirst (by rwa [hstep]) (by rwa [hstep]) hrest
    · exact .of_panicking hu hs hne hnew hrest hfirst h
  | @inScript first rest' n cut htasks hne hfirst hcut hcount h =>
    rcases append_split htasks with ⟨m, hnew, hrest⟩ | ⟨second, hsecond, hnew, hrest⟩
    · subst hnew hrest
      rw [List.append_assoc] at h
      have hkept : .panic ∉ m := fun hm => hfirst (List.mem_append_right _ hm)
      exact .inScript (List.cons_append ..).symm (List.cons_ne_nil _ _)
        (List.not_mem_cons_of_ne_of_not_mem hpanic.symm hkept) (hs ▸ .returning s hcut) hcount
        (.of_call hu h)
    · exact .of_calling hu hs hne hsecond hnew hrest hfirst hcut hcount h

/-- Wherever a run comes to a panic, it can be cut short. -/
theorem CalmPath.cutShort {tasks : Agenda σ} (hpath : CalmPath g tasks r (.panic :: left) q)
    (hr : r.Undisturbed) : CutShort g tasks r left q := by
  generalize hend : .panic :: left = tasks' at hpath
  induction hpath with
  | here tasks r =>
    subst hend
    exact .onAgenda (List.nil_append _).symm List.not_mem_nil (.here _ r)
  | @task t rest tasks' r q calm ht _ ih =>
    have h := ih (hr.step t) hend
    cases t with
    | call a args =>
      cases hs : r.scripts with
      | nil =>
        rw [Task.step_call_nil calm hs] at h
        exact .of_call_nil calm hs a args h
      | cons s scripts =>
        rw [Task.step_call_cons calm hs] at h
        exact .of_call_cons calm hs a args h
    | _ => exact .of_task hr calm ht (by simp) h

/-- An operation of the top, from `r` to `after`, that a panic of the delegate ends. Until the panic it
came to the moments `before`, and `cut` are the scripts with the delegate that panics cut off at the
panic and each delegate further out cut off after the operation that it was in. -/
structure Interrupted (g : Gate σ (Delegate σ)) (r : Run σ) (op : Operation σ) (after : Run σ)
    (before : History σ) (cut : List (Script σ)) : Prop where
  /-- Nothing comes after the panic. -/
  history : after.history = .panicked :: (before ++ r.history)
  outcome : after.outcome = .panicked
  /-- The latest operation of the delegate that panics has just been answered, in the state that the
  panic leaves, or the delegate has just been called. -/
  resting : before.Resting after.state
  /-- Every section until then has its effect, and the panic has none. -/
  state : after.state = History.current g (before ++ r.history)
  cutOff : CutOff before.openCalls.length r.scripts cut
  /-- The same operation with the scripts cut off goes the same way, and then its calls just return. -/
  truncated : perform g (r.withScripts cut) op =
    { after with history := History.closing before.openCalls after.state ++ (before ++ r.history) }
  log : ((perform g (r.withScripts cut) op).since r).log =
    (after.since r).log ++ Entry.closing before.openCalls.length
  /-- What comes after the panic depends on the state and on the scripts that are left, and on nothing
  that has happened to the gate. -/
  later : ∀ (ops : List (Operation σ)) (dispatch : Dispatch),
    reports g after ops = reports g (perform g (r.withScripts cut) op) ops ∧
      reports g after ops =
        reports g { start g [] dispatch with state := after.state, scripts := after.scripts } ops
  /-- What a one-shot gate has handed over is gone: a slot is set only if it was stored again. -/
  oneShot : g.settings.oneShot = true → ∀ (events earlier : History σ) (a : Activity)
    (args : σ.Arguments), before = events ++ .called a args :: earlier →
      (History.current g (earlier ++ r.history)).slots = .vacant ∧
        ∀ i, (after.state.slots i).isSet = true → ∃ m ∈ events, m.isStoreOf i = true

/-- An operation of the top comes from `r` to a panic at `q`, where it has added the moments `before`.
With the scripts cut off it comes to `q` as well, and has nothing left there but the returns of its
calls. -/
structure PanicsAt (g : Gate σ δ) (r : Run σ) (op : Operation σ) (q : Run σ) (before : History σ)
    (cut : List (Script σ)) : Prop where
  calm : q.unwinding = false
  ends : perform g r op = (q.note .panicked).settled
  history : q.history = before ++ r.history
  resting : before.Resting q.state
  behind : ∃ left : Agenda σ, Behind before.openCalls left
  cutOff : CutOff before.openCalls.length r.scripts cut
  path : CalmPath g [.start .top op] (r.withScripts cut) (Agenda.closing before.openCalls) q

theorem panicsAt_of_path {op : Operation σ} (hpath : CalmPath g [.start .top op] r (.panic :: left) q)
    (he : advance g [.start .top op] r = { q.note .panicked with unwinding := true })
    (hr : r.Undisturbed) (hu : r.unwinding = false) :
    ∃ (before : History σ) (cut : List (Script σ)), PanicsAt g r op q before cut := by
  have hstart : Stacked r.state [] [.start .top op] := .within (.start op) .top
  obtain ⟨before, hbefore, hstacked⟩ := hpath.stacked hr hstart
  rw [List.append_nil] at hstacked
  obtain ⟨hresting, hbehind⟩ := hstacked.at_panic
  obtain ⟨hclosing, hlength⟩ := hbehind.closing
  have hclosing : left.withoutCommands = Agenda.closing before.openCalls := hclosing
  have hlength : left.countP Task.isLeave = before.openCalls.length := hlength
  have hends : perform g r op = (q.note .panicked).settled := by
    unfold perform
    rw [he]
    rfl
  cases hpath.cutShort hr with
  | @onAgenda first htasks =>
    cases first with
    | nil => cases htasks
    | cons t first => exact absurd (List.cons.inj htasks).2 (by simp)
  | @inScript first rest n cut htasks hne _ hcut hcount h =>
    obtain ⟨t, first, rfl⟩ := List.exists_cons_of_ne_nil hne
    obtain ⟨rfl, hrest⟩ := List.cons.inj htasks
    obtain ⟨rfl, rfl⟩ := List.append_eq_nil_iff.1 hrest.symm
    obtain rfl : before.openCalls.length = n := hlength.symm.trans hcount
    rw [hclosing] at h
    exact ⟨before, cut, hpath.calm hu, hends, hbefore, hresting, ⟨_, hbehind⟩, hcut, h⟩

namespace PanicsAt

variable {op : Operation σ} {before : History σ} {cut : List (Script σ)}

theorem state_perform (h : PanicsAt g r op q before cut) : (perform g r op).state = q.state := by
  rw [h.ends]
  rfl

theorem history_perform (h : PanicsAt g r op q before cut) :
    (perform g r op).history = .panicked :: (before ++ r.history) := by
  rw [h.ends, ← h.history]
  rfl

/-- With the scripts cut off the calls just return from where the panic was. -/
theorem perform_cut (h : PanicsAt g r op q before cut) :
    perform g (r.withScripts cut) op = { perform g r op with
      history := History.closing before.openCalls (perform g r op).state ++
        (before ++ r.history) } := by
  rw [h.state_perform, h.ends]
  unfold perform
  rw [h.path.advance, advance_closing _ h.calm, h.history]
  rfl

theorem log_cut (h : PanicsAt g r op q before cut) :
    ((perform g (r.withScripts cut) op).since r).log =
      ((perform g r op).since r).log ++ Entry.closing before.openCalls.length := by
  have hsince : (perform g r op).since r = .panicked :: before := since_eq h.history_perform
  have hcutSince : (perform g (r.withScripts cut) op).since r =
      History.closing before.openCalls (perform g r op).state ++ before := by
    refine since_eq ?_
    rw [h.perform_cut, List.append_assoc]
  obtain ⟨left, hbehind⟩ := h.behind
  have hquiet : History.log (.panicked :: before) = before.log ++ [] :=
    History.log_append [.panicked] before
  rw [hsince, hcutSince, History.log_append, hbehind.log_closing, hquiet, List.append_nil]

theorem resembles_cut (h : PanicsAt g r op q before cut) (hr : r.Undisturbed) :
    (perform g r op).Resembles (perform g (r.withScripts cut) op) := by
  have hafter : (perform g r op).Undisturbed := hr.perform op
  rw [h.perform_cut]
  exact ⟨rfl, rfl, rfl, hafter, hafter.reactions, hafter.reacting, hafter.met⟩

/-- On a one-shot gate a call finds all slots vacant. What is set at the panic was stored after it. -/
theorem isStoreOf_of_oneShot (h : PanicsAt g r op q before cut)
    (hordered : Orderly g [] (perform g r op)) {events earlier : History σ} {a : Activity}
    {args : σ.Arguments} (hsplit : before = events ++ .called a args :: earlier) :
    (History.current g (earlier ++ r.history)).slots = .vacant ∧
      ∀ i, ((perform g r op).state.slots i).isSet = true → ∃ m ∈ events, m.isStoreOf i = true := by
  have hall : before ++ r.history = events ++ .called a args :: (earlier ++ r.history) := by
    rw [hsplit, List.append_assoc]
    rfl
  have hcalls := hordered.calls
  have hlawful := hordered.recorded.lawful
  rw [h.history_perform, hall] at hcalls hlawful
  rw [hordered.recorded.state, h.history_perform, hall]
  exact History.vacant_at_call hlawful.2 hcalls.2

end PanicsAt

/-- A panicking delegate leaves the gate where it was, at whatever depth of calls it panics. -/
theorem panic_leaves_gate_where_it_was (g : Gate σ (Delegate σ)) (dispatch : Dispatch)
    (earlier : List (Operation σ)) (op : Operation σ) :
    let r := performAll g (start g [] dispatch) earlier
    .panicked ∈ (perform g r op).since r →
      ∃ (before : History σ) (cut : List (Script σ)),
        Interrupted g r op (perform g r op) before cut := by
  intro r hpanicked
  have hr : r.Undisturbed := (undisturbed_start g dispatch).performAll earlier
  have hu : r.unwinding = false := performAll_calm rfl earlier
  have hlast : performAll g (start g [] dispatch) (earlier ++ [op]) = perform g r op :=
    List.foldl_append
  rcases advance_cases (g := g) [.start .top op] hu with hpath | ⟨left, q, hpath, he⟩
  · obtain ⟨new, hnew, hno⟩ := hpath.history
    have hsince : (perform g r op).since r = new := since_eq hnew
    exact absurd (hsince ▸ hpanicked) hno
  obtain ⟨before, cut, h⟩ := panicsAt_of_path hpath he hr hu
  refine ⟨before, cut, ?_⟩
  constructor
  case history => exact h.history_perform
  case outcome =>
    unfold Run.outcome
    rw [h.history_perform]
  case resting =>
    rw [h.state_perform]
    exact h.resting
  case state =>
    have hrecorded := recorded_performAll g [] dispatch (earlier ++ [op])
    rw [hlast] at hrecorded
    rw [hrecorded.state, h.history_perform]
    rfl
  case cutOff => exact h.cutOff
  case truncated => exact h.perform_cut
  case log => exact h.log_cut
  case later =>
    intro ops dispatch'
    have hafter : (perform g r op).Undisturbed := hr.perform op
    refine ⟨(h.resembles_cut hr).reports rfl ops, Resembles.reports ?_ rfl ops⟩
    exact ⟨rfl, rfl, rfl, hafter, rfl, rfl, (undisturbed_start g dispatch').met⟩
  case oneShot =>
    intro hone events early a args hsplit
    have hordered := orderly_performAll hone dispatch (earlier ++ [op])
    rw [hlast] at hordered
    exact h.isStoreOf_of_oneShot hordered hsplit

/-- The delegate fills a one-shot gate again in its first call, and panics in the one within it, with
one slot stored for the third time. -/
theorem panic_leaves_gate_where_it_was_within_refill :
    let g := Gate.flags { oneShot := true }
      [[.perform (.assign Gate.left true), .perform (.set Gate.right false), .perform .clear],
        [.perform (.assign Gate.left false), .panic, .perform .clear]]
    let r := performAll g (start g [] (.registering [])) [.assign Gate.left true]
    let after := perform g r (.set Gate.right true)
    .panicked ∈ after.since r ∧ (after.since r).countP Moment.isCall = 2 ∧
      (after.state.slots Gate.left).isSet = true ∧
      ∃ before cut, Interrupted g r (.set Gate.right true) after before cut := by
  intro g r after
  have hpanicked : .panicked ∈ after.since r := by decide +kernel
  refine ⟨hpanicked, by decide +kernel, by decide +kernel, ?_⟩
  exact panic_leaves_gate_where_it_was g _ [.assign Gate.left true] (.set Gate.right true) hpanicked

end Run

end SlotGate
