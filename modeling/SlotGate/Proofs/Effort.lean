import Mathlib.Data.List.Perm.Subperm
import SlotGate.Proofs.Accounts
import SlotGate.Proofs.Delivery

/-!
# The effort of a run

Sets and fires call the delegate, the delegate and the subscriber ask for sets and fires in turn, and no
depth is set to this. What bounds it is that scripts and reactions are used up. For operations of any kind,
those that have begun, those that are on the agenda and those that scripts and reactions can still ask for
balance, whatever is done; only a panic takes some away. And an operation calls once at most itself.
-/
namespace SlotGate

-- the zero from which the sums in the stock of a run start
attribute [local instance (high)] Zero.ofOfNat0

variable {σ : Signature} {δ : Type}

/-! ## What is requested -/

/-- Whether a step of a script asks for an operation of this kind. -/
def Command.asks (kind : Operation σ → Bool) : Command σ → Bool
  | perform op => kind op
  | panic => false

/-- How many operations of a kind there are in the operations of the top, the scripts of the delegate and
the reactions of the subscriber. -/
def Gate.requests (g : Gate σ (Delegate σ)) (reactions : List (Reaction σ)) (ops : List (Operation σ))
    (kind : Operation σ → Bool) : Nat :=
  ops.countP kind +
    (((g.delegate.map Delegate.scripts).getD []).map (List.countP (Command.asks kind))).sum +
      (reactions.map fun x => x.operations.countP kind).sum

/-- How many operations of a kind have begun. -/
def History.begun (kind : Operation σ → Bool) (h : History σ) : Nat :=
  h.operations.countP fun p => kind p.2

namespace Task

/-- One for a task that begins an operation of this kind. -/
def begins (kind : Operation σ → Bool) : Task σ → Nat
  | start _ op => if kind op then 1 else 0
  | emit .. | attempt _ | sweep _ | call .. | leave _ | finish .. | listen | panic => 0

end Task

namespace Agenda

variable {kind : Operation σ → Bool}

theorem sum_begins_ofScript (s : Script σ) :
    ((ofScript s).map (Task.begins kind)).sum = s.countP (Command.asks kind) := by
  induction s with
  | nil => rfl
  | cons c s ih =>
    rw [ofScript, List.map_cons, List.map_cons, List.sum_cons, List.countP_cons, Nat.add_comm]
    refine congrArg₂ _ ih ?_
    cases c <;> rfl

theorem sum_begins_ofReaction (x : Reaction σ) :
    ((ofReaction x).map (Task.begins kind)).sum = x.operations.countP kind := by
  rw [ofReaction, List.map_append, List.sum_append_nat]
  induction x.operations with
  | nil => rfl
  | cons op ops ih =>
    rw [List.map_cons, List.map_cons, List.sum_cons, List.countP_cons, Nat.add_assoc, ih, Nat.add_comm]
    rfl

end Agenda

theorem Run.stock_start (g : Gate σ (Delegate σ)) (reactions : List (Reaction σ)) (dispatch : Dispatch)
    (ops : List (Operation σ)) (kind : Operation σ → Bool) :
    ops.countP kind + (start g reactions dispatch).stock (Task.begins kind) =
      g.requests reactions ops kind := by
  have hscripts : (fun s : Script σ => ((Agenda.ofScript s).map (Task.begins kind)).sum) =
      List.countP (Command.asks kind) := funext Agenda.sum_begins_ofScript
  have hreactions : (fun x : Reaction σ => ((Agenda.ofReaction x).map (Task.begins kind)).sum) =
      fun x => x.operations.countP kind := funext Agenda.sum_begins_ofReaction
  simp only [stock, start, Gate.requests, hscripts, hreactions, Nat.add_assoc]

/-! ## The end of a run -/

/-- `n` tasks, one after the other, work off an agenda. -/
inductive Run.WorksOff (g : Gate σ δ) : Nat → Agenda σ → Run σ → Run σ → Prop where
  | done (r : Run σ) : WorksOff g 0 [] r r
  | task {n : Nat} {t : Task σ} {rest : Agenda σ} {r r' : Run σ}
      (h : WorksOff g n ((t.step g r).1 ++ rest) (t.step g r).2 r') : WorksOff g (n + 1) (t :: rest) r r'

/-- `n` tasks in all work off the operations of the top, each before the next begins. -/
inductive Run.Completes (g : Gate σ δ) : Nat → List (Operation σ) → Run σ → Run σ → Prop where
  | nil (r : Run σ) : Completes g 0 [] r r
  | cons {n m : Nat} {op : Operation σ} {ops : List (Operation σ)} {r r' r'' : Run σ}
      (first : WorksOff g n [.start .top op] r r') (rest : Completes g m ops r'.settled r'') :
      Completes g (n + m) (op :: ops) r r''

namespace Run

theorem worksOff_advance (g : Gate σ δ) (tasks : Agenda σ) (r : Run σ) :
    ∃ n, WorksOff g n tasks r (advance g tasks r) ∧
      n + (advance g tasks r).reserve ≤ tasks.weight + r.reserve := by
  fun_induction advance g tasks r with
  | case1 r => exact ⟨0, .done r, by simp⟩
  | case2 r t rest ih =>
    obtain ⟨n, hworks, hn⟩ := ih
    refine ⟨n + 1, .task hworks, ?_⟩
    have hweight := Task.step_weight g t r
    rw [Agenda.weight_append] at hn
    rw [Agenda.weight_cons]
    omega

theorem completes_performAll (g : Gate σ δ) (r : Run σ) (ops : List (Operation σ)) :
    ∃ n, Completes g n ops r (performAll g r ops) ∧ n + (performAll g r ops).reserve ≤
      9 * ops.length + r.reserve := by
  induction ops generalizing r with
  | nil => exact ⟨0, .nil r, by simp [performAll]⟩
  | cons op ops ih =>
    obtain ⟨n, hworks, hn⟩ := worksOff_advance g [.start .top op] r
    obtain ⟨m, hcompletes, hm⟩ := ih (perform g r op)
    refine ⟨n + m, .cons hworks hcompletes, ?_⟩
    have hsettled : (perform g r op).reserve = (advance g [.start .top op] r).reserve := rfl
    have hstart : Agenda.weight [Task.start .top op] = 9 := rfl
    simp only [performAll, List.foldl_cons, List.length_cons] at hm ⊢
    omega

end Run

/-! ## The balance of operations -/

namespace Task

variable {g : Gate σ δ} {kind : Operation σ → Bool} {r : Run σ} {t : Task σ}

theorem Effect.begun {new : History σ} {s : State σ} (h : Effect r t new s) :
    new.begun kind = t.begins kind := by
  cases h with
  | opened | began =>
    simp only [History.begun, History.operations, List.filterMap_cons, List.filterMap_nil,
      Moment.operation?, List.countP_singleton, begins]
  | _ => rfl

/-- What follows from a task begins no operation unless a script or a reaction asks for it. -/
theorem Successor.begins {u : Task σ} (h : Successor g r t u)
    (ht : (∀ e traced, t ≠ .emit e traced) ∧ ∀ a args, t ≠ .call a args) : u.begins kind = 0 := by
  cases h with
  | reaction => exact absurd rfl (ht.1 _ _)
  | script => exact absurd rfl (ht.2 _ _)
  | _ => rfl

/-- Operations are put on the agenda only from scripts and reactions. -/
theorem step_stock (g : Gate σ δ) (kind : Operation σ → Bool) (hu : r.unwinding = false) (t : Task σ) :
    ((t.step g r).1.map (begins kind)).sum + (t.step g r).2.stock (begins kind) =
      r.stock (begins kind) := by
  have hnone (ht : (∀ e traced, t ≠ emit e traced) ∧ ∀ a args, t ≠ call a args) :
      ((t.step g r).1.map (begins kind)).sum = 0 :=
    List.sum_eq_zero_iff_forall_eq_nat.2
      (List.forall_mem_map.2 fun u hmem => (successor_of_mem_step hmem).begins ht)
  cases t with
  | start caller op =>
    rw [hnone ⟨nofun, nofun⟩, Nat.zero_add, step_start hu, startStep_run]
    cases op.opening r.state <;> rfl
  | attempt a =>
    rw [hnone ⟨nofun, nofun⟩, Nat.zero_add, step_attempt hu, attemptStep_run]
    rfl
  | sweep a =>
    rw [hnone ⟨nofun, nofun⟩, Nat.zero_add, step_sweep hu, sweepStep_run]
    rfl
  | emit e traced =>
    have h := emitStep_stock (begins kind) e traced r
    simpa only [step, hu, Bool.false_eq_true, if_false] using h
  | call a args =>
    have h := callStep_stock (begins kind) a args r
    rw [begins, Nat.zero_add] at h
    simpa only [step, hu, Bool.false_eq_true, if_false] using h
  | leave a => rw [step_leave hu]; exact Nat.zero_add _
  | finish a answer => rw [step_finish hu]; exact Nat.zero_add _
  | panic => rw [step_panic hu]; exact Nat.zero_add _
  | listen => rw [step, if_neg (by simp [hu])]; exact Nat.zero_add _

end Task

namespace Run

/-- The operations of a kind that have begun, that are on the agenda, and that can still be asked for. -/
def balance (kind : Operation σ → Bool) (tasks : Agenda σ) (r : Run σ) : Nat :=
  r.history.begun kind + (tasks.map (Task.begins kind)).sum + r.stock (Task.begins kind)

variable {g : Gate σ δ} {kind : Operation σ → Bool} {r : Run σ} {t : Task σ} {rest : Agenda σ}

theorem balance_step (hu : r.unwinding = false) :
    balance kind ((t.step g r).1 ++ rest) (t.step g r).2 = balance kind (t :: rest) r := by
  obtain ⟨new, s, heffect, -, hnew⟩ := Task.step_effect g hu t
  have hstock := Task.step_stock g kind hu t
  have hbegun : History.begun kind (new ++ r.history) = new.begun kind + r.history.begun kind := by
    simp [History.begun, History.operations]
  simp only [balance, hnew, hbegun, heffect.begun, List.map_append, List.map_cons,
    List.sum_append_nat, List.sum_cons]
  omega

theorem balance_advance (g : Gate σ δ) (kind : Operation σ → Bool) (tasks : Agenda σ) (r : Run σ) :
    balance kind [] (advance g tasks r) ≤ balance kind tasks r := by
  fun_induction advance g tasks r with
  | case1 => exact Nat.le_refl _
  | case2 r t rest ih =>
    cases hu : r.unwinding with
    | false => rwa [balance_step hu] at ih
    | true =>
      rw [Task.step_of_unwinding hu, List.nil_append] at ih ⊢
      simp only [balance, List.map_cons, List.sum_cons] at ih ⊢
      omega

theorem balance_performAll (g : Gate σ δ) (kind : Operation σ → Bool) (r : Run σ)
    (ops : List (Operation σ)) :
    balance kind [] (performAll g r ops) ≤ ops.countP kind + balance kind [] r := by
  induction ops generalizing r with
  | nil => simp [performAll]
  | cons op ops ih =>
    have hadvance := balance_advance g kind [.start .top op] r
    have hsettled : balance kind [] (perform g r op) = balance kind [] (advance g [.start .top op] r) := rfl
    have hrest := ih (perform g r op)
    have hop : balance kind [.start .top op] r = (if kind op then 1 else 0) + balance kind [] r := by
      simp only [balance, List.map_cons, List.map_nil, List.sum_cons, List.sum_nil, Task.begins]
      omega
    rw [List.countP_cons]
    simp only [performAll, List.foldl_cons] at hrest ⊢
    omega

end Run

/-! ## Calls -/

namespace History

variable {g : Gate σ δ} {h : History σ}

theorem nodup_callers (hone : ∀ a, h.countP (Moment.isCallOf a) ≤ 1) : h.callers.Nodup :=
  List.nodup_iff_count_le_one.2 fun a => (count_callers h a).trans_le (hone a)

/-- Only a set or a fire calls. -/
theorem Coursed.firing_of_mem_callers (hc : h.Coursed g) {a : Activity} (ha : a ∈ h.callers) :
    ∃ op, (a, op) ∈ h.operations ∧ op.fires = true := by
  obtain ⟨op, hop⟩ := hc.mem_operations_of_mem_callers ha
  obtain ⟨args, hm⟩ := mem_callers.1 ha
  obtain ⟨after, before, he⟩ := List.append_of_mem (mem_operations.1 hop)
  obtain ⟨-, left, hcourse, -⟩ := hc.courses _ _ _ he a op rfl
  refine ⟨op, hop, ?_⟩
  by_contra hf
  have hown : .called a args ∈ h.filter (Moment.isOf a) :=
    List.mem_filter.2 ⟨hm, by simp [Moment.isOf]⟩
  obtain ⟨s, c, -, ⟨-, he⟩ | ⟨s', -, he⟩⟩ := hcourse.of_not_fires (by simpa using hf) <;>
    simp [he] at hown

/-- Those who call are among those whose operations fire, and are told apart. -/
theorem Coursed.calls_le_begun (hc : h.Coursed g) (hone : ∀ a, h.countP (Moment.isCallOf a) ≤ 1) :
    h.countP Moment.isCall ≤ h.begun Operation.fires := by
  have hsubset : h.callers ⊆ (h.operations.filter fun p => p.2.fires).map Prod.fst := by
    intro a ha
    obtain ⟨op, hop, hf⟩ := hc.firing_of_mem_callers ha
    exact List.mem_map.2 ⟨(a, op), List.mem_filter.2 ⟨hop, hf⟩, rfl⟩
  have hlength := ((nodup_callers hone).subperm hsubset).length_le
  rwa [length_callers, List.length_map, ← List.countP_eq_length_filter] at hlength

/-- An operation that has begun was answered since, or a panic has unwound it. -/
theorem Coursed.concluded (hc : h.Coursed g) {after before : History σ} {a : Activity} {op : Operation σ}
    (he : h = after ++ .began a op :: before) :
    (∃ x s, .finished a x s ∈ after) ∨ Unwound after := by
  obtain ⟨hbefore, left, hcourse, rfl | hunwound⟩ := hc.courses _ _ _ he a op rfl
  · left
    generalize hown : h.filter (Moment.isOf a) = own at hcourse
    cases hcourse with
    | @answered own x s last =>
      have hmem : .finished a x s ∈ h.filter (Moment.isOf a) := hown ▸ List.mem_cons_self
      have hof := List.mem_filter.1 hmem
      rw [he, List.mem_append, List.mem_cons] at hof
      obtain ⟨hafter | hbegan | hbefore', hof⟩ := hof
      · exact ⟨x, s, hafter⟩
      · cases hbegan
      · rw [hbefore _ hbefore'] at hof
        cases hof
  · exact .inr hunwound

end History

namespace Run

/-- What a run can come to, whatever is asked in it and at whatever depth. -/
structure Effort (g : Gate σ (Delegate σ)) (reactions : List (Reaction σ)) (dispatch : Dispatch)
    (ops : List (Operation σ)) (r : Run σ) : Prop where
  /-- Every operation of the top is worked off after so many tasks. -/
  ends : ∃ n, Completes g n ops (start g reactions dispatch) r ∧
    n ≤ 9 * ops.length + (start g reactions dispatch).reserve
  /-- Every operation that has begun, at whatever depth, is answered unless a panic has unwound it. -/
  concluded : r.history.Every fun after m _ => ∀ a op, m = .began a op →
    (∃ x s, .finished a x s ∈ after) ∨ History.Unwound after
  /-- Operations of any kind begin only as often as they were requested. -/
  begun : ∀ kind, r.history.begun kind ≤ g.requests reactions ops kind
  /-- No operation calls the delegate twice. -/
  once : ∀ a, r.history.countP (Moment.isCallOf a) ≤ 1
  /-- Only sets and fires call the delegate. -/
  callers : ∀ a ∈ r.history.callers, ∃ op, (a, op) ∈ r.history.operations ∧ op.fires = true
  calls : r.history.countP Moment.isCall ≤ g.requests reactions ops Operation.fires

theorem effort_bounded (g : Gate σ (Delegate σ)) (reactions : List (Reaction σ)) (dispatch : Dispatch)
    (ops : List (Operation σ)) :
    Effort g reactions dispatch ops (performAll g (start g reactions dispatch) ops) := by
  have hc := coursed_performAll g reactions dispatch ops
  have hone := calls_le_one g reactions dispatch ops
  have hbegun (kind : Operation σ → Bool) :
      (performAll g (start g reactions dispatch) ops).history.begun kind ≤
        g.requests reactions ops kind := by
    have hbalance := balance_performAll g kind (start g reactions dispatch) ops
    have hfirst : balance kind [] (start g reactions dispatch) =
        (start g reactions dispatch).stock (Task.begins kind) := Nat.zero_add _
    rw [hfirst, stock_start] at hbalance
    exact (Nat.le_add_right _ _).trans ((Nat.le_add_right _ _).trans hbalance)
  constructor
  case ends =>
    obtain ⟨n, hcompletes, hn⟩ := completes_performAll g (start g reactions dispatch) ops
    exact ⟨n, hcompletes, (Nat.le_add_right _ _).trans hn⟩
  case concluded =>
    rintro after m before he a op rfl
    exact hc.concluded he
  case begun => exact hbegun
  case once => exact hone
  case callers => exact fun a => hc.firing_of_mem_callers
  case calls => exact (hc.calls_le_begun hone).trans (hbegun Operation.fires)

/-- The bound is reached: the delegate fires the gate that calls it. -/
example :
    let g := Gate.flags {} [[.perform .fire], [.perform (.set Gate.left false)]]
    let ops : List (Operation .flags) := [.assign Gate.left true, .set Gate.right true]
    (performAll g (start g [] (.registering [])) ops).history.countP Moment.isCall = 3 ∧
      g.requests [] ops Operation.fires = 3 := by decide +kernel

end Run

end SlotGate
