import Mathlib.Data.List.Nodup
import Mathlib.Data.List.Perm.Basic
import SlotGate.Proofs.Course

/-!
# What answers tell of calls

Calls nest in calls and in reactions to events, so the calls in between the beginning and the end of an
operation are not all its own. An answer tells of its own call: `true` of the one that the operation has
made, `false` that there was none. The totals agree, then, at whatever depth the operations were.
-/
namespace SlotGate

variable {σ : Signature} {δ : Type}

def Answer.isTrue : Answer σ → Bool
  | flag b => b
  | _ => false

namespace Moment

def operation? : Moment σ → Option (Activity × Operation σ)
  | began a op => some (a, op)
  | _ => none

/-- Who calls the delegate here. -/
def caller? : Moment σ → Option Activity
  | called a _ => some a
  | _ => none

/-- What `a` is answered here. -/
def answerTo? (a : Activity) : Moment σ → Option (Answer σ)
  | finished b x _ => if b = a then some x else none
  | _ => none

end Moment

namespace History

/-- The operations that have begun, at all levels, the latest first. -/
def operations (h : History σ) : List (Activity × Operation σ) := h.filterMap Moment.operation?

/-- The answer to the operation of `a`, if it was given. -/
def answer? (a : Activity) (h : History σ) : Option (Answer σ) := h.findSome? (Moment.answerTo? a)

/-- How many sets and fires were answered with `true`. -/
def trueAnswers (h : History σ) : Nat :=
  h.operations.countP fun p => p.2.fires && (h.answer? p.1).any Answer.isTrue

/-- The answers of a history account for its calls. -/
structure Accounts (g : Gate σ δ) (h : History σ) : Prop where
  /-- Operations are told apart by their activities. -/
  distinct : (h.operations.map Prod.fst).Nodup
  /-- A set or a fire that answers `true` has made one call, and one that answers `false` none. On a
  gate without a delegate all of them answer `false`. -/
  firing : ∀ a op, (a, op) ∈ h.operations → op.fires = true →
    ∃ b, h.answer? a = some (.flag b) ∧ h.countP (Moment.isCallOf a) = b.toNat ∧
      (g.isBound = false → b = false)
  /-- An operation that does not fire is answered and makes no call. -/
  others : ∀ a op, (a, op) ∈ h.operations → op.fires = false →
    (h.answer? a).isSome = true ∧ h.countP (Moment.isCallOf a) = 0
  /-- No moment before the beginning of an operation belongs to it. -/
  first : h.Every fun _ m before => ∀ a op, m = .began a op → ∀ y ∈ before, y.isOf a = false
  /-- No moment after the answer of an operation belongs to it. -/
  final : h.Every fun after m _ => ∀ a x s, m = .finished a x s → ∀ y ∈ after, y.isOf a = false
  total : h.countP Moment.isCall = h.trueAnswers

theorem mem_operations {h : History σ} {a : Activity} {op : Operation σ} :
    (a, op) ∈ h.operations ↔ .began a op ∈ h := by
  refine List.mem_filterMap.trans ⟨?_, fun hm => ⟨_, hm, rfl⟩⟩
  rintro ⟨m, hm, he⟩
  cases m <;> cases he
  exact hm

theorem countP_filter_isOf (h : History σ) (a : Activity) :
    (h.filter (Moment.isOf a)).countP Moment.isCall = h.countP (Moment.isCallOf a) := by
  rw [List.countP_filter]
  refine List.countP_congr fun m _ => ?_
  cases m <;> simp [Moment.isCall, Moment.isOf, Moment.isCallOf]

theorem answer?_filter_isOf (h : History σ) (a : Activity) :
    answer? a (h.filter (Moment.isOf a)) = answer? a h := by
  induction h with
  | nil => rfl
  | cons m h ih =>
    unfold answer? at ih ⊢
    cases hm : m.isOf a with
    | true => rw [List.filter_cons_of_pos hm, List.findSome?_cons, List.findSome?_cons, ih]
    | false =>
      have hnone : m.answerTo? a = none := by
        cases m <;> simp_all [Moment.isOf, Moment.answerTo?]
      rw [List.filter_cons_of_neg (by simp [hm]), List.findSome?_cons, hnone, ih]

end History

namespace Course

variable {g : Gate σ δ} {a : Activity} {op : Operation σ} {own : History σ} {x : Answer σ}

theorem early_replying {s : State σ} {c : Change σ} :
    ∀ m ∈ [Moment.changed a c s, .began a op], m.Early := by
  simp [Moment.Early, Moment.isCall, Moment.isFinish]

theorem countP_early (early : ∀ m ∈ own, m.Early) : own.countP Moment.isCall = 0 :=
  List.countP_eq_zero.2 fun m hm => by simp [(early m hm).1]

/-- The answer of an operation that may fire tells whether it has called. -/
theorem flag_of_fires (hc : Course g a op own [.finish a x]) (hf : op.fires = true) :
    ∃ b, x = .flag b ∧ own.countP Moment.isCall = b.toNat ∧ (g.isBound = false → b = false) := by
  cases hc with
  | replying opens =>
    refine ⟨false, ?_, countP_early early_replying, fun _ => rfl⟩
    cases op <;> first | rfl | cases hf
  | refusing _ early => exact ⟨false, rfl, countP_early early, fun _ => rfl⟩
  | returned _ bound early =>
    refine ⟨true, rfl, ?_, fun hb => ?_⟩
    · simp [List.countP_cons, countP_early early, Moment.isCall]
    · rw [bound] at hb
      cases hb

theorem uncalled_of_not_fires (hc : Course g a op own [.finish a x]) (hf : op.fires = false) :
    own.countP Moment.isCall = 0 := by
  obtain ⟨s, c, -, ⟨-, rfl⟩ | ⟨s', hnil, -⟩⟩ := hc.of_not_fires hf
  · exact countP_early early_replying
  · cases hnil

theorem unfinished (hc : Course g a op own [.finish a x]) : ∀ m ∈ own, m.isFinish = false := by
  cases hc with
  | replying opens => exact fun m hm => (early_replying m hm).2
  | refusing _ early => exact fun m hm => (early m hm).2
  | returned _ _ early => simpa [Moment.isFinish] using fun m hm => (early m hm).2

end Course

namespace History

variable {g : Gate σ δ} {h : History σ}

/-- Where nothing panics, every operation is over. -/
theorem Coursed.answered (hc : h.Coursed g) (hcalm : .panicked ∉ h) {a : Activity} {op : Operation σ}
    (hb : .began a op ∈ h) : ∃ x s own, h.filter (Moment.isOf a) = .finished a x s :: own ∧
      Course g a op own [.finish a x] := by
  obtain ⟨after, before, he⟩ := List.append_of_mem hb
  obtain ⟨-, left, hcourse, rfl | ⟨later, mid, rfl, -⟩⟩ := hc.courses _ _ _ he a op rfl
  · generalize h.filter (Moment.isOf a) = whole at hcourse
    cases hcourse with
    | answered last => exact ⟨_, _, _, rfl, last⟩
  · exact absurd (he ▸ by simp) hcalm

theorem Coursed.answer?_eq (hc : h.Coursed g) (hcalm : .panicked ∉ h) {a : Activity}
    {op : Operation σ} (hb : .began a op ∈ h) : ∃ x own, h.answer? a = some x ∧
      Course g a op own [.finish a x] ∧
        h.countP (Moment.isCallOf a) = own.countP Moment.isCall := by
  obtain ⟨x, s, own, hown, hcourse⟩ := hc.answered hcalm hb
  refine ⟨x, own, ?_, hcourse, ?_⟩
  · rw [← answer?_filter_isOf, hown]
    simp [answer?, Moment.answerTo?]
  · rw [← countP_filter_isOf, hown]
    simp [Moment.isCall]

theorem nodup_operations (hb : h.Every fun _ m before => ∀ a op, m = .began a op →
    ∀ x ∈ before, x.isOf a = false) : (h.operations.map Prod.fst).Nodup := by
  induction h with
  | nil => exact List.nodup_nil
  | cons m h ih =>
    have htail := ih fun after m' before he => hb (m :: after) m' before (by rw [he]; rfl)
    cases m with
    | began a op =>
      refine List.nodup_cons.2 ⟨fun hmem => ?_, htail⟩
      obtain ⟨⟨a, op'⟩, hp, rfl⟩ := List.mem_map.1 hmem
      have hof := hb [] _ h rfl a op rfl _ (mem_operations.1 hp)
      simp [Moment.isOf] at hof
    | _ => exact htail

/-- Nothing belongs to an operation after its answer. -/
theorem Coursed.final (hc : h.Coursed g) (hcalm : .panicked ∉ h) {after before : History σ}
    {a : Activity} {x : Answer σ} {s : State σ} (he : h = after ++ .finished a x s :: before) :
    ∀ y ∈ after, y.isOf a = false := by
  have hmem : .finished a x s ∈ h := he ▸ List.mem_append_right _ List.mem_cons_self
  obtain ⟨op, hb⟩ := hc.owned _ hmem a (by simp [Moment.isOf])
  obtain ⟨x', s', own, hown, hcourse⟩ := hc.answered hcalm hb
  rw [he, List.filter_append, List.filter_cons_of_pos (by simp [Moment.isOf])] at hown
  intro y hy
  by_contra hof
  have hya : y ∈ after.filter (Moment.isOf a) := List.mem_filter.2 ⟨hy, by simpa using hof⟩
  cases hafter : after.filter (Moment.isOf a) with
  | nil => simp [hafter] at hya
  | cons m later =>
    rw [hafter] at hown
    obtain ⟨-, rfl⟩ := List.cons.inj hown
    cases hcourse.unfinished (.finished a x s) (by simp)

/-- Those who have called, the latest first. -/
def callers (h : History σ) : List Activity := h.filterMap Moment.caller?

theorem mem_callers {h : History σ} {a : Activity} : a ∈ h.callers ↔ ∃ args, .called a args ∈ h := by
  refine List.mem_filterMap.trans ⟨?_, fun hargs => ?_⟩
  · rintro ⟨m, hm, he⟩
    cases m <;> cases he
    exact ⟨_, hm⟩
  · obtain ⟨args, hm⟩ := hargs
    exact ⟨_, hm, rfl⟩

theorem length_callers (h : History σ) : h.callers.length = h.countP Moment.isCall := by
  rw [callers, List.length_filterMap_eq_countP]
  refine List.countP_congr fun m _ => ?_
  cases m <;> simp [Moment.caller?, Moment.isCall]

theorem count_callers (h : History σ) (a : Activity) :
    h.callers.count a = h.countP (Moment.isCallOf a) := by
  rw [callers, List.count_filterMap]
  refine List.countP_congr fun m _ => ?_
  cases m <;> simp [Moment.caller?, Moment.isCallOf]

theorem Coursed.mem_operations_of_mem_callers (hc : h.Coursed g) {a : Activity}
    (ha : a ∈ h.callers) : ∃ op, (a, op) ∈ h.operations := by
  obtain ⟨args, hm⟩ := mem_callers.1 ha
  obtain ⟨op, hb⟩ := hc.owned _ hm a (by simp [Moment.isOf])
  exact ⟨op, mem_operations.2 hb⟩

/-- Where nothing panics, the operations that answer `true` are those that have called. -/
theorem Coursed.total (hc : h.Coursed g) (hcalm : .panicked ∉ h)
    (hdistinct : (h.operations.map Prod.fst).Nodup) : h.countP Moment.isCall = h.trueAnswers := by
  let answered : Activity × Operation σ → Bool :=
    fun p => p.2.fires && (h.answer? p.1).any Answer.isTrue
  have hcount : ∀ a op, (a, op) ∈ h.operations →
      h.callers.count a = (answered (a, op)).toNat := by
    intro a op hmem
    obtain ⟨x, own, hanswer, hcourse, hcalls⟩ := hc.answer?_eq hcalm (mem_operations.1 hmem)
    rw [count_callers, hcalls]
    cases hf : op.fires with
    | true =>
      obtain ⟨b, rfl, hb, -⟩ := hcourse.flag_of_fires hf
      simp [answered, hf, hanswer, hb, Answer.isTrue]
    | false => simp [answered, hf, hcourse.uncalled_of_not_fires hf]
  have hnodup : h.callers.Nodup := by
    refine List.nodup_iff_count_le_one.2 fun a => ?_
    by_cases ha : a ∈ h.callers
    · obtain ⟨op, hmem⟩ := hc.mem_operations_of_mem_callers ha
      rw [hcount a op hmem]
      exact Bool.toNat_le _
    · rw [List.count_eq_zero_of_not_mem ha]
      exact Nat.zero_le _
  have hsame : h.callers.Perm ((h.operations.filter answered).map Prod.fst) := by
    refine (List.perm_ext_iff_of_nodup hnodup ?_).2 fun a => ⟨fun ha => ?_, fun ha => ?_⟩
    · exact hdistinct.sublist ((List.filter_sublist).map Prod.fst)
    · obtain ⟨op, hmem⟩ := hc.mem_operations_of_mem_callers ha
      have hpos := List.count_pos_iff.2 ha
      rw [hcount a op hmem] at hpos
      refine List.mem_map.2 ⟨(a, op), List.mem_filter.2 ⟨hmem, ?_⟩, rfl⟩
      cases ht : answered (a, op) with
      | true => rfl
      | false => simp [ht] at hpos
    · obtain ⟨⟨a, op⟩, hmem, rfl⟩ := List.mem_map.1 ha
      obtain ⟨hmem, htrue⟩ := List.mem_filter.1 hmem
      refine List.count_pos_iff.1 ?_
      rw [hcount a op hmem, htrue]
      exact Nat.one_pos
  rw [← length_callers, hsame.length_eq, List.length_map, ← List.countP_eq_length_filter]
  rfl

end History

namespace Run

/-- In a run without a panic, whatever the operations, the scripts and the reactions, the answers account
for the calls. -/
theorem answers_account_for_calls (g : Gate σ (Delegate σ)) (reactions : List (Reaction σ))
    (dispatch : Dispatch) (ops : List (Operation σ))
    (hcalm : .panicked ∉ (performAll g (start g reactions dispatch) ops).history) :
    (performAll g (start g reactions dispatch) ops).history.Accounts g := by
  have hc := coursed_performAll g reactions dispatch ops
  have hfirst := fun after m before he a op hm => (hc.courses after m before he a op hm).1
  have hdistinct := History.nodup_operations hfirst
  constructor
  case distinct => exact hdistinct
  case first => exact hfirst
  case firing =>
    intro a op hmem hf
    obtain ⟨x, own, hanswer, hcourse, hcalls⟩ := hc.answer?_eq hcalm (History.mem_operations.1 hmem)
    obtain ⟨b, rfl, hb, hbound⟩ := hcourse.flag_of_fires hf
    exact ⟨b, hanswer, hcalls.trans hb, hbound⟩
  case others =>
    intro a op hmem hf
    obtain ⟨x, own, hanswer, hcourse, hcalls⟩ := hc.answer?_eq hcalm (History.mem_operations.1 hmem)
    exact ⟨by simp [hanswer], hcalls.trans (hcourse.uncalled_of_not_fires hf)⟩
  case final =>
    rintro after m before he a x s rfl
    exact hc.final hcalm he
  case total => exact hc.total hcalm hdistinct

/-- The subscriber fires the gate in the fire of a set, and the delegate sets a slot in its call. -/
theorem answers_account_for_calls_of_nested_fires :
    let g := Gate.flags { debug := true } [[], [.perform (.set Gate.left false), .perform .fire]]
    let reactions : List (Reaction .flags) := [⟨"gate.fire", [.fire, .setEnabled true]⟩]
    let r := performAll g (start g reactions (.registering []))
      [.assign Gate.left true, .set Gate.right true]
    .panicked ∉ r.history ∧ r.history.trueAnswers = 4 ∧ r.history.operations.length = 6 ∧
      r.history.Accounts g := by
  intro g reactions r
  have hcalm : .panicked ∉ r.history := by
    let panics : Moment .flags → Bool
      | .panicked => true
      | _ => false
    have hnone : r.history.any panics = false := by decide +kernel
    intro hm
    have hany : r.history.any panics = true := List.any_eq_true.2 ⟨_, hm, rfl⟩
    rw [hnone] at hany
    cases hany
  exact ⟨hcalm, by decide +kernel, by decide +kernel,
    answers_account_for_calls g reactions _ _ hcalm⟩

end Run

end SlotGate
