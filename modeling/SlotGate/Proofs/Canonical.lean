import SlotGate.Proofs.Course
import SlotGate.Proofs.Outage
import SlotGate.Value.UserType

/-!
# Slots hold canonical values

An unset slot holds the default of its type. And whatever values a type counts as null, the only one of
them that a slot ever holds, or a delegate is ever given, is the default. Every section keeps this, so it
is the case after each moment of a run.
-/
namespace SlotGate

open SlotGate.Value (SlotType UserType)

variable {σ : Signature} {δ : Type}

/-- The slot holds the default if it is not set, and also if what it holds is null. -/
structure Slot.Canonical {t : SlotType} (x : Slot t) : Prop where
  unset : x.isSet = false → x.value = t.default
  null : t.isNull x.value = true → x.value = t.default

theorem Slot.canonical_vacant {t : SlotType} : (vacant : Slot t).Canonical :=
  ⟨fun _ => rfl, fun _ => rfl⟩

theorem Slot.canonical_filled {t : SlotType} (v : t.Carrier) : (filled (t.stored v)).Canonical := by
  refine ⟨fun h => Bool.noConfusion h, fun h => ?_⟩
  change t.isNull (t.stored v) = true at h
  change t.stored v = t.default
  cases hv : t.isNull v with
  | true => exact SlotType.stored_of_isNull hv
  | false =>
    rw [SlotType.stored_of_not_isNull hv, hv] at h
    cases h

/-- Of a type with many null values, also behind a pointer, only the default is ever held. -/
example : (SlotType.pointer UserType.sentinel.slotType).stored ⟨⟨-7, by decide⟩⟩ =
    ⟨⟨-1, by decide⟩⟩ := rfl

/-- All slots are canonical. -/
def State.Canonical (s : State σ) : Prop := ∀ i, (s.slots i).Canonical

theorem Slots.canonical_put {s : Slots σ} (h : ∀ i, (s i).Canonical) {i : Fin σ.arity}
    {x : Slot (σ.type i)} (hx : x.Canonical) (j : Fin σ.arity) : (s.put i x j).Canonical := by
  by_cases hj : j = i
  · subst hj
    rw [put_same]
    exact hx
  · rw [put_other x hj]
    exact h j

/-- Every section keeps slots canonical. -/
theorem State.Canonical.apply {s : State σ} (h : s.Canonical) (c : Change σ) :
    (c.apply s).Canonical := by
  cases c with
  | stored i v => exact Slots.canonical_put h (Slot.canonical_filled v)
  | slotCleared i => exact Slots.canonical_put h Slot.canonical_vacant
  | cleared automatic => exact fun i => Slot.canonical_vacant
  | refused | copied | enabledSet on | debugSet on | looked => exact h

/-- The state that a moment shows: what a section leaves, what a subscriber finds at an event, what an
operation is answered in. -/
def Moment.shown? : Moment σ → Option (State σ)
  | changed _ _ s | emitted _ _ s | finished _ _ s => some s
  | began .. | called .. | returned _ | panicked => none

namespace History

variable {g : Gate σ δ}

theorem canonical_current {h : History σ} (hl : h.Each (Moment.Lawful g)) :
    (h.current g).Canonical := by
  induction h with
  | nil => exact fun i => Slot.canonical_vacant
  | cons m h ih =>
    have hbefore := ih hl.2
    cases m with
    | changed a c s =>
      obtain ⟨rfl, -⟩ := hl.1
      exact hbefore.apply c
    | _ => exact hbefore

end History

/-- A moment shows the state as it is then. -/
def Moment.Shows (g : Gate σ δ) (m : Moment σ) (before : History σ) : Prop :=
  ∀ s, m.shown? = some s → s = History.current g (m :: before)

namespace Run

variable {g : Gate σ δ}

theorem shows_step {t : Task σ} {r : Run σ} (hu : r.unwinding = false) (hr : Recorded g r)
    (h : r.history.Each (Moment.Shows g)) : (t.step g r).2.history.Each (Moment.Shows g) := by
  obtain ⟨new, s, heffect, -, hnew⟩ := Task.step_effect g hu t
  rw [hnew]
  have hstate : ∀ x, some r.state = some x → x = r.history.current g := by
    intro x hx
    rw [← Option.some.inj hx]
    exact hr.state
  have hnone : ∀ {x y : State σ}, none = some x → x = y := fun he => by cases he
  cases heffect with
  | silent => exact h
  | listened => exact h
  | opened => exact ⟨fun x hx => (Option.some.inj hx).symm, fun _ => hnone, h⟩
  | attempted => exact ⟨fun x hx => (Option.some.inj hx).symm, h⟩
  | swept => exact ⟨fun x hx => (Option.some.inj hx).symm, h⟩
  | emitted => exact ⟨hstate, h⟩
  | finished => exact ⟨hstate, h⟩
  | _ => exact ⟨fun _ => hnone, h⟩

theorem shows_invariant (g : Gate σ δ) : Invariant g (fun _ => True) fun _ r =>
    Recorded g r ∧ r.history.Each (Moment.Shows g) where
  begins _ _ _ _ h := h
  keeps _ _ _ _ hu h := ⟨recorded_step hu h.1, shows_step hu h.1 h.2⟩
  drops _ _ _ _ h := h
  settles _ h := ⟨⟨h.1.state, h.1.lawful⟩, h.2⟩

/-- Nothing but canonical values, anywhere in a run and at its end. -/
structure Canonical (g : Gate σ δ) (r : Run σ) : Prop where
  now : r.state.Canonical
  /-- The state is canonical after any part of the history, in the middle of operations too. -/
  always : ∀ before : History σ, before <:+ r.history → (before.current g).Canonical
  shown : ∀ m ∈ r.history, ∀ s, m.shown? = some s → s.Canonical
  arguments : ∀ a args, .called a args ∈ r.history →
    ∀ i, (σ.type i).isNull (args i) = true → args i = (σ.type i).default
  /-- An assign on an enabled gate stores at once, and is answered with what it has stored, unless a panic
  unwinds it. -/
  assigns : r.history.Every fun after m before => ∀ a i v, m = .began a (.assign i v) →
    (before.current g).enabled = true → ∃ later s, after = later ++ [.changed a (.stored i v) s] ∧
      s.slots i = .filled ((σ.type i).stored v) ∧
        (∀ x s', .finished a x s' ∈ r.history → x = .value i (s.slots i).value) ∧
          ((∃ x s', .finished a x s' ∈ r.history) ∨ History.Unwound after)

theorem shows_performAll (g : Gate σ (Delegate σ)) (reactions : List (Reaction σ))
    (dispatch : Dispatch) (ops : List (Operation σ)) :
    (performAll g (start g reactions dispatch) ops).history.Each (Moment.Shows g) :=
  ((shows_invariant g).performAll ops (fun _ _ => trivial) rfl
    (show _ from ⟨⟨rfl, trivial⟩, trivial⟩ : Recorded g (start g reactions dispatch) ∧ _)).2

end Run

namespace History

variable {g : Gate σ δ} {h : History σ}

/-- What was copied to be handed over was canonical. -/
theorem Provenance.canonical (hp : h.Provenance g) (hl : h.Each (Moment.Lawful g)) {a : Activity}
    {args : σ.Arguments} (hm : .called a args ∈ h) (i : Fin σ.arity)
    (hn : (σ.type i).isNull (args i) = true) : args i = (σ.type i).default := by
  obtain ⟨after, before, he⟩ := List.append_of_mem hm
  obtain ⟨-, mid, s, early, hbefore, hsnap⟩ := hp.calls _ _ _ he a args rfl
  have hcopy : Each (Moment.Lawful g) (.changed a .copied s :: early) :=
    each_suffix (hbefore ▸ each_before hl he)
  have hcanonical := canonical_current hcopy.2 i
  rw [← hsnap.state] at hcanonical
  rw [hsnap.arguments] at hn ⊢
  exact hcanonical.null hn

/-- An assign on an enabled gate stores, and has nothing else to answer than what it has stored. -/
theorem Coursed.assign (hc : h.Coursed g) (hl : h.Each (Moment.Lawful g)) {later before : History σ}
    {a : Activity} {i : Fin σ.arity} {v : (σ.type i).Carrier} {c : Change σ} {s : State σ}
    (he : h = (later ++ [.changed a c s]) ++ .began a (.assign i v) :: before)
    (hen : (before.current g).enabled = true) :
    c = .stored i v ∧ s.slots i = .filled ((σ.type i).stored v) ∧
      (∀ x s', .finished a x s' ∈ h → x = .value i (s.slots i).value) ∧
        ((∃ x s', .finished a x s' ∈ h) ∨ Unwound (later ++ [.changed a c s])) := by
  have hsection : h = later ++ .changed a c s :: (.began a (.assign i v) :: before) := by simp [he]
  obtain ⟨-, hjustified⟩ := each_at hl hsection
  have hc' : c ≠ .refused := by
    change c.Justified a _ (before.current g) at hjustified
    rintro rfl
    cases hjustified with
    | opening began opens =>
      obtain ⟨-, rfl⟩ := Moment.began.inj (List.cons.inj began).1
      simp [Operation.opening, hen] at opens
    | attempt h => simp [hen] at h
    | sweep h => simp [hen] at h
  obtain ⟨-, left, hcourse, hleft⟩ := hc.courses _ _ _ he a _ rfl
  obtain ⟨s₀, c₀, opens, hown⟩ := hcourse.of_not_fires rfl
  -- the section is the one of the course, which found the gate enabled
  have hmem : .changed a c s ∈ h.filter (Moment.isOf a) :=
    List.mem_filter.2 ⟨by simp [hsection], by simp [Moment.isOf]⟩
  obtain ⟨rfl, rfl⟩ : c = c₀ ∧ s = c₀.apply s₀ := by
    rcases hown with ⟨-, hown⟩ | ⟨s', -, hown⟩ <;> rw [hown] at hmem <;> simpa using hmem
  have hen₀ : s₀.enabled = true := by
    by_contra hd
    simp only [Operation.opening, hd, if_false, Option.some.injEq] at opens
    exact hc' opens.symm
  simp only [Operation.opening, hen₀, if_true, Option.some.injEq] at opens
  subst opens
  have hslot : ((Change.stored i v).apply s₀).slots i = .filled ((σ.type i).stored v) :=
    Slots.put_same _ _ _
  have hreply : (Operation.assign i v).reply g s₀ = .value i ((σ.type i).stored v) := by
    simp [Operation.reply, hen₀]
  refine ⟨rfl, hslot, fun x s' hm => ?_, ?_⟩
  · have hm' : .finished a x s' ∈ h.filter (Moment.isOf a) :=
      List.mem_filter.2 ⟨hm, by simp [Moment.isOf]⟩
    rcases hown with ⟨-, hown⟩ | ⟨s'', -, hown⟩ <;> rw [hown] at hm' <;> simp at hm'
    rw [hm'.1, hreply, hslot]
    rfl
  · rcases hown with ⟨rfl, -⟩ | ⟨s', -, hown⟩
    · exact .inr (hleft.resolve_left (by simp))
    · have hm : .finished a _ s' ∈ h.filter (Moment.isOf a) := hown ▸ List.mem_cons_self
      exact .inl ⟨_, s', List.mem_of_mem_filter hm⟩

end History

namespace Run

/-- In every run, whatever the slot types, the operations, the scripts and the reactions, slots and
arguments are canonical. -/
theorem values_canonical (g : Gate σ (Delegate σ)) (reactions : List (Reaction σ))
    (dispatch : Dispatch) (ops : List (Operation σ)) :
    Canonical g (performAll g (start g reactions dispatch) ops) := by
  have hrec := recorded_performAll g reactions dispatch ops
  have always : ∀ before : History σ,
      before <:+ (performAll g (start g reactions dispatch) ops).history →
        (before.current g).Canonical := by
    rintro before ⟨after, he⟩
    exact History.canonical_current (History.each_suffix (he ▸ hrec.lawful))
  constructor
  case now =>
    rw [hrec.state]
    exact always _ List.suffix_rfl
  case always => exact always
  case shown =>
    intro m hm s hs
    obtain ⟨after, before, he⟩ := List.append_of_mem hm
    have hshows := shows_performAll g reactions dispatch ops
    rw [History.each_at hshows he s hs]
    exact always _ (he ▸ List.suffix_append _ _)
  case arguments =>
    intro a args hm
    exact (arguments_provenance g reactions dispatch ops).canonical hrec.lawful hm
  case assigns =>
    rintro after m before he a i v rfl hen
    have hopens := (prompt_performAll g reactions dispatch ops).opens _ _ _ he a _ rfl
    rcases hopens with ⟨later, c, s, rfl⟩ | ⟨-, hfire, -⟩
    · obtain ⟨rfl, hrest⟩ :=
        (coursed_performAll g reactions dispatch ops).assign hrec.lawful he hen
      exact ⟨later, s, rfl, hrest⟩
    · cases hfire

end Run

end SlotGate
