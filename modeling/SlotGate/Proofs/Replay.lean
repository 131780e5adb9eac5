import SlotGate.Proofs.Invariant

/-!
# What the history says of the state

The state of a run is the one that the latest critical section of its history left, and each section
did what it had to do to the state before it. So the slots can be read off the history: a slot that
is set holds the stored form of the last store to it, and nothing has emptied it since. The first
section of an operation stands right after its beginning, and so is known from the state before it.
-/
namespace SlotGate

variable {σ : Signature} {δ : Type}

namespace Change

/-- Whether a change puts a value into a slot or empties it. -/
def Touches (i : Fin σ.arity) : Change σ → Prop
  | stored j _ | slotCleared j => j = i
  | cleared _ => True
  | refused | copied | enabledSet _ | debugSet _ | looked => False

theorem apply_slots_of_not_touches {c : Change σ} {i : Fin σ.arity} (s : State σ)
    (h : ¬ c.Touches i) : (c.apply s).slots i = s.slots i := by
  cases c with
  | stored j v => exact Slots.put_other _ (Ne.symm h)
  | slotCleared j => exact Slots.put_other _ (Ne.symm h)
  | cleared automatic => exact absurd trivial h
  | _ => rfl

/-- Why a critical section of `a` makes a change to the state `s` that it finds: it is the first one
of an operation that has just begun, the copying of an attempt to fire, or the emptying that follows
it. -/
inductive Justified (a : Activity) (before : History σ) (s : State σ) (c : Change σ) : Prop where
  | opening {op : Operation σ} {earlier : History σ} (began : before = .began a op :: earlier)
      (opens : op.opening s = some c)
  | attempt (h : c = if s.enabled then .copied else .refused)
  | sweep (h : c = if s.enabled then .cleared true else .refused)

end Change

namespace Moment

def Touches (i : Fin σ.arity) : Moment σ → Prop
  | changed _ c _ => c.Touches i
  | _ => False

/-- A value is put into a slot, by an operation that found the gate enabled. -/
def isStore : Moment σ → Bool
  | changed _ (.stored ..) _ => true
  | _ => false

end Moment

namespace History

/-- The state after a history. -/
def current (g : Gate σ δ) : History σ → State σ
  | [] => g.initialState
  | .changed _ _ s :: _ => s
  | _ :: before => current g before

/-- The first section of an operation comes as soon as the operation has begun. -/
def Opened (g : Gate σ δ) (h : History σ) : Prop :=
  h.Every fun after m before => ∀ a op c, m = .began a op →
    op.opening (before.current g) = some c →
      ∃ later, after = later ++ [.changed a c (c.apply (before.current g))]

/-- The slot `i` was last touched by a store of `v`, made by `a` after `earlier`. -/
def LastStore (h : History σ) (i : Fin σ.arity) (a : Activity) (v : (σ.type i).Carrier)
    (earlier : History σ) : Prop :=
  ∃ s, h.Since (fun m => ¬ m.Touches i) (.changed a (.stored i v) s) earlier

end History

/-- Each critical section makes the change that is due, and leaves what the change makes of the state
that it finds. -/
def Moment.Lawful (g : Gate σ δ) (m : Moment σ) (before : History σ) : Prop :=
  match m with
  | .changed a c s => s = c.apply (before.current g) ∧ c.Justified a before (before.current g)
  | _ => True

namespace History

variable {g : Gate σ δ}

theorem current_slots_of_not_touches {h : History σ} {m : Moment σ} {i : Fin σ.arity}
    (hl : m.Lawful g h) (hm : ¬ m.Touches i) :
    (current g (m :: h)).slots i = (h.current g).slots i := by
  cases m with
  | changed a c s =>
    obtain ⟨rfl, -⟩ := hl
    exact Change.apply_slots_of_not_touches _ hm
  | _ => rfl

theorem current_slots_of_untouched {late before : History σ} {i : Fin σ.arity}
    (hl : Each (Moment.Lawful g) (late ++ before)) (hn : ∀ m ∈ late, ¬ m.Touches i) :
    (current g (late ++ before)).slots i = (before.current g).slots i := by
  induction late with
  | nil => rfl
  | cons m late ih =>
    obtain ⟨hm, hlate⟩ := List.forall_mem_cons.1 hn
    exact (current_slots_of_not_touches hl.1 hm).trans (ih hl.2 hlate)

/-- A slot that is set was stored, with that value, and nothing has touched it since. -/
theorem lastStore_of_isSet {h : History σ} {i : Fin σ.arity} (hl : h.Each (Moment.Lawful g))
    (hs : ((h.current g).slots i).isSet = true) :
    ∃ a v earlier, h.LastStore i a v earlier ∧
      ((h.current g).slots i).value = (σ.type i).stored v := by
  induction h with
  | nil => cases hs
  | cons m h ih =>
    obtain ⟨hm, hh⟩ := hl
    by_cases ht : m.Touches i
    · cases m with
      | changed a c s =>
        obtain ⟨rfl, -⟩ := hm
        cases c with
        | stored j v =>
          obtain rfl : j = i := ht
          exact ⟨a, v, h, ⟨_, .refl _ h⟩, by simp [current, Change.apply, Slot.filled]⟩
        | slotCleared j =>
          obtain rfl : j = i := ht
          simp [current, Change.apply, Slot.vacant] at hs
        | cleared automatic => cases hs
        | _ => cases ht
      | _ => cases ht
    · have he := current_slots_of_not_touches hm ht
      rw [he] at hs ⊢
      obtain ⟨a, v, earlier, ⟨s, hlast⟩, hv⟩ := ih hh hs
      exact ⟨a, v, earlier, ⟨s, hlast.append (List.forall_mem_singleton.2 ht)⟩, hv⟩

/-- A store is made by a set or an assign of that value that has just begun on an enabled gate. -/
theorem stored_asked {a : Activity} {i : Fin σ.arity} {v : (σ.type i).Carrier} {s : State σ}
    {before : History σ} (h : Moment.Lawful g (.changed a (.stored i v) s) before) :
    (before.current g).enabled = true ∧
      ∃ op earlier, before = .began a op :: earlier ∧ (op = .set i v ∨ op = .assign i v) := by
  cases h.2 with
  | opening began opens =>
    next op earlier =>
    cases op <;> simp only [Operation.opening] at opens <;> grind
  | attempt h => split at h <;> cases h
  | sweep h => split at h <;> cases h

/-- One slot alone is emptied only where an operation that has just begun asks for it. -/
theorem slotCleared_asked {a : Activity} {i : Fin σ.arity} {s : State σ} {before : History σ}
    (h : Moment.Lawful g (.changed a (.slotCleared i) s) before) :
    ∃ earlier, before = .began a (.clearSlot i) :: earlier := by
  cases h.2 with
  | opening began opens =>
    next op earlier =>
    cases op <;> simp only [Operation.opening] at opens <;> grind
  | attempt h => split at h <;> cases h
  | sweep h => split at h <;> cases h

/-- All slots are emptied where an operation that has just begun asks for it, or by a fire. -/
theorem cleared_asked {a : Activity} {s : State σ} {before : History σ}
    (h : Moment.Lawful g (.changed a (.cleared false) s) before) :
    ∃ earlier, before = .began a .clear :: earlier := by
  cases h.2 with
  | opening began opens =>
    next op earlier =>
    cases op <;> simp only [Operation.opening] at opens <;> grind
  | attempt h => split at h <;> cases h
  | sweep h => split at h <;> cases h

/-- Only an enabled gate lets its slots be copied. -/
theorem copied_enabled {a : Activity} {s : State σ} {before : History σ}
    (h : Moment.Lawful g (.changed a .copied s) before) :
    s = before.current g ∧ s.enabled = true := by
  obtain ⟨rfl, hjustified⟩ := h
  refine ⟨rfl, ?_⟩
  change (before.current g).enabled = true
  cases hjustified with
  | opening began opens =>
    next op earlier =>
    cases op <;> simp only [Operation.opening] at opens <;> grind
  | attempt h => split at h <;> simp_all
  | sweep h => split at h <;> cases h

end History

namespace Run

variable {g : Gate σ δ}

/-- The state is the one that the history tells, and every section of the history is lawful. -/
structure Recorded (g : Gate σ δ) (r : Run σ) : Prop where
  state : r.state = r.history.current g
  lawful : r.history.Each (Moment.Lawful g)

theorem recorded_step {t : Task σ} {r : Run σ} (hu : r.unwinding = false) (h : Recorded g r) :
    Recorded g (t.step g r).2 := by
  obtain ⟨new, s, heffect, hs, hnew⟩ := Task.step_effect g hu t
  constructor
  · rw [hs, hnew]
    cases heffect <;> first | rfl | exact h.state
  · rw [hnew]
    have hl := h.lawful
    cases heffect with
    | opened opens =>
      refine ⟨⟨?_, .opening rfl ?_⟩, trivial, hl⟩
      · rw [h.state]; rfl
      · rw [h.state] at opens; exact opens
    | attempted =>
      refine ⟨⟨?_, .attempt ?_⟩, hl⟩
      · rw [h.state]; split <;> rfl
      · rw [h.state]; rfl
    | swept =>
      refine ⟨⟨?_, .sweep ?_⟩, hl⟩
      · rw [h.state]; unfold State.vacateAll; split <;> rfl
      · rw [h.state]; rfl
    | silent => exact hl
    | listened => exact hl
    | _ => exact ⟨trivial, hl⟩

/-- Every run is recorded, whatever its operations, scripts and reactions. -/
theorem recorded_invariant (g : Gate σ δ) :
    Invariant g (fun _ => True) fun _ r => Recorded g r where
  begins _ _ _ _ h := h
  keeps _ _ _ _ hu h := recorded_step hu h
  drops _ _ _ _ h := h
  settles _ h := ⟨h.state, h.lawful⟩

theorem recorded_performAll (g : Gate σ (Delegate σ)) (reactions : List (Reaction σ))
    (dispatch : Dispatch) (ops : List (Operation σ)) :
    Recorded g (performAll g (start g reactions dispatch) ops) :=
  (recorded_invariant g).performAll ops (fun _ _ => trivial) rfl ⟨rfl, trivial⟩

theorem opened_step {t : Task σ} {r : Run σ} (hu : r.unwinding = false) (hr : Recorded g r)
    (h : r.history.Opened g) : (t.step g r).2.history.Opened g := by
  obtain ⟨new, s, heffect, -, hnew⟩ := Task.step_effect g hu t
  rw [hnew]
  refine History.every_append h ?_ ?_
  · intro after m before hold a op c hm hc
    obtain ⟨later, rfl⟩ := hold a op c hm hc
    exact ⟨new ++ later, (List.append_assoc ..).symm⟩
  · intro after m before he a op c hm hc
    subst hm
    cases heffect with
    | opened opens =>
      cases after with
      | nil => cases he
      | cons x after =>
        obtain ⟨rfl, hbegan⟩ := List.cons.inj he
        obtain ⟨rfl, rfl⟩ := History.split_singleton hbegan
        cases hbegan
        rw [List.nil_append, ← hr.state] at hc ⊢
        obtain rfl := Option.some.inj (opens.symm.trans hc)
        exact ⟨[], rfl⟩
    | began opens =>
      obtain ⟨rfl, rfl⟩ := History.split_singleton he
      cases he
      rw [List.nil_append, ← hr.state, opens] at hc
      cases hc
    | silent => simp at he
    | listened => simp at he
    | _ =>
      obtain ⟨rfl, rfl⟩ := History.split_singleton he
      cases he

theorem opened_invariant (g : Gate σ δ) : Invariant g (fun _ => True) fun _ r =>
    Recorded g r ∧ r.history.Opened g where
  begins _ _ _ _ h := h
  keeps _ _ _ _ hu h := ⟨recorded_step hu h.1, opened_step hu h.1 h.2⟩
  drops _ _ _ _ h := h
  settles _ h := ⟨⟨h.1.state, h.1.lawful⟩, h.2⟩

theorem opened_performAll (g : Gate σ (Delegate σ)) (reactions : List (Reaction σ))
    (dispatch : Dispatch) (ops : List (Operation σ)) :
    (performAll g (start g reactions dispatch) ops).history.Opened g := by
  have hstart : (start g reactions dispatch).history.Opened g := by
    simp [History.Opened, History.Every, start]
  exact ((opened_invariant g).performAll ops (fun _ _ => trivial) rfl
    (show _ from ⟨⟨rfl, trivial⟩, hstart⟩ : Recorded g (start g reactions dispatch) ∧ _)).2

end Run

end SlotGate
