import Mathlib.Algebra.BigOperators.Group.Finset.Piecewise
import Mathlib.Algebra.Order.BigOperators.Group.Finset
import SlotGate.Proofs.Firing

/-!
# A one-shot gate uses up what it hands over

A call of the delegate of a one-shot gate finds all slots vacant. So whatever the delegate does to the
gate, also in calls within its call, the next call has to be paid for by a store to every slot, and a
value that was handed over is not handed over again. All of this follows from the laws of a call and
of a sweep, whatever run the history comes from.
-/
namespace SlotGate

variable {σ : Signature} {δ : Type}

namespace Moment

def isCall : Moment σ → Bool
  | called .. => true
  | _ => false

def isStoreOf (i : Fin σ.arity) : Moment σ → Bool
  | changed _ (.stored j _) _ => i = j
  | _ => false

end Moment

namespace History

variable {g : Gate σ δ}

theorem Since.current {h before : History σ} {a : Activity} {c : Change σ} {s : State σ}
    (hl : h.Since Moment.IsEvent (.changed a c s) before) : h.current g = s := by
  obtain ⟨events, rfl, hev⟩ := hl
  induction events with
  | nil => rfl
  | cons e events ih =>
    obtain ⟨he, hevents⟩ := List.forall_mem_cons.1 hev
    cases e with
    | emitted => exact ih hevents
    | _ => cases he

/-- A moment that is no event lies before the latest one that is none. -/
theorem Since.past {h mid before b : History σ} {m x : Moment σ} (hl : h.Since Moment.IsEvent m b)
    (he : h = mid ++ x :: before) (hx : ¬ x.IsEvent) (hne : x ≠ m) :
    ∃ events mid', mid = events ++ m :: mid' ∧ b = mid' ++ x :: before := by
  obtain ⟨events, hh, hev⟩ := hl
  rcases List.append_eq_append_iff.1 (hh.symm.trans he) with ⟨rest, rfl, hr⟩ | ⟨rest, rfl, hr⟩
  · cases rest with
    | nil => exact absurd (List.cons.inj hr).1.symm hne
    | cons y rest =>
      obtain ⟨rfl, rfl⟩ := List.cons.inj hr
      exact ⟨events, rest, rfl, rfl⟩
  · cases rest with
    | nil => exact absurd (List.cons.inj hr).1 hne
    | cons y rest =>
      obtain ⟨rfl, -⟩ := List.cons.inj hr
      exact absurd (hev x (by simp)) hx

theorem Consumed.vacant {h full early : History σ} {a : Activity} {args : σ.Arguments}
    (hc : h.Consumed g a args full early) (hl : h.Each (Moment.Lawful g)) :
    (h.current g).slots = .vacant := by
  obtain ⟨s, hs⟩ := hc.swept
  rw [hs.current]
  obtain ⟨⟨rfl, -⟩, -⟩ := hs.each hl
  rfl

/-- The call that `a` makes after `h` hands over, for the slot `i`, what was stored after
`earlier`. -/
def HandsOver (g : Gate σ δ) (h : History σ) (a : Activity) (args : σ.Arguments)
    (i : Fin σ.arity) (earlier : History σ) : Prop :=
  ∃ full early b v, h.Consumed g a args full early ∧ early.LastStore i b v earlier ∧
    args i = (σ.type i).stored v

theorem Consumed.handsOver {h full early : History σ} {a : Activity} {args : σ.Arguments}
    (hc : h.Consumed g a args full early) (hl : h.Each (Moment.Lawful g)) (i : Fin σ.arity) :
    ∃ earlier, h.HandsOver g a args i earlier := by
  obtain ⟨s, hswept⟩ := hc.swept
  obtain ⟨-, hfull⟩ := hswept.each hl
  obtain ⟨hcopied, hearly⟩ := hc.copied.each hfull
  obtain ⟨hsame, -⟩ := copied_enabled hcopied
  have hset := (Slots.allSet_eq_true_iff _).1 hc.isSet i
  rw [hsame] at hset
  obtain ⟨b, v, earlier, hlast, hv⟩ := lastStore_of_isSet hearly hset
  refine ⟨earlier, full, early, b, v, hc, hlast, ?_⟩
  rw [hc.arguments, hsame, ← hv]
  rfl

/-- A slot that is set was set before, or has just been stored. -/
theorem stored_or_isSet {h : History σ} {m : Moment σ} {i : Fin σ.arity} (hl : m.Lawful g h)
    (hs : ((current g (m :: h)).slots i).isSet = true) :
    m.isStoreOf i = true ∨ ((h.current g).slots i).isSet = true := by
  by_cases ht : m.Touches i
  · cases m with
    | changed a c s =>
      obtain ⟨rfl, -⟩ := hl
      cases c with
      | stored j v =>
        obtain rfl : j = i := ht
        exact .inl (by simp [Moment.isStoreOf])
      | slotCleared j =>
        obtain rfl : j = i := ht
        simp [current, Change.apply, Slot.vacant] at hs
      | cleared automatic => cases hs
      | _ => cases ht
    | _ => cases ht
  · rw [current_slots_of_not_touches hl ht] at hs
    exact .inr hs

theorem stored_between {mid h : History σ} {i : Fin σ.arity}
    (hl : Each (Moment.Lawful g) (mid ++ h)) (hbefore : ((h.current g).slots i).isSet = false)
    (hafter : ((current g (mid ++ h)).slots i).isSet = true) : ∃ m ∈ mid, m.isStoreOf i = true := by
  induction mid with
  | nil =>
    rw [List.nil_append, hbefore] at hafter
    cases hafter
  | cons m mid ih =>
    rcases stored_or_isSet hl.1 hafter with hm | hs
    · exact ⟨m, List.mem_cons_self, hm⟩
    · obtain ⟨x, hx, hstore⟩ := ih hl.2 hs
      exact ⟨x, List.mem_cons_of_mem _ hx, hstore⟩

/-- Between the calls of `a'` and `a` every slot is stored again. -/
theorem restored {mid before : History σ} {a a' : Activity} {args args' : σ.Arguments}
    (hl : Each (Moment.Lawful g) (.called a args :: (mid ++ .called a' args' :: before)))
    (hc : CallsConsume g (.called a args :: (mid ++ .called a' args' :: before)))
    (i : Fin σ.arity) : ∃ m ∈ mid, m.isStoreOf i = true := by
  obtain ⟨full, early, hnew⟩ := hc.1 a args rfl
  obtain ⟨full', early', hold⟩ := each_at hc.2 rfl a' args' rfl
  obtain ⟨s, hswept⟩ := hnew.swept
  obtain ⟨events, mid', rfl, rfl⟩ := hswept.past rfl id (by simp)
  have hbefore : Each (Moment.Lawful g) (.called a' args' :: before) := each_suffix hl.2
  have hvacant : ((current g (.called a' args' :: before)).slots i).isSet = false := by
    change ((before.current g).slots i).isSet = false
    rw [hold.vacant hbefore.2]
    rfl
  have hfull : Each (Moment.Lawful g) (mid' ++ .called a' args' :: before) := by
    have hl' := hl.2
    rw [List.append_assoc] at hl'
    exact each_before hl' rfl
  have hset := (Slots.allSet_eq_true_iff _).1 hnew.isSet i
  obtain ⟨m, hm, hstore⟩ := stored_between hfull hvacant hset
  exact ⟨m, by simp [hm], hstore⟩

/-- A store that an earlier call handed over is swept before a later call can look for it. -/
theorem handsOver_ne {mid before earlier earlier' : History σ} {a a' : Activity}
    {args args' : σ.Arguments} {i j : Fin σ.arity}
    (hnew : HandsOver g (mid ++ .called a' args' :: before) a args i earlier)
    (hold : before.HandsOver g a' args' j earlier') : earlier ≠ earlier' := by
  rintro rfl
  obtain ⟨full, early, b, v, hc, ⟨s, late, hlast, huntouched⟩, -⟩ := hnew
  obtain ⟨full', early', b', v', hc', ⟨s', late', hlast', -⟩, -⟩ := hold
  obtain ⟨t, hswept⟩ := hc.swept
  obtain ⟨-, mid₁, -, hfull⟩ := hswept.past rfl id (by simp)
  obtain ⟨-, mid₂, -, hearly⟩ := hc.copied.past hfull id (by simp)
  obtain ⟨t', events, hbefore, -⟩ := hc'.swept
  obtain ⟨events', hfull', -⟩ := hc'.copied
  -- both ways of cutting the history at the same store give the same later part
  let between : History σ := mid₂ ++ .called a' args' :: events ++
    .changed a' (.cleared true) t' :: events' ++ .changed a' .copied (full'.current g) :: late'
  have hcut : late ++ .changed b (.stored i v) s :: earlier =
      between ++ .changed b' (.stored j v') s' :: earlier := by
    rw [← hlast, hearly, hbefore, hfull', hlast']
    simp [between]
  have hsame : late = between := by
    have hcut' : (late ++ [.changed b (.stored i v) s]) ++ earlier =
        (between ++ [.changed b' (.stored j v') s']) ++ earlier := by simpa using hcut
    exact (List.append_inj' (List.append_cancel_right hcut') rfl).1
  refine huntouched (.changed a' (.cleared true) t') ?_ trivial
  rw [hsame]
  simp [between]

theorem countP_events {p : Moment σ → Bool} {events : History σ}
    (hev : ∀ e ∈ events, e.IsEvent) (hp : ∀ e, e.IsEvent → p e = false) :
    events.countP p = 0 :=
  List.countP_eq_zero.2 fun e he => by simp [hp e (hev e he)]

/-- The stores to a slot pay for the calls, with one to spare if the slot is set. -/
def Paid (g : Gate σ δ) (i : Fin σ.arity) (h : History σ) : Prop :=
  h.countP Moment.isCall + (if ((h.current g).slots i).isSet then 1 else 0) ≤
    h.countP (Moment.isStoreOf i)

/-- A call costs the value that the sweep took from the slot. -/
theorem Paid.call {h full early : History σ} {a : Activity} {args : σ.Arguments} {i : Fin σ.arity}
    (hp : full.Paid g i) (hc : h.Consumed g a args full early) (hl : h.Each (Moment.Lawful g)) :
    Paid g i (.called a args :: h) := by
  have hvacant : ((current g (.called a args :: h)).slots i).isSet = false := by
    change ((h.current g).slots i).isSet = false
    rw [hc.vacant hl]
    rfl
  obtain ⟨s, events, rfl, hev⟩ := hc.swept
  have hset := (Slots.allSet_eq_true_iff _).1 hc.isSet i
  have hcalls : events.countP Moment.isCall = 0 :=
    countP_events hev fun e he => by cases e <;> first | rfl | cases he
  have hstores : events.countP (Moment.isStoreOf i) = 0 :=
    countP_events hev fun e he => by cases e <;> first | rfl | cases he
  unfold Paid at hp ⊢
  rw [if_pos hset] at hp
  rw [hvacant]
  simp only [List.countP_cons, List.countP_append, hcalls, hstores, Moment.isCall,
    Moment.isStoreOf]
  simpa using hp

theorem Paid.cons {h : History σ} {m : Moment σ} {i : Fin σ.arity} (hp : h.Paid g i)
    (hl : m.Lawful g h) (hm : m.isCall = false) : Paid g i (m :: h) := by
  have hslot := stored_or_isSet (i := i) hl
  unfold Paid at hp ⊢
  rw [List.countP_cons, List.countP_cons, hm, if_neg Bool.false_ne_true]
  by_cases hs : ((current g (m :: h)).slots i).isSet = true
  · rcases hslot hs with hstore | hset
    · rw [if_pos hs, if_pos hstore]
      omega
    · rw [if_pos hset] at hp
      rw [if_pos hs]
      omega
  · rw [if_neg hs]
    omega

theorem paid (i : Fin σ.arity) (h : History σ) (hl : h.Each (Moment.Lawful g))
    (hc : h.CallsConsume g) : h.Paid g i := by
  -- a call is paid for where its slots were swept, so the induction skips to there
  induction hn : h.length using Nat.strongRecOn generalizing h with
  | ind n ih =>
    subst hn
    cases h with
    | nil => simp [Paid, current, Gate.initialState, Slots.vacant, Slot.vacant]
    | cons m h =>
      by_cases hm : ∃ a args, m = .called a args
      · obtain ⟨a, args, rfl⟩ := hm
        obtain ⟨full, early, hconsumed⟩ := hc.1 a args rfl
        have hswept := hconsumed.swept
        obtain ⟨s, events, rfl, -⟩ := hswept
        have hfull := ih full.length (by simp; omega) full (each_before hl.2 rfl)
          (each_before hc.2 rfl) rfl
        exact hfull.call hconsumed hl.2
      · have hcall : m.isCall = false := by
          cases m with
          | called a args => exact absurd ⟨a, args, rfl⟩ hm
          | _ => rfl
        exact (ih h.length (by simp) h hl.2 hc.2 rfl).cons hl.1 hcall

theorem sum_isStoreOf (m : Moment σ) :
    (∑ i, if m.isStoreOf i then 1 else 0) = if m.isStore then 1 else 0 := by
  cases m with
  | changed a c s =>
    cases c <;> simp [Moment.isStoreOf, Moment.isStore]
  | _ => simp [Moment.isStoreOf, Moment.isStore]

theorem sum_stores (h : History σ) :
    ∑ i, h.countP (Moment.isStoreOf i) = h.countP Moment.isStore := by
  induction h with
  | nil => simp
  | cons m h ih =>
    simp only [List.countP_cons]
    rw [Finset.sum_add_distrib, ih, sum_isStoreOf]

/-- The delegate is called at most once for each round of stores to all slots. -/
theorem calls_mul_arity_le {h : History σ} (hl : h.Each (Moment.Lawful g))
    (hc : h.CallsConsume g) : h.countP Moment.isCall * σ.arity ≤ h.countP Moment.isStore := by
  calc h.countP Moment.isCall * σ.arity
      = ∑ _i : Fin σ.arity, h.countP Moment.isCall := by simp [Nat.mul_comm]
    _ ≤ ∑ i, h.countP (Moment.isStoreOf i) :=
      Finset.sum_le_sum fun i _ => Nat.le_of_add_right_le (paid i h hl hc)
    _ = h.countP Moment.isStore := sum_stores h

end History

/-- What a one-shot gate makes of the stores to its slots. Calls and stores are told apart by the
history before them. -/
structure History.OneShot (g : Gate σ δ) (h : History σ) : Prop where
  /-- A call starts on vacant slots. What its fire has just emptied them of is what it is given. -/
  calls : h.Every fun _ m before => ∀ a args, m = .called a args →
    (before.current g).slots = .vacant ∧ ∃ full early, before.Consumed g a args full early
  sweeps : h.SweepsCall g
  /-- Each argument is the stored form of what one store to its slot passed. -/
  sources : h.Every fun _ m before => ∀ a args, m = .called a args →
    ∀ i, ∃ earlier, before.HandsOver g a args i earlier
  restored : ∀ (later mid before : History σ) (a a' : Activity) (args args' : σ.Arguments),
    h = later ++ .called a args :: (mid ++ .called a' args' :: before) →
      ∀ i, ∃ m ∈ mid, m.isStoreOf i = true
  /-- No store is handed over by two calls. -/
  once : ∀ (later mid before : History σ) (a a' : Activity) (args args' : σ.Arguments),
    h = later ++ .called a args :: (mid ++ .called a' args' :: before) →
      ∀ i j earlier earlier', HandsOver g (mid ++ .called a' args' :: before) a args i earlier →
        before.HandsOver g a' args' j earlier' → earlier ≠ earlier'
  paid : h.countP Moment.isCall * σ.arity ≤ h.countP Moment.isStore

namespace Run

/-- Where no subscriber acts on it, a one-shot gate uses up what it hands over, however its delegate
stores, fires, enables, disables and panics, at any depth of calls. -/
theorem one_shot_consumption {g : Gate σ (Delegate σ)} (hone : g.settings.oneShot = true)
    (dispatch : Dispatch) (ops : List (Operation σ)) :
    (performAll g (start g [] dispatch) ops).history.OneShot g := by
  have h := orderly_performAll hone dispatch ops
  have hl := h.recorded.lawful
  obtain ⟨-, hsweeps⟩ := h.stage.at_rest (.inl rfl)
  constructor
  case calls =>
    intro after m before he a args hm
    obtain ⟨full, early, hc⟩ := History.each_at h.calls he a args hm
    exact ⟨hc.vacant (History.each_before hl he), full, early, hc⟩
  case sweeps => exact hsweeps
  case sources =>
    intro after m before he a args hm i
    obtain ⟨full, early, hc⟩ := History.each_at h.calls he a args hm
    exact hc.handsOver (History.each_before hl he) i
  case restored =>
    intro later mid before a a' args args' he
    rw [he] at hl
    have hcalls := h.calls
    rw [he] at hcalls
    exact History.restored (History.each_suffix hl) (History.each_suffix hcalls)
  case once =>
    intro later mid before a a' args args' he i j earlier earlier' hnew hold
    exact History.handsOver_ne hnew hold
  case paid => exact History.calls_mul_arity_le hl h.calls

/-- The delegate fills the gate again in its first call, and is called within it. -/
theorem one_shot_consumption_of_refill :
    let g := Gate.flags { oneShot := true }
      [[.perform (.set Gate.left true), .perform (.set Gate.right false)]]
    let h := (performAll g (start g [] (.registering []))
      [.assign Gate.left true, .set Gate.right true]).history
    g.settings.oneShot = true ∧ h.countP Moment.isCall = 2 ∧ h.OneShot g := by
  refine ⟨rfl, by decide +kernel, ?_⟩
  exact one_shot_consumption rfl _ _

end Run

end SlotGate
