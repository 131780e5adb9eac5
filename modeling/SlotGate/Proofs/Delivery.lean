import SlotGate.Proofs.Window

/-!
# Which stores reach the delegate

A store is delivered by each call whose copy found its value in the slot. In the window of a fire the
slots are still set. So a store is delivered again by a fire that copies the slots there, and by a
later one if the gate was disabled when they were to be emptied. And a store that falls into the
window is emptied away with the values that were copied before it. Nothing else repeats a store or
loses one, but for a panic in the window.
-/
namespace SlotGate

variable {σ : Signature} {δ : Type}

instance Change.decidableTouches (i : Fin σ.arity) : (c : Change σ) → Decidable (c.Touches i)
  | stored j _ => inferInstanceAs (Decidable (j = i))
  | slotCleared j => inferInstanceAs (Decidable (j = i))
  | cleared _ => isTrue trivial
  | refused | copied | enabledSet _ | debugSet _ | looked => isFalse id

instance Moment.decidableTouches (i : Fin σ.arity) : (m : Moment σ) → Decidable (m.Touches i)
  | changed _ c _ => c.decidableTouches i
  | began .. | emitted .. | called .. | returned _ | finished .. | panicked => isFalse id

namespace History

/-- Which store a slot owes its value to. A store is named by the number of moments before it. -/
def lastStored (i : Fin σ.arity) : History σ → Option Nat
  | [] => none
  | m :: before =>
    if m.Touches i then if m.isStoreOf i then some before.length else none
    else lastStored i before

/-- The history before `a` copied the slots. -/
def beforeCopy (a : Activity) : History σ → History σ
  | [] => []
  | m :: before => if m.isCopyOf a then before else beforeCopy a before

end History

/-- Who calls the delegate here, and which store to the slot `i` the call delivers. -/
def Moment.delivery (i : Fin σ.arity) (before : History σ) : Moment σ → Option (Activity × Nat)
  | called a _ => ((before.beforeCopy a).lastStored i).map fun n => (a, n)
  | _ => none

namespace History

/-- The deliveries of stores to the slot `i`, one for each call, the latest first. -/
def deliveries (i : Fin σ.arity) : History σ → List (Activity × Nat)
  | [] => []
  | m :: before => (m.delivery i before).toList ++ deliveries i before

/-- No store is delivered by two calls. -/
def DeliveredOnce (h : History σ) : Prop :=
  ∀ i, ((h.deliveries i).map Prod.snd).Nodup

/-- The activity `b` copied the slots before `a`, which had copied them, emptied them; or the gate was
disabled when `a` came to empty them. -/
def Overtaken (h : History σ) (a b : Activity) : Prop :=
  ∃ c window early, h.Window a c window early ∧
    ((∃ s, .changed b .copied s ∈ window) ∨ c = .refused)

theorem mem_deliveries {h : History σ} {i : Fin σ.arity} {a : Activity} {n : Nat} :
    (a, n) ∈ h.deliveries i ↔
      ∃ args before, .called a args :: before <:+ h ∧
        lastStored i (beforeCopy a before) = some n := by
  induction h with
  | nil => simp [deliveries]
  | cons m h ih =>
    simp only [deliveries, List.mem_append, Option.mem_toList, ih, List.suffix_cons_iff]
    constructor
    · rintro (hm | ⟨args, before, hs, hn⟩)
      · cases m with
        | called b args =>
          obtain ⟨n', hn, he⟩ := Option.map_eq_some_iff.1 hm
          cases he
          exact ⟨args, h, .inl rfl, hn⟩
        | _ => cases hm
      · exact ⟨args, before, .inr hs, hn⟩
    · rintro ⟨args, before, hs | hs, hn⟩
      · cases hs
        exact .inl (by simp [Moment.delivery, hn])
      · exact .inr ⟨args, before, hs, hn⟩

theorem LastStore.lastStored_eq {h earlier : History σ} {i : Fin σ.arity} {a : Activity}
    {v : (σ.type i).Carrier} (hl : h.LastStore i a v earlier) :
    h.lastStored i = some earlier.length := by
  obtain ⟨s, late, rfl, hlate⟩ := hl
  induction late with
  | nil => simp [lastStored, Moment.Touches, Change.Touches, Moment.isStoreOf]
  | cons m late ih =>
    obtain ⟨hm, hlate⟩ := List.forall_mem_cons.1 hlate
    rw [List.cons_append, lastStored, if_neg hm]
    exact ih hlate

theorem lastStored_lt {h : History σ} {i : Fin σ.arity} {n : Nat}
    (hn : h.lastStored i = some n) : n < h.length := by
  induction h with
  | nil => cases hn
  | cons m h ih =>
    rw [lastStored] at hn
    rw [List.length_cons]
    split at hn
    · split at hn
      · cases hn
        exact Nat.lt_succ_self _
      · cases hn
    · exact Nat.lt_succ_of_lt (ih hn)

/-- The store that a slot owes its value to is not older than any moment that touched the slot. -/
theorem le_lastStored {h before : History σ} {m : Moment σ} {i : Fin σ.arity} {n : Nat}
    (hn : h.lastStored i = some n) (hm : m :: before <:+ h) (ht : m.Touches i) :
    before.length ≤ n := by
  induction h with
  | nil => cases hn
  | cons x h ih =>
    rw [lastStored] at hn
    rcases List.suffix_cons_iff.1 hm with he | hs
    · obtain ⟨rfl, rfl⟩ := List.cons.inj he
      rw [if_pos ht] at hn
      split at hn <;> cases hn
      exact Nat.le_refl _
    · split at hn
      · split at hn <;> cases hn
        have hlen := hs.length_le
        rw [List.length_cons] at hlen
        exact Nat.le_of_succ_le hlen
      · exact ih hn hs

theorem beforeCopy_eq {h early : History σ} {a : Activity} {s : State σ}
    (hone : h.countP (Moment.isCopyOf a) ≤ 1) (hs : .changed a .copied s :: early <:+ h) :
    h.beforeCopy a = early := by
  induction h with
  | nil => exact absurd (List.suffix_nil.1 hs) (by simp)
  | cons m h ih =>
    rcases List.suffix_cons_iff.1 hs with he | hs
    · obtain ⟨rfl, rfl⟩ := List.cons.inj he
      simp [beforeCopy, Moment.isCopyOf]
    · have hpos : 0 < h.countP (Moment.isCopyOf a) :=
        List.countP_pos_iff.2 ⟨_, hs.subset List.mem_cons_self, by simp [Moment.isCopyOf]⟩
      rw [List.countP_cons] at hone
      by_cases hm : m.isCopyOf a = true
      · rw [if_pos hm] at hone
        omega
      · rw [beforeCopy, if_neg hm]
        exact ih (by omega) hs

/-- A moment that came after all of `rest` lies in what `rest` was continued by. -/
theorem mem_of_suffix_append {late rest before : History σ} {m : Moment σ}
    (hs : m :: before <:+ late ++ rest) (hlen : rest.length ≤ before.length) : m ∈ late := by
  obtain ⟨l, hl⟩ := hs
  rcases List.append_eq_append_iff.1 hl with ⟨r, rfl, hr⟩ | ⟨r, -, hr⟩
  · cases r with
    | nil =>
      have hrest := congrArg List.length hr
      simp only [List.nil_append, List.length_cons] at hrest
      omega
    | cons x r =>
      obtain ⟨rfl, -⟩ := List.cons.inj hr
      simp
  · have hrest := congrArg List.length hr
    simp only [List.length_append, List.length_cons] at hrest
    omega

end History

namespace Run

variable {g : Gate σ δ}

/-- A task makes a call that was asked for, or asks for one with the copy that it makes. -/
theorem calls_le (g : Gate σ δ) (a : Activity) {r : Run σ} {t : Task σ} {new : History σ}
    {s : State σ} (hu : r.unwinding = false) (h : Task.Effect r t new s) :
    new.countP (Moment.isCallOf a) + (t.step g r).1.countP (Task.isCallOf a) ≤
      new.countP (Moment.isCopyOf a) + if t.isCallOf a then 1 else 0 := by
  rcases Task.quiet_or_ready g t r with hquiet | ⟨b, args, rfl, hready⟩
  · have hcalls : (t.step g r).1.countP (Task.isCallOf a) = 0 := by
      refine List.countP_eq_zero.2 fun u hu' hc => hquiet u hu' ?_
      cases u <;> trivial
    rw [hcalls]
    cases h <;> simp [Moment.isCallOf, Task.isCallOf]
  · have hen := (Gate.decision_eq_ready_iff.1 hready).1
    cases h
    simp only [Task.step, hu, Bool.false_eq_true, if_false, Task.attemptStep_ready hready, hen,
      if_true]
    cases g.settings.oneShot <;>
      simp [Moment.isCallOf, Moment.isCopyOf, Task.isCallOf, List.countP_cons]

/-- A call needs a copy of its own. -/
theorem calls_invariant (g : Gate σ δ) (a : Activity) :
    Invariant g (fun _ => True) fun tasks r =>
      r.history.countP (Moment.isCallOf a) + tasks.countP (Task.isCallOf a) ≤
        r.history.countP (Moment.isCopyOf a) where
  begins op r _ _ h := by simpa [Task.isCallOf] using h
  keeps t rest r _ hu h := by
    obtain ⟨new, s, heffect, -, hnew⟩ := Task.step_effect g hu t
    have hcalls := calls_le g a hu heffect
    rw [hnew, List.countP_append, List.countP_append, List.countP_append]
    rw [List.countP_cons] at h
    omega
  drops t rest r _ h := by
    rw [List.countP_cons] at h
    omega
  settles r h := h

/-- One activity calls the delegate at most once. -/
theorem calls_le_one (g : Gate σ (Delegate σ)) (reactions : List (Reaction σ))
    (dispatch : Dispatch) (ops : List (Operation σ)) (a : Activity) :
    (performAll g (start g reactions dispatch) ops).history.countP (Moment.isCallOf a) ≤ 1 := by
  have hcalls := (calls_invariant g a).performAll ops (fun _ _ => trivial) rfl
    (show _ from by simp [start] : _ ≤ (start g reactions dispatch).history.countP (Moment.isCopyOf a))
  have hcopies := copies_le_one g reactions dispatch ops a
  simp only [List.countP_nil, Nat.add_zero] at hcalls
  exact hcalls.trans hcopies

end Run

namespace History

variable {g : Gate σ δ}

/-- A call delivers, for each slot, the store whose value it is given. -/
theorem Provenance.delivers {h after before : History σ} {a : Activity} {args : σ.Arguments}
    (hp : h.Provenance g) (he : h = after ++ .called a args :: before) (i : Fin σ.arity) :
    ∃ (s : State σ) (early : History σ) (b : Activity) (v : (σ.type i).Carrier)
      (earlier : History σ), .changed a .copied s :: early <:+ h ∧ before.beforeCopy a = early ∧
        early.LastStore i b v earlier ∧ args i = (σ.type i).stored v := by
  obtain ⟨hcopies, mid, s, early, rfl, hsnap⟩ := hp.calls _ _ _ he a args rfl
  have hcopy : .changed a .copied s :: early <:+ mid ++ .changed a .copied s :: early :=
    List.suffix_append _ _
  have hbefore : mid ++ .changed a .copied s :: early <:+ h := before_suffix he
  obtain ⟨b, v, earlier, hlast, hv, -⟩ := hsnap.stored i
  refine ⟨s, early, b, v, earlier, hcopy.trans hbefore, ?_, hlast, hv⟩
  exact beforeCopy_eq (hcopies ▸ hbefore.sublist.countP_le) hcopy

/-- Of two fires that copied the same store, the one that copied it first was overtaken. -/
theorem overtaken_of_copied {h early early' : History σ} {a b : Activity} {s s' : State σ}
    {i : Fin σ.arity} {n : Nat} (hw : ∃ c window early, h.Window a c window early)
    (hone : h.countP (Moment.isCopyOf a) ≤ 1) (ha : .changed a .copied s :: early <:+ early')
    (hb : .changed b .copied s' :: early' <:+ h) (hn : early.lastStored i = some n)
    (hn' : early'.lastStored i = some n) : h.Overtaken a b := by
  obtain ⟨c, window, early'', hw⟩ := hw
  refine ⟨c, window, early'', hw, ?_⟩
  obtain ⟨hc, s'', t, hsweep⟩ := hw
  -- the window is the one that the copy of `a` opened
  obtain rfl : early'' = early := by
    have hcopy : .changed a .copied s'' :: early'' <:+ h :=
      ((List.suffix_append window _).trans (List.suffix_cons _ _)).trans hsweep
    have hcopy' : .changed a .copied s :: early <:+ h :=
      (ha.trans (List.suffix_cons _ _)).trans hb
    exact (beforeCopy_eq hone hcopy).symm.trans (beforeCopy_eq hone hcopy')
  rcases earlier_or_later hsweep hb with ⟨he, -⟩ | hs | hs
  · obtain ⟨-, rfl, -⟩ := Moment.changed.inj he
    rcases hc with hc | hc <;> cases hc
  · rcases hc with rfl | rfl
    · -- what `a` emptied cannot be what `b` copied
      have hle := le_lastStored hn' hs trivial
      have hlt := lastStored_lt hn
      simp only [List.length_append, List.length_cons] at hle
      omega
    · exact .inr rfl
  · have hlen := ha.length_le
    exact .inl ⟨s', mem_of_suffix_append hs (by simpa using hlen)⟩

/-- What each call of a one-shot gate delivers, and when a store is delivered again. -/
structure OnceUnlessOvertaken (h : History σ) : Prop where
  /-- Each argument of a call is the stored form of what one store to its slot passed. -/
  calls : h.Every fun _ m before => ∀ a args, m = .called a args → ∀ i, ∃ b v earlier,
    m.delivery i before = some (a, earlier.length) ∧ (before.beforeCopy a).LastStore i b v earlier ∧
      args i = (σ.type i).stored v
  /-- Calls are made by different activities. If two deliver one store, one of them was overtaken. -/
  again : ∀ i, (h.deliveries i).Pairwise fun d e =>
    d.1 ≠ e.1 ∧ (d.2 = e.2 → h.Overtaken d.1 e.1 ∨ h.Overtaken e.1 d.1)

/-- Calls that are made after `h` and that `h` holds already: of two that deliver one store, one was
overtaken. -/
theorem overtaken_of_delivered {h : History σ} {a b : Activity} {i : Fin σ.arity} {n : Nat}
    (hp : h.Provenance g)
    (hw : h.Each fun m before => ∀ a args, m = .called a args →
      ∃ c window early, before.Window a c window early)
    (hab : a ≠ b) (ha : (a, n) ∈ h.deliveries i) (hb : (b, n) ∈ h.deliveries i) :
    h.Overtaken a b ∨ h.Overtaken b a := by
  have facts : ∀ {a}, (a, n) ∈ h.deliveries i → ∃ (s : State σ) (early : History σ),
      .changed a .copied s :: early <:+ h ∧ h.countP (Moment.isCopyOf a) ≤ 1 ∧
        early.lastStored i = some n ∧ ∃ c window early, h.Window a c window early := by
    intro a ha
    obtain ⟨args, before, ⟨after, he⟩, hn⟩ := mem_deliveries.1 ha
    obtain ⟨s, early, b, v, earlier, hcopy, rfl, hlast, -⟩ := hp.delivers he.symm i
    obtain ⟨c, window, early, hwindow⟩ := each_at hw he.symm a args rfl
    exact ⟨s, _, hcopy, (hp.calls _ _ _ he.symm a args rfl).1.le, hn, c, window, early,
      hwindow.mono (before_suffix he.symm)⟩
  obtain ⟨s, early, hcopy, hone, hn, hwindow⟩ := facts ha
  obtain ⟨s', early', hcopy', hone', hn', hwindow'⟩ := facts hb
  rcases earlier_or_later hcopy hcopy' with ⟨he, -⟩ | hs | hs
  · exact absurd (Moment.changed.inj he).1 hab
  · exact .inl (overtaken_of_copied hwindow hone hs hcopy' hn hn')
  · exact .inr (overtaken_of_copied hwindow' hone' hs hcopy hn' hn)

theorem pairwise_deliveries {R : Activity × Nat → Activity × Nat → Prop} {h : History σ}
    {i : Fin σ.arity} (hone : ∀ a, h.countP (Moment.isCallOf a) ≤ 1)
    (hR : ∀ d ∈ h.deliveries i, ∀ e ∈ h.deliveries i, d.1 ≠ e.1 → R d e) :
    (h.deliveries i).Pairwise fun d e => d.1 ≠ e.1 ∧ R d e := by
  induction h with
  | nil => exact .nil
  | cons m h ih =>
    rw [deliveries]
    refine List.pairwise_append.2 ⟨?_, ih (fun a => ?_) (fun d hd e he => ?_), fun d hd e he => ?_⟩
    · cases m.delivery i h <;> simp
    · exact ((List.suffix_cons m h).sublist.countP_le).trans (hone a)
    · exact hR d (List.mem_append_right _ hd) e (List.mem_append_right _ he)
    · -- an activity that has called before does not call again
      have hne : d.1 ≠ e.1 := by
        cases m with
        | called a args =>
          obtain ⟨n, -, rfl⟩ := Option.map_eq_some_iff.1 (Option.mem_toList.1 hd)
          rintro rfl
          obtain ⟨args', before, hs, -⟩ := mem_deliveries.1 he
          have hpos : 0 < h.countP (Moment.isCallOf e.1) :=
            List.countP_pos_iff.2 ⟨_, hs.subset List.mem_cons_self, by simp [Moment.isCallOf]⟩
          have hle := hone e.1
          rw [List.countP_cons, if_pos (by simp [Moment.isCallOf])] at hle
          omega
        | _ => cases hd
      exact ⟨hne, hR d (List.mem_append_left _ hd) e (List.mem_append_right _ he) hne⟩

end History

namespace Run

/-- A one-shot gate delivers a store once, whoever acts on it, unless a fire is overtaken in its
window. -/
theorem delivered_once_or_overtaken {g : Gate σ (Delegate σ)} (hone : g.settings.oneShot = true)
    (reactions : List (Reaction σ)) (dispatch : Dispatch) (ops : List (Operation σ)) :
    (performAll g (start g reactions dispatch) ops).history.OnceUnlessOvertaken := by
  have hprov := arguments_provenance g reactions dispatch ops
  have hwindowed := windowed_performAll hone reactions dispatch ops
  constructor
  case calls =>
    intro after m before he a args hm i
    subst hm
    obtain ⟨-, early, b, v, earlier, -, rfl, hlast, hv⟩ := hprov.delivers he i
    exact ⟨b, v, earlier, by simp [Moment.delivery, hlast.lastStored_eq], hlast, hv⟩
  case again =>
    intro i
    refine History.pairwise_deliveries (calls_le_one g reactions dispatch ops) ?_
    rintro ⟨a, n⟩ ha ⟨b, n'⟩ hb hab rfl
    exact History.overtaken_of_delivered hprov hwindowed.calls hab ha hb

/-- The subscriber fires the gate in the window of a fire. -/
theorem delivered_once_or_overtaken_of_nested_fire :
    let g := Gate.flags { oneShot := true, debug := true } []
    let r := performAll g (start g [⟨"gate.fire", [.fire]⟩] (.registering []))
      [.assign Gate.left true, .set Gate.right true]
    g.settings.oneShot = true ∧ r.history.countP Moment.isCall = 2 ∧ r.history.OnceUnlessOvertaken := by
  refine ⟨rfl, by decide +kernel, ?_⟩
  exact delivered_once_or_overtaken rfl _ _ _

/-- A store is delivered twice if the gate is fired, or disabled for a while, between the copy of a
fire and its sweep. -/
theorem not_deliveredOnce_of_acting_in_window :
    let g := Gate.flags { oneShot := true, debug := true } []
    let fires := performAll g (start g [⟨"gate.fire", [.fire]⟩] (.registering []))
      [.assign Gate.left true, .set Gate.right true]
    let disables := performAll g (start g [⟨"gate.fire", [.setEnabled false]⟩] (.registering []))
      [.assign Gate.left true, .set Gate.right true, .setEnabled true, .fire]
    ¬ fires.history.DeliveredOnce ∧ ¬ disables.history.DeliveredOnce := by
  refine ⟨fun h => absurd (h Gate.left) ?_, fun h => absurd (h Gate.left) ?_⟩
  · decide +kernel
  · decide +kernel

end Run

end SlotGate
