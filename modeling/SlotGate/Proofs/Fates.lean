import SlotGate.Proofs.Delivery

/-!
# What becomes of a store

A value stays in its slot until something touches the slot: another store, an operation that was asked
to empty it, or the sweep of a fire. What a sweep empties was delivered by its call, with two
exceptions. A value stored in the window of the fire is not in its copy, and a panic in the window
takes the call away.
-/
namespace SlotGate

variable {σ : Signature} {δ : Type}

/-- A fire empties the slots here. -/
def Moment.isSweep : Moment σ → Bool
  | changed _ (.cleared true) _ => true
  | _ => false

namespace History

/-- The first of some moments to touch a slot. -/
def firstTouch (i : Fin σ.arity) (after : History σ) : Option (Moment σ) :=
  after.reverse.find? fun m => m.Touches i

/-- What may become of the value `v` that was stored in the slot `i` between `before` and `after`. -/
inductive Accounted (g : Gate σ δ) (h after before : History σ) (i : Fin σ.arity)
    (v : (σ.type i).Carrier) : Prop where
  | kept (untouched : after.firstTouch i = none)
      (content : (h.current g).slots i = .filled ((σ.type i).stored v))
  | replaced {a : Activity} {w : (σ.type i).Carrier} {s : State σ}
      (next : after.firstTouch i = some (.changed a (.stored i w) s))
  | slotCleared {a : Activity} {s : State σ}
      (next : after.firstTouch i = some (.changed a (.slotCleared i) s))
      (asked : .began a (.clearSlot i) ∈ after)
  | cleared {a : Activity} {s : State σ}
      (next : after.firstTouch i = some (.changed a (.cleared false) s))
      (asked : .began a .clear ∈ after)
  | delivered {a : Activity} (call : (a, before.length) ∈ h.deliveries i)

/-- Every store is accounted for. -/
def LosesNothing (g : Gate σ δ) (h : History σ) : Prop :=
  h.Every fun after m before => ∀ a i v s, m = .changed a (.stored i v) s →
    Accounted g h after before i v

/-- The value that was stored in the slot `i` between `before` and `after` is emptied away by a fire
that does not deliver it. -/
inductive SweptAway (h after before : History σ) (i : Fin σ.arity) : Prop where
  /-- The slots are emptied by a fire that had copied them before the store. -/
  | late {a : Activity} {s s' : State σ}
      (next : after.firstTouch i = some (.changed a (.cleared true) s))
      (copied : .changed a .copied s' ∈ before)
  /-- The slots are emptied by a fire that has the value in its copy but never makes its call, because
  of a panic. -/
  | unwound {a : Activity} {s s' : State σ} {later mid : History σ}
      (next : after.firstTouch i = some (.changed a (.cleared true) s))
      (copied : after = later ++ .changed a .copied s' :: mid)
      (found : (h.beforeCopy a).lastStored i = some before.length)
      (uncalled : ∀ args, .called a args ∉ h) (panics : Unwound later)

theorem firstTouch_eq_none {i : Fin σ.arity} {after : History σ}
    (h : after.firstTouch i = none) : ∀ m ∈ after, ¬ m.Touches i := by
  intro m hm
  simpa using List.find?_eq_none.1 h m (List.mem_reverse.2 hm)

theorem firstTouch_eq_some {i : Fin σ.arity} {after : History σ} {m : Moment σ}
    (h : after.firstTouch i = some m) :
    m.Touches i ∧ ∃ later mid, after = later ++ m :: mid ∧ ∀ x ∈ mid, ¬ x.Touches i := by
  obtain ⟨ht, mid, later, he, hmid⟩ := List.find?_eq_some_iff_append.1 h
  refine ⟨by simpa using ht, later.reverse, mid.reverse, ?_, fun x hx => ?_⟩
  · have hr := congrArg List.reverse he
    simpa using hr
  · simpa using hmid x (List.mem_reverse.1 hx)

/-- What lies right before a moment lies after every other moment that is earlier. -/
theorem mem_of_began {mid before earlier : History σ} {m : Moment σ} {a : Activity}
    {op : Operation σ} (he : mid ++ m :: before = .began a op :: earlier)
    (hm : m ≠ .began a op) : .began a op ∈ mid := by
  cases mid with
  | nil => exact absurd (List.cons.inj he).1 hm
  | cons x mid =>
    obtain ⟨rfl, -⟩ := List.cons.inj he
    exact List.mem_cons_self

variable {g : Gate σ δ}

/-- A store that is in a copy is delivered when the call is made. -/
theorem Provenance.delivered_of_copied {h early : History σ} {a : Activity} {s : State σ}
    {args : σ.Arguments} {i : Fin σ.arity} {n : Nat} (hp : h.Provenance g)
    (hone : h.countP (Moment.isCopyOf a) ≤ 1) (hcopy : .changed a .copied s :: early <:+ h)
    (hn : early.lastStored i = some n) (hcall : .called a args ∈ h) : (a, n) ∈ h.deliveries i := by
  obtain ⟨after, before, he⟩ := List.append_of_mem hcall
  obtain ⟨s', early', -, -, -, hcopy', hbefore, -⟩ := hp.delivers he i
  have hsame : early' = early :=
    (beforeCopy_eq hone hcopy').symm.trans (beforeCopy_eq hone hcopy)
  refine mem_deliveries.2 ⟨args, before, ?_, ?_⟩
  · rw [he]
    exact List.suffix_append _ _
  · rw [hbefore, hsame, hn]

/-- What the sweep of `a` empties was stored in the window, or is delivered, or was unwound. -/
theorem accounted_of_swept {h later mid before : History σ} {a b : Activity}
    {i : Fin σ.arity} {v : (σ.type i).Carrier} {s t : State σ} {args : σ.Arguments}
    (hp : h.Provenance g) (hone : h.countP (Moment.isCopyOf a) ≤ 1)
    (he : h = (later ++ .changed a (.cleared true) t :: mid) ++ .changed b (.stored i v) s :: before)
    (hmid : ∀ x ∈ mid, ¬ x.Touches i)
    (hnext : firstTouch i (later ++ .changed a (.cleared true) t :: mid) =
      some (.changed a (.cleared true) t))
    (hcopy : ReadyCopy g (mid ++ .changed b (.stored i v) s :: before) a args) :
    Accounted g h (later ++ .changed a (.cleared true) t :: mid) before i v ∨
      SweptAway h (later ++ .changed a (.cleared true) t :: mid) before i := by
  obtain ⟨s', early, hcopy, hready⟩ := hcopy
  obtain ⟨-, hbound, hset, -⟩ := Gate.decision_eq_ready_iff.1 hready
  rcases earlier_or_later hcopy (List.suffix_append mid _) with ⟨hm, -⟩ | hs | hs
  · cases hm
  · exact .inr (.late hnext (hs.subset List.mem_cons_self))
  · obtain ⟨late, rfl⟩ := hs
    obtain ⟨mid', hmid'⟩ := hcopy
    obtain rfl : mid = mid' ++ .changed a .copied s' :: late := by
      have hcut : mid ++ .changed b (.stored i v) s :: before =
          (mid' ++ .changed a .copied s' :: late) ++ .changed b (.stored i v) s :: before := by
        simpa using hmid'.symm
      exact List.append_cancel_right hcut
    let early : History σ := late ++ .changed b (.stored i v) s :: before
    have hsplit : h = (later ++ .changed a (.cleared true) t :: mid') ++
        .changed a .copied s' :: early := by simp [he, early]
    have hearly : .changed a .copied s' :: early <:+ h := hsplit ▸ List.suffix_append _ _
    -- the copy found the store in its slot
    have hlast : LastStore early i b v before :=
      ⟨s, late, rfl, fun x hx => hmid x (List.mem_append_right _ (List.mem_cons_of_mem _ hx))⟩
    by_cases hcall : ∃ args, .called a args ∈ h
    · obtain ⟨args, hcall⟩ := hcall
      exact .inl (.delivered (hp.delivered_of_copied hone hearly hlast.lastStored_eq hcall))
    · have hcall := not_exists.1 hcall
      rcases hp.copies _ _ _ hsplit a s' rfl hbound hset with hc | hpanics
      · exact absurd (hsplit ▸ List.mem_append_left _ hc) (hcall _)
      · have hcopied : later ++ .changed a (.cleared true) t :: (mid' ++ .changed a .copied s' :: late) =
            (later ++ .changed a (.cleared true) t :: mid') ++ .changed a .copied s' :: late := by simp
        refine .inr (.unwound hnext hcopied ?_ hcall hpanics)
        rw [beforeCopy_eq hone hearly]
        exact hlast.lastStored_eq

/-- Every store of a one-shot gate is accounted for, but for those that fall into the window of a fire
or are unwound with one. -/
theorem accounted_of_stored {h after before : History σ} {b : Activity} {i : Fin σ.arity}
    {v : (σ.type i).Carrier} {s : State σ} (hp : h.Provenance g)
    (hl : h.Each (Moment.Lawful g))
    (hsweeps : h.Each fun m before => ∀ a s, m = .changed a (.cleared true) s →
      ∃ args, before.ReadyCopy g a args)
    (hone : ∀ a, h.countP (Moment.isCopyOf a) ≤ 1)
    (he : h = after ++ .changed b (.stored i v) s :: before) :
    Accounted g h after before i v ∨ SweptAway h after before i := by
  cases hnext : after.firstTouch i with
  | none =>
    refine .inl (.kept hnext ?_)
    rw [he] at hl ⊢
    rw [current_slots_of_untouched hl (firstTouch_eq_none hnext)]
    obtain ⟨rfl, -⟩ := (each_suffix hl).1
    exact Slots.put_same _ _ _
  | some m =>
    obtain ⟨ht, later, mid, rfl, hmid⟩ := firstTouch_eq_some hnext
    have he' : h = later ++ m :: (mid ++ .changed b (.stored i v) s :: before) := by simp [he]
    cases m with
    | changed a c t =>
      have hlaw := each_at hl he'
      cases c with
      | stored j w =>
        obtain rfl : j = i := ht
        exact .inl (.replaced hnext)
      | slotCleared j =>
        obtain rfl : j = i := ht
        obtain ⟨earlier, hbegan⟩ := slotCleared_asked hlaw
        have hasked := mem_of_began hbegan (by simp)
        exact .inl (.slotCleared hnext (by simp [hasked]))
      | cleared automatic =>
        cases automatic with
        | false =>
          obtain ⟨earlier, hbegan⟩ := cleared_asked hlaw
          have hasked := mem_of_began hbegan (by simp)
          exact .inl (.cleared hnext (by simp [hasked]))
        | true =>
          obtain ⟨args, hcopy⟩ := each_at hsweeps he' a t rfl
          exact accounted_of_swept hp (hone a) he hmid hnext hcopy
      | _ => cases ht
    | _ => cases ht

theorem not_losesNothing {h : History σ} {i : Fin σ.arity} (k : Nat) (hk : k < h.length)
    (hstore : h[k].isStoreOf i = true)
    (hswept : (firstTouch i (h.take k)).any Moment.isSweep = true)
    (hundelivered : (h.drop (k + 1)).length ∉ (h.deliveries i).map Prod.snd) :
    ¬ h.LosesNothing g := by
  intro hl
  have he : h = h.take k ++ h[k] :: h.drop (k + 1) := by
    rw [← List.drop_eq_getElem_cons hk, List.take_append_drop]
  obtain ⟨a, v, s, hm⟩ : ∃ a v s, h[k] = .changed a (.stored i v) s := by
    cases hm : h[k] with
    | changed a c s =>
      rw [hm] at hstore
      cases c with
      | stored j v =>
        obtain rfl : i = j := by simpa [Moment.isStoreOf] using hstore
        exact ⟨a, v, s, rfl⟩
      | _ => cases hstore
    | _ => rw [hm] at hstore; cases hstore
  cases hl _ _ _ he a i v s hm with
  | kept untouched => simp [untouched] at hswept
  | replaced next => simp [next, Moment.isSweep] at hswept
  | slotCleared next => simp [next, Moment.isSweep] at hswept
  | cleared next => simp [next, Moment.isSweep] at hswept
  | delivered call => exact hundelivered (List.mem_map.2 ⟨_, call, rfl⟩)

end History

namespace Run

/-- A one-shot gate loses no store, whoever acts on it, but for those that a sweep finds in its slots
without its call having them. -/
theorem stores_accounted {g : Gate σ (Delegate σ)} (hone : g.settings.oneShot = true)
    (reactions : List (Reaction σ)) (dispatch : Dispatch) (ops : List (Operation σ)) :
    let h := (performAll g (start g reactions dispatch) ops).history
    h.Every fun after m before => ∀ a i v s, m = .changed a (.stored i v) s →
      h.Accounted g after before i v ∨ h.SweptAway after before i := by
  intro h after m before he a i v s hm
  subst hm
  exact History.accounted_of_stored (arguments_provenance g reactions dispatch ops)
    (recorded_performAll g reactions dispatch ops).lawful
    (windowed_performAll hone reactions dispatch ops).sweeps (copies_le_one g reactions dispatch ops) he

/-- The subscriber assigns a value in the window of a fire. -/
theorem stores_accounted_of_assign_in_window :
    let g := Gate.flags { oneShot := true, debug := true } []
    let r := performAll g (start g [⟨"gate.fire", [.assign Gate.left false]⟩] (.registering []))
      [.assign Gate.left true, .set Gate.right true]
    g.settings.oneShot = true ∧ r.state.slots.allSet = false ∧
      r.history.Every fun after m before => ∀ a i v s, m = .changed a (.stored i v) s →
        r.history.Accounted g after before i v ∨ r.history.SweptAway after before i := by
  refine ⟨rfl, by decide +kernel, ?_⟩
  exact stores_accounted rfl _ _ _

/-- A value that is assigned in the window of a fire is lost, and so are the values that a fire has
copied when the delegate panics in a call that a subscriber makes in the window. -/
theorem not_losesNothing_of_acting_in_window :
    let g := Gate.flags { oneShot := true, debug := true } []
    let assigns := performAll g (start g [⟨"gate.fire", [.assign Gate.left false]⟩] (.registering []))
      [.assign Gate.left true, .set Gate.right true]
    let g' := Gate.flags { oneShot := true, debug := true } [[.panic]]
    let panics := performAll g'
      (start g' [⟨"gate.clear", [.set Gate.left true, .set Gate.right true]⟩] (.registering []))
      [.assign Gate.left true, .set Gate.right true]
    ¬ assigns.history.LosesNothing g ∧ ¬ panics.history.LosesNothing g' := by
  constructor
  · refine History.not_losesNothing (i := Gate.left) 7 (by decide +kernel) ?_ ?_ ?_ <;>
      decide +kernel
  · refine History.not_losesNothing (i := Gate.left) 24 (by decide +kernel) ?_ ?_ ?_ <;>
      decide +kernel

end Run

end SlotGate
