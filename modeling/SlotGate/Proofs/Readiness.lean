import SlotGate.Proofs.Passage
import SlotGate.Proofs.Picture
import SlotGate.Proofs.Provenance
import SlotGate.Proofs.SlotNames

/-!
# Views of readiness

What is set can be asked of a gate slot by slot, by names, by numbers and as a whole. The answers are
computed apart from one another, some along the names and some along the slots, and agree because a
gate has one name for each slot and no two alike. A fire goes by the same answer.
-/
namespace SlotGate

variable {σ : Signature} {δ : Type}

namespace Gate

theorem slotNames_eq (g : Gate σ δ) : g.slotNames.toList = σ.positions.map g.slotName := by
  refine List.ext_getElem (by simp [Signature.positions]) fun k hk hk' => ?_
  simp [Signature.positions, slotName]

theorem indexOf_slotName (g : Gate σ δ) (i : Fin σ.arity) : g.indexOf (g.slotName i) = some i.val := by
  refine List.findIdx?_eq_some_iff_getElem.2 ⟨by simp, by simp [slotName], fun k hk => ?_⟩
  have hne : g.slotName ⟨k, hk.trans i.isLt⟩ ≠ g.slotName i := fun h =>
    absurd (congrArg Fin.val (g.slotName_injective h)) hk.ne
  simpa [slotName] using hne

theorem indexOf_eq_none (g : Gate σ δ) {n : String} (h : n ∉ g.slotNames.toList) :
    g.indexOf n = none := by
  refine List.findIdx?_eq_none_iff.2 fun m hm => ?_
  exact beq_eq_false_iff_ne.2 fun he => h (he ▸ hm)

theorem indexOf_eq_some_iff (g : Gate σ δ) {n : String} {i : Fin σ.arity} :
    g.indexOf n = some i.val ↔ n = g.slotName i := by
  constructor
  · intro h
    by_cases hn : n ∈ g.slotNames.toList
    · rw [slotNames_eq] at hn
      obtain ⟨j, -, rfl⟩ := List.mem_map.1 hn
      rw [indexOf_slotName, Option.some.injEq] at h
      rw [Fin.ext h]
    · rw [g.indexOf_eq_none hn] at h
      cases h
  · rintro rfl
    exact g.indexOf_slotName i

theorem mem_pending_iff (g : Gate σ δ) (s : Slots σ) {n : String} :
    n ∈ g.pending s ↔ ∃ i, n = g.slotName i ∧ (s i).isSet = false := by
  simp only [pending, List.mem_map, List.mem_filter, Signature.positions, List.mem_finRange, true_and,
    Bool.not_eq_true']
  constructor
  · rintro ⟨i, hi, rfl⟩
    exact ⟨i, rfl, hi⟩
  · rintro ⟨i, rfl, hi⟩
    exact ⟨i, hi, rfl⟩

theorem pending_sublist (g : Gate σ δ) (s : Slots σ) : (g.pending s).Sublist g.slotNames.toList := by
  rw [slotNames_eq]
  exact List.filter_sublist.map _

theorem pending_eq_nil_iff (g : Gate σ δ) (s : Slots σ) : g.pending s = [] ↔ s.allSet = true := by
  rw [pending, List.map_eq_nil_iff, List.filter_eq_nil_iff, Slots.allSet_eq_true_iff]
  simp [Signature.positions]

/-- The unset slots, counted along the names. -/
theorem pending_eq_walk (g : Gate σ δ) (s : Slots σ) :
    g.pending s = (g.slotNames.toList.zipIdx.filter fun p => !s.isSetAt p.2).map Prod.fst := by
  have hnames : g.slotNames.toList.zipIdx = σ.positions.map fun i => (g.slotName i, i.val) := by
    refine List.ext_getElem (by simp [Signature.positions]) fun k hk hk' => ?_
    simp [Signature.positions, slotName]
  rw [hnames, List.filter_map, List.map_map, pending]
  congr 1
  refine List.filter_congr fun i _ => ?_
  simp [Slots.isSetAt]

end Gate

theorem Slots.isSetAt_of_le (s : Slots σ) {k : Nat} (h : σ.arity ≤ k) : s.isSetAt k = false :=
  dif_neg h.not_gt

theorem Slots.isSetAt_val (s : Slots σ) (i : Fin σ.arity) : s.isSetAt i = (s i).isSet :=
  dif_pos i.isLt

/-- A gate has the slot names of its builder. -/
theorem Builder.slotNames_of_build {b : Builder δ} {mode : LockMode} {g : Gate σ δ}
    (h : (b.build mode : Reported (Except BindError (Gate σ δ))).result = .ok g) :
    g.slotNames.toList = b.slotNames :=
  (makes_of_build h).slotNames

/-- What a gate with these slot names answers in the state `s`: the pending names, and whether all
slots are set. -/
structure Gate.Agreement (g : Gate σ δ) (slotNames : List String) (s : State σ)
    (names : List String) (all : Bool) : Prop where
  pending : Query.pending.answer g s = .names names
  allSet : Query.allSet.answer g s = .flag all
  /-- The pending names are in the order of the parameters, none of them twice. -/
  ordered : names.Sublist slotNames
  nodup : names.Nodup
  unset : ∀ n, n ∈ names ↔ ∃ i : Fin σ.arity,
    (Query.indexOf n).answer g s = .index (some i.val) ∧ (Query.isSet i).answer g s = .flag false
  /-- Walking along the slot names by number finds the pending names. -/
  walk : names = (slotNames.zipIdx.filter fun p => !s.slots.isSetAt p.2).map Prod.fst
  all_iff_none_pending : all = true ↔ names = []
  all_iff_each_set : all = true ↔ ∀ i, (Query.isSet i).answer g s = .flag true

/-- All ways to ask a gate with these slot names what is set come to the same, and a fire goes by it. -/
structure Gate.Legible (g : Gate σ (Delegate σ)) (slotNames : List String) : Prop where
  states : ∀ s, ∃ names all, g.Agreement slotNames s names all
  positions : slotNames.length = σ.arity
  index : ∀ s k (hk : k < slotNames.length),
    (Query.indexOf slotNames[k]).answer g s = .index (some k)
  strangers : ∀ s n, n ∉ slotNames → (Query.indexOf n).answer g s = .index none
  within : ∀ (s : State σ) (i : Fin σ.arity),
    (Query.isSet i).answer g s = .flag (s.slots.isSetAt i)
  outside : ∀ (s : State σ) k, σ.arity ≤ k → s.slots.isSetAt k = false
  /-- No subscriber acting, a fire on an enabled and bound gate calls the delegate just if nothing is
  pending where it begins. -/
  fires : ∀ dispatch ops, let h := (Run.performAll g (Run.start g [] dispatch) ops).history
    ∀ (after : History σ) a (before : History σ), h = after ++ .began a .fire :: before →
      g.isBound = true → (before.current g).enabled = true →
        ((∃ args, .called a args ∈ after) ↔
          Query.pending.answer g (before.current g) = .names [])

theorem Gate.agreement (g : Gate σ δ) (s : State σ) :
    g.Agreement g.slotNames.toList s (g.pending s.slots) s.slots.allSet where
  pending := rfl
  allSet := rfl
  ordered := g.pending_sublist s.slots
  nodup := g.nodup_slotNames.sublist (g.pending_sublist s.slots)
  unset n := by
    simp only [Query.answer, Answer.index.injEq, Answer.flag.injEq, g.indexOf_eq_some_iff]
    exact g.mem_pending_iff s.slots
  walk := g.pending_eq_walk s.slots
  all_iff_none_pending := (g.pending_eq_nil_iff s.slots).symm
  all_iff_each_set := by
    simp only [Query.answer, Answer.flag.injEq]
    exact s.slots.allSet_eq_true_iff

namespace Run

variable {g : Gate σ (Delegate σ)}

/-- An activity that copied slots of which one is not set calls nothing. -/
theorem not_called_of_pending {h : History σ} (hh : h.Provenance g) {a : Activity} {s : State σ}
    (hcopied : .changed a .copied s ∈ h) (hs : s.slots.allSet = false) (args : σ.Arguments) :
    .called a args ∉ h := by
  intro hcalled
  obtain ⟨after, before, he⟩ := List.append_of_mem hcalled
  obtain ⟨hone, mid, s', early, hbefore, hsnapshot⟩ := hh.calls after _ before he a args rfl
  have hcopied' : .changed a .copied s' ∈ h := by
    rw [he, hbefore]
    simp
  -- the two copies are the same moment
  obtain ⟨m, hm⟩ := List.length_eq_one_iff.1 (List.countP_eq_length_filter.symm.trans hone)
  have heq {s : State σ} (hc : .changed a .copied s ∈ h) : .changed a .copied s = m :=
    List.mem_singleton.1 (hm ▸ List.mem_filter.2 ⟨hc, by simp [Moment.isCopyOf]⟩)
  obtain ⟨-, -, rfl⟩ := Moment.changed.inj ((heq hcopied).trans (heq hcopied').symm)
  have hall := (Slots.allSet_eq_true_iff _).2 hsnapshot.isSet
  rw [hs] at hall
  cases hall

/-- A fire on an enabled and bound gate calls just if all slots are set. -/
theorem called_iff_allSet {h after before : History σ} (hh : h.Unbroken g) (hp : h.Provenance g)
    {a : Activity} (he : h = after ++ .began a .fire :: before) (hb : g.isBound = true)
    (hen : (before.current g).enabled = true) :
    (∃ args, .called a args ∈ after) ↔ (before.current g).slots.allSet = true := by
  obtain ⟨later, new, s, e, hpassage, hlater⟩ := hh.passage_at he
  cases hpassage with
  | answers opens no => cases no
  | @attempts late s e yes attempt =>
    have hafter : after = later ++ (e.moments a ++ late) := by
      refine List.append_cancel_right (he.symm.trans (hlater.trans ?_))
      simp [Operation.entrance, Operation.opening]
    have hstate : Operation.fire.entered (before.current g) = before.current g := rfl
    rw [hstate] at attempt
    cases attempt with
    | refused disabled => exact absurd (disabled.symm.trans hen) Bool.false_ne_true
    | unbound enabled unbound => exact absurd (unbound.symm.trans hb) Bool.false_ne_true
    | pending enabled bound incomplete =>
      have hcopied : .changed a .copied (before.current g) ∈ h := by
        rw [hlater]
        simp
      have hnot : ¬ ∃ args, .called a args ∈ after := by
        rintro ⟨args, hcalled⟩
        refine not_called_of_pending hp hcopied incomplete args ?_
        exact he ▸ List.mem_append_left _ hcalled
      exact iff_of_false hnot (incomplete ▸ Bool.false_ne_true)
    | fires enabled bound complete lasting =>
      exact iff_of_true ⟨_, hafter ▸ List.mem_append_right _ List.mem_cons_self⟩ complete
    | consumes enabled bound complete oneShot =>
      exact iff_of_true ⟨_, hafter ▸ List.mem_append_right _ List.mem_cons_self⟩ complete

/-- Every gate that is built is legible, whatever is done with it. -/
theorem readiness_agrees {b : Builder (Delegate σ)} {mode : LockMode}
    (hg : (b.build mode : Reported (Except BindError (Gate σ (Delegate σ)))).result = .ok g) :
    g.Legible b.slotNames := by
  have hnames := Builder.slotNames_of_build hg
  rw [← hnames]
  constructor
  case states => exact fun s => ⟨_, _, g.agreement s⟩
  case positions => simp
  case index =>
    intro s k hk
    have hk' : k < σ.arity := by simpa using hk
    exact congrArg Answer.index (g.indexOf_slotName ⟨k, hk'⟩)
  case strangers => exact fun s n hn => congrArg Answer.index (g.indexOf_eq_none hn)
  case within => exact fun s i => congrArg Answer.flag (s.slots.isSetAt_val i).symm
  case outside => exact fun s k hk => s.slots.isSetAt_of_le hk
  case fires =>
    intro dispatch ops h after a before he hb hen
    have hcalled := called_iff_allSet (unbroken_performAll g dispatch ops)
      (arguments_provenance g [] dispatch ops) he hb hen
    rw [hcalled, ← g.pending_eq_nil_iff]
    simp only [Query.answer, Answer.names.injEq]

/-- A gate with two flags, built with a delegate that fires and clears it, and then panics. -/
theorem readiness_agrees_of_flags :
    let b : Builder (Delegate .flags) := {
      slotNames := ["left", "right"], delegate := some ⟨[[.perform .fire, .perform .clear], [.panic]]⟩ }
    ∃ g : Gate .flags (Delegate .flags), (b.build .unsynchronized).result = .ok g ∧
      g.Legible ["left", "right"] := by
  intro b
  obtain ⟨g, hg⟩ : ∃ g : Gate .flags (Delegate .flags), (b.build .unsynchronized).result = .ok g :=
    ⟨_, rfl⟩
  exact ⟨g, hg, readiness_agrees hg⟩

end Run

end SlotGate
