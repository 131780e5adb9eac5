import SlotGate.Proofs.Aloof

/-!
# Isolation of slots

What a slot holds depends on the sets, assigns and clears of this slot alone, and on what clears or
disables the whole gate. That can be said of a gate that keeps its slots when it fires: a fire empties
those of a one-shot gate, and what it needs are all slots.
-/
namespace SlotGate

variable {σ : Signature} {δ : Type}

namespace Operation

/-- Whether an operation bears on what the slot `i` holds. -/
def concerns (i : Fin σ.arity) : Operation σ → Bool
  | set j _ | assign j _ | clearSlot j => j = i
  | clear | setEnabled _ => true
  | fire | setDebug _ | read _ => false

/-- Whether the result of an operation is about the slot `i`: it is an assign to it, or asks for its
value or whether it is set. -/
def asks (i : Fin σ.arity) : Operation σ → Bool
  | assign j _ | read (.value j) | read (.isSet j) => j = i
  | _ => false

end Operation

/-- Two states agree about the slot `i` and about whether it can be changed. -/
structure State.AgreeAt (i : Fin σ.arity) (s t : State σ) : Prop where
  slot : s.slots i = t.slots i
  enabled : s.enabled = t.enabled

/-- The outcomes of those operations that `p` picks. -/
def Report.outcomesOf (p : Operation σ → Bool) (ops : List (Operation σ)) (reps : List (Report σ)) :
    List (Outcome σ) :=
  ((ops.zip reps).filter fun x => p x.1).map fun x => x.2.outcome

/-- The slot `i` cannot tell two sequences of operations apart. -/
structure Run.IsolatedAt (i : Fin σ.arity) (g : Gate σ δ) (r r' : Run σ) (ops ops' : List (Operation σ)) :
    Prop where
  slot : (performAll g r ops).state.slots i = (performAll g r' ops').state.slots i
  /-- What is asked about the slot after the same operations on it has the same answer. -/
  answers : ∀ pre op post pre' post', ops = pre ++ op :: post → ops' = pre' ++ op :: post' →
    pre.filter (Operation.concerns i) = pre'.filter (Operation.concerns i) → op.asks i = true →
      ∃ x, ((reports g r ops)[pre.length]?.map Report.outcome) = some (.answered x) ∧
        ((reports g r' ops')[pre'.length]?.map Report.outcome) = some (.answered x)
  /-- All assigns to the slot have the same results, and all questions about it that are asked in the
  same places. -/
  results : ∀ p : Operation σ → Bool, (∀ op, p op = true → op.asks i = true) →
    ops.filter (fun op => op.concerns i || p op) = ops'.filter (fun op => op.concerns i || p op) →
      Report.outcomesOf p ops (reports g r ops) = Report.outcomesOf p ops' (reports g r' ops')

theorem Slots.put_congr {s t : Slots σ} {i j : Fin σ.arity} (h : s i = t i) (x : Slot (σ.type j)) :
    s.put j x i = t.put j x i := by
  by_cases hi : i = j
  · subst hi
    rw [put_same, put_same]
  · rw [put_other x hi, put_other x hi, h]

theorem State.AgreeAt.apply {i : Fin σ.arity} {s t : State σ} (h : s.AgreeAt i t) (c : Change σ) :
    (c.apply s).AgreeAt i (c.apply t) := by
  cases c with
  | stored j v => exact ⟨Slots.put_congr h.slot _, h.enabled⟩
  | slotCleared j => exact ⟨Slots.put_congr h.slot _, h.enabled⟩
  | cleared automatic => exact ⟨rfl, h.enabled⟩
  | enabledSet on => exact ⟨h.slot, rfl⟩
  | _ => exact ⟨h.slot, h.enabled⟩

namespace Operation

variable {i : Fin σ.arity} {s t : State σ}

/-- The first section of an operation does the same to the slot `i` of states that agree about it. -/
theorem entered_agreeAt (h : s.AgreeAt i t) (op : Operation σ) :
    (op.entered s).AgreeAt i (op.entered t) := by
  have hopening : op.opening s = op.opening t := by
    cases op <;> simp only [opening, h.enabled]
  unfold entered
  rw [hopening]
  cases op.opening t with
  | none => exact h
  | some c => exact h.apply c

/-- An operation that is not about the slot `i` leaves it alone. -/
theorem entered_agreeAt_of_not_concerns {op : Operation σ} (hop : op.concerns i = false)
    (h : s.AgreeAt i t) : (op.entered s).AgreeAt i t := by
  have hput {j : Fin σ.arity} (hj : decide (j = i) = false) (x : Slot (σ.type j)) :
      ({ s with slots := s.slots.put j x } : State σ).AgreeAt i t :=
    ⟨(Slots.put_other x (Ne.symm (of_decide_eq_false hj))).trans h.slot, h.enabled⟩
  have hguarded {c : Change σ} (hc : (c.apply s).AgreeAt i t) :
      ((if s.enabled then c else .refused).apply s).AgreeAt i t := by
    split
    · exact hc
    · exact h
  cases op with
  | set j v => exact hguarded (hput hop _)
  | assign j v => exact hguarded (hput hop _)
  | clearSlot j => exact hguarded (hput hop _)
  | clear => cases hop
  | setEnabled on => cases hop
  | _ => exact ⟨h.slot, h.enabled⟩

theorem reply_eq_of_agreeAt {op : Operation σ} (hop : op.asks i = true) (h : s.AgreeAt i t)
    (g : Gate σ δ) : op.reply g s = op.reply g t := by
  obtain ⟨hslot, henabled⟩ := h
  cases op with
  | assign j v => simp [reply, henabled]
  | read q =>
    cases q with
    | value j =>
      obtain rfl : j = i := by simpa [asks] using hop
      simp [reply, Query.answer, hslot]
    | isSet j =>
      obtain rfl : j = i := by simpa [asks] using hop
      simp [reply, Query.answer, hslot]
    | _ => cases hop
  | _ => cases hop

end Operation

/-- A gate that keeps its slots is left by a passage as its first section left it. -/
theorem Passage.state_of_lasting {g : Gate σ δ} (ho : g.settings.oneShot = false) {a : Activity}
    {s s' : State σ} {op : Operation σ} {new : History σ} {e : Ending σ}
    (passage : Passage g a s op new s' e) : s' = op.entered s := by
  cases passage with
  | answers opens no =>
    rw [Operation.entered, opens]
    rfl
  | attempts yes attempt =>
    cases attempt with
    | consumes enabled bound complete oneShot =>
      exact absurd (ho.symm.trans oneShot) Bool.false_ne_true
    | _ => rfl

namespace Run

/-- The outcomes of those operations that `p` picks, where each is answered by the state that its
first section finds. -/
def repliesTo (g : Gate σ δ) (p : Operation σ → Bool) (s : State σ) : List (Operation σ) → List (Outcome σ)
  | [] => []
  | op :: ops =>
    (if p op then [.answered (op.reply g s)] else []) ++ repliesTo g p (op.entered s) ops

variable {g : Gate σ δ} {d : Delegate σ} {i : Fin σ.arity}

/-- What is not about the slot `i` can be left out. -/
theorem agreeAt_filter {keep : Operation σ → Bool} (hkeep : ∀ op, keep op = false → op.concerns i = false)
    (ops : List (Operation σ)) {s t : State σ} (h : s.AgreeAt i t) :
    (ops.foldl (fun s op => op.entered s) s).AgreeAt i
      ((ops.filter keep).foldl (fun s op => op.entered s) t) := by
  induction ops generalizing s t with
  | nil => exact h
  | cons op ops ih =>
    cases hop : keep op with
    | true =>
      rw [List.filter_cons_of_pos hop]
      exact ih (op.entered_agreeAt h)
    | false =>
      rw [List.filter_cons_of_neg (by simp [hop])]
      exact ih (op.entered_agreeAt_of_not_concerns (hkeep op hop) h)

theorem repliesTo_filter {p keep : Operation σ → Bool} (hp : ∀ op, p op = true → op.asks i = true)
    (hkeep : ∀ op, keep op = false → op.concerns i = false ∧ p op = false) (ops : List (Operation σ))
    {s t : State σ} (h : s.AgreeAt i t) : repliesTo g p s ops = repliesTo g p t (ops.filter keep) := by
  induction ops generalizing s t with
  | nil => rfl
  | cons op ops ih =>
    cases hop : keep op with
    | true =>
      rw [List.filter_cons_of_pos hop, repliesTo, repliesTo, ih (op.entered_agreeAt h)]
      congr 1
      cases hpick : p op with
      | true => rw [Operation.reply_eq_of_agreeAt (hp op hpick) h]
      | false => rfl
    | false =>
      obtain ⟨hconcerns, hpick⟩ := hkeep op hop
      rw [List.filter_cons_of_neg (by simp [hop]), repliesTo, hpick]
      exact ih (op.entered_agreeAt_of_not_concerns hconcerns h)

theorem state_performAll (hd : d.Aloof) (ho : g.settings.oneShot = false) {r : Run σ}
    (hr : r.Secluded d) (ops : List (Operation σ)) :
    (performAll g r ops).state = ops.foldl (fun s op => op.entered s) r.state := by
  induction ops generalizing r with
  | nil => rfl
  | cons op ops ih =>
    obtain ⟨a, new, s, e, hpassage, -, hstate, hsecluded⟩ := perform_secluded (g := g) hd hr op
    have hop : (perform g r op).state = op.entered r.state :=
      hstate.trans (hpassage.state_of_lasting ho)
    rw [List.foldl_cons, ← hop]
    exact ih hsecluded

/-- An operation about one slot that does not fire is answered by the state it finds. -/
theorem outcome_asks (hd : d.Aloof) {r : Run σ} (hr : r.Secluded d) {op : Operation σ}
    (hop : op.asks i = true) : (report r (perform g r op)).outcome = .answered (op.reply g r.state) := by
  obtain ⟨a, new, s, e, hpassage, hshown, -, -⟩ := perform_secluded (g := g) hd hr op
  cases hpassage with
  | answers opens no => exact hshown.outcome
  | attempts yes attempt => cases op <;> first | cases hop | cases yes

theorem outcomesOf_reports (hd : d.Aloof) (ho : g.settings.oneShot = false) {p : Operation σ → Bool}
    (hp : ∀ op, p op = true → op.asks i = true) {r : Run σ} (hr : r.Secluded d)
    (ops : List (Operation σ)) :
    Report.outcomesOf p ops (reports g r ops) = repliesTo g p r.state ops := by
  induction ops generalizing r with
  | nil => rfl
  | cons op ops ih =>
    have hstate := state_performAll hd ho hr [op]
    have hrest := ih (secluded_performAll (g := g) hd hr [op])
    rw [hstate] at hrest
    rw [repliesTo]
    cases hpick : p op with
    | true =>
      have hzip : Report.outcomesOf p (op :: ops) (reports g r (op :: ops)) =
          (report r (perform g r op)).outcome ::
            Report.outcomesOf p ops (reports g (perform g r op) ops) := by
        simp [Report.outcomesOf, reports, hpick]
      rw [hzip, outcome_asks hd hr (hp op hpick)]
      exact congrArg _ hrest
    | false =>
      have hzip : Report.outcomesOf p (op :: ops) (reports g r (op :: ops)) =
          Report.outcomesOf p ops (reports g (perform g r op) ops) := by
        simp [Report.outcomesOf, reports, hpick]
      rw [hzip]
      exact hrest

/-- After the same operations on the slot `i`, the states agree about it. -/
theorem agreeAt_performAll (hd : d.Aloof) (ho : g.settings.oneShot = false) {r r' : Run σ}
    (hr : r.Secluded d) (hr' : r'.Secluded d) (h : r.state.AgreeAt i r'.state)
    {ops ops' : List (Operation σ)}
    (hops : ops.filter (Operation.concerns i) = ops'.filter (Operation.concerns i)) :
    (performAll g r ops).state.AgreeAt i (performAll g r' ops').state := by
  have hfirst := agreeAt_filter (i := i) (fun _ h => h) ops h
  have hsecond := agreeAt_filter (i := i) (fun _ h => h) ops' (s := r'.state) ⟨rfl, rfl⟩
  rw [state_performAll hd ho hr, state_performAll hd ho hr']
  rw [hops] at hfirst
  exact ⟨hfirst.slot.trans hsecond.slot.symm, hfirst.enabled.trans hsecond.enabled.symm⟩

/-- Operations on other slots, fires and reads do not show at the slot `i`. -/
theorem slot_isolated {g : Gate σ (Delegate σ)} (haloof : ∀ d, g.delegate = some d → d.Aloof)
    (ho : g.settings.oneShot = false) (i : Fin σ.arity) (dispatch dispatch' : Dispatch)
    {ops ops' : List (Operation σ)}
    (hops : ops.filter (Operation.concerns i) = ops'.filter (Operation.concerns i)) :
    IsolatedAt i g (start g [] dispatch) (start g [] dispatch') ops ops' := by
  have hr := secluded_start g dispatch
  have hr' := secluded_start g dispatch'
  have hd : (g.delegate.getD ⟨[]⟩).Aloof := by
    cases hg : g.delegate with
    | none => exact List.forall_mem_nil _
    | some d => exact haloof d hg
  have hagree : (start g [] dispatch).state.AgreeAt i (start g [] dispatch').state := ⟨rfl, rfl⟩
  constructor
  case slot => exact (agreeAt_performAll hd ho hr hr' hagree hops).slot
  case answers =>
    rintro pre op post pre' post' rfl rfl hpre hop
    have hbefore := agreeAt_performAll hd ho hr hr' hagree hpre
    have hreport := reports_getElem? g (start g [] dispatch) pre op post
    have hreport' := reports_getElem? g (start g [] dispatch') pre' op post'
    rw [hreport, hreport', Option.map_some, Option.map_some,
      outcome_asks hd (secluded_performAll hd hr pre) hop,
      outcome_asks hd (secluded_performAll hd hr' pre') hop,
      Operation.reply_eq_of_agreeAt hop hbefore]
    exact ⟨_, rfl, rfl⟩
  case results =>
    intro p hp hfilter
    have hkeep : ∀ op : Operation σ, (op.concerns i || p op) = false →
        op.concerns i = false ∧ p op = false := fun _ => Bool.or_eq_false_iff.1
    rw [outcomesOf_reports hd ho hp hr, outcomesOf_reports hd ho hp hr',
      repliesTo_filter hp hkeep ops hagree, hfilter]
    exact (repliesTo_filter hp hkeep ops' ⟨rfl, rfl⟩).symm

/-- Between the assigns to one flag the other is set, which fires, and cleared again. -/
theorem slot_isolated_of_fires :
    let g := Gate.flags {} [[], [.panic]]
    let ops : List (Operation .flags) :=
      [.set Gate.left true, .set Gate.right true, .clearSlot Gate.right, .fire, .assign Gate.left false,
        .set Gate.right false, .read (.value Gate.left)]
    let ops' : List (Operation .flags) := [.set Gate.left true, .assign Gate.left false]
    ((reports g (start g [] (.registering [])) ops).map fun rep => rep.calls.length) =
        [0, 1, 0, 0, 0, 1, 0] ∧
      ((reports g (start g [] (.registering [])) ops').map fun rep => rep.calls.length) = [0, 0] ∧
      IsolatedAt Gate.left g (start g [] (.registering [])) (start g [] (.registering [])) ops ops' := by
  refine ⟨by decide +kernel, by decide +kernel, ?_⟩
  refine slot_isolated (fun d hg => ?_) rfl Gate.left _ _ (by rfl)
  obtain rfl := Option.some.inj hg
  intro s hs op hop
  rcases List.mem_cons.1 hs with rfl | hs
  · cases hop
  · rw [List.mem_singleton.1 hs] at hop
    cases List.mem_singleton.1 hop

end Run

end SlotGate
