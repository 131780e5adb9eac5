import SlotGate.Proofs.Invariant
import SlotGate.Proofs.Resemblance

/-!
# To set is to assign and to fire

A set stores and then attempts to fire, a null value under a policy that suppresses it apart. The two are
written down in one operation, with a section and an event of their own. What they do is what an assign
and a fire do one after the other, also where the delegate acts on the gate or panics.
-/
namespace SlotGate

variable {σ : Signature} {δ : Type}

namespace Run

variable {g : Gate σ δ} {r : Run σ}

theorem hear_history (r : Run σ) (e : Event σ) (traced : Bool) :
    (r.hear e traced).history =
      (if traced then [.emitted e true r.state] else []) ++ r.history := by
  cases traced <;> rfl

theorem hear_frame (r : Run σ) (e : Event σ) (traced : Bool) :
    (r.hear e traced).state = r.state ∧ (r.hear e traced).scripts = r.scripts ∧
      (r.hear e traced).unwinding = r.unwinding := by
  cases traced <;> exact ⟨rfl, rfl, rfl⟩

theorem advance_emit (hr : r.Undisturbed) (hu : r.unwinding = false) (e : Event σ) (traced : Bool)
    (rest : Agenda σ) : advance g (.emit e traced :: rest) r = advance g rest (r.hear e traced) := by
  have hstep : (Task.emit e traced).step g r = ([], r.hear e traced) := by
    rw [← hr.emitStep]
    simp [Task.step, hu]
  rw [advance_cons, hstep, List.nil_append]

theorem advance_finish (hu : r.unwinding = false) (a : Activity) (x : Answer σ) :
    advance g [.finish a x] r = r.note (.finished a x r.state) := by
  rw [advance_cons, Task.step_finish hu, List.nil_append, advance_nil]

/-- An operation of the top has found the gate disabled and answered `x`. -/
def refusing (r : Run σ) (op : Operation σ) (x : Answer σ) : Run σ :=
  let a : Activity := ⟨r.begun, .top⟩
  (((r.begin .top op).change a .refused r.state).note (.finished a x r.state)).settled

/-- An operation of the top has stored `v`, and told of it by `e`. -/
def storing (r : Run σ) (op : Operation σ) (i : Fin σ.arity) (v : (σ.type i).Carrier) (e : Event σ) :
    Run σ :=
  ((r.begin .top op).change ⟨r.begun, .top⟩ (.stored i v) (r.state.store i v)).hear e r.state.debug

/-- An operation of the top has stored `v`, told of it by `e` and answered `x`. -/
def answering (r : Run σ) (op : Operation σ) (i : Fin σ.arity) (v : (σ.type i).Carrier) (e : Event σ)
    (x : Answer σ) : Run σ :=
  ((r.storing op i v e).note (.finished ⟨r.begun, .top⟩ x (r.state.store i v))).settled

theorem refusing_resembles (hr : r.Undisturbed) (hu : r.unwinding = false) (op : Operation σ)
    (x : Answer σ) : (r.refusing op x).Resembles r :=
  ⟨rfl, rfl, hu.symm, ⟨hr.reactions, rfl, hr.met⟩, hr⟩

theorem report_refusing (r : Run σ) (op : Operation σ) (x : Answer σ) :
    report r (r.refusing op x) = ⟨.answered x, [], r.state⟩ := by
  have hsince : (r.refusing op x).since r =
      [.finished ⟨r.begun, .top⟩ x r.state, .changed ⟨r.begun, .top⟩ .refused r.state,
        .began ⟨r.begun, .top⟩ op] := since_eq rfl
  unfold report
  rw [hsince]
  rfl

/-- The rest of an operation of the top that is refused. -/
theorem advance_refused (hu : r.unwinding = false) (op : Operation σ) (x : Answer σ) :
    (advance g [.finish ⟨r.begun, .top⟩ x]
      ((r.begin .top op).change ⟨r.begun, .top⟩ .refused r.state)).settled = r.refusing op x := by
  have hcalm : ((r.begin .top op).change ⟨r.begun, .top⟩ .refused r.state).unwinding = false := hu
  rw [advance_finish hcalm]
  rfl

theorem perform_set_disabled (hu : r.unwinding = false) (he : r.state.enabled = false)
    (i : Fin σ.arity) (v : (σ.type i).Carrier) :
    perform g r (.set i v) = r.refusing (.set i v) (.flag false) := by
  have hbegin : (r.begin .top (.set i v)).state.enabled = false := he
  rw [perform_eq hu, ← advance_refused (g := g) hu]
  simp only [Task.startStep, hbegin, Bool.false_eq_true, if_false]
  rfl

theorem perform_assign_disabled (hu : r.unwinding = false) (he : r.state.enabled = false)
    (i : Fin σ.arity) (v : (σ.type i).Carrier) :
    perform g r (.assign i v) = r.refusing (.assign i v) (.value i v) := by
  have hbegin : (r.begin .top (.assign i v)).state.enabled = false := he
  rw [perform_eq hu, ← advance_refused (g := g) hu]
  simp only [Task.startStep, hbegin, Bool.false_eq_true, if_false]
  rfl

theorem perform_fire_disabled (hu : r.unwinding = false) (he : r.state.enabled = false) :
    perform g r .fire = r.refusing .fire (.flag false) := by
  have hbegin : (r.begin .top .fire).unwinding = false := hu
  have hdecision : g.decision (r.begin .top .fire).state = .refused := by
    change g.decision r.state = .refused
    simp [Gate.decision, he]
  have hattempt : (Task.attempt ⟨r.begun, .top⟩).step g (r.begin .top .fire) =
      ([.finish ⟨r.begun, .top⟩ (.flag false)],
        (r.begin .top .fire).change ⟨r.begun, .top⟩ .refused r.state) := by
    simp only [Task.step_attempt hbegin, Task.attemptStep, hdecision]
    rfl
  rw [perform_eq hu, ← advance_refused (g := g) hu]
  simp only [Task.startStep]
  rw [advance_cons, hattempt, List.append_nil]

theorem storing_frame (hr : r.Undisturbed) (hu : r.unwinding = false) (op : Operation σ)
    (i : Fin σ.arity) (v : (σ.type i).Carrier) (e : Event σ) :
    (r.storing op i v e).state = r.state.store i v ∧ (r.storing op i v e).scripts = r.scripts ∧
      (r.storing op i v e).unwinding = false ∧ (r.storing op i v e).Undisturbed := by
  let q : Run σ := (r.begin .top op).change ⟨r.begun, .top⟩ (.stored i v) (r.state.store i v)
  have hq : q.Undisturbed := ⟨hr.reactions, hr.reacting, hr.met⟩
  obtain ⟨hstate, hscripts, hunwinding⟩ := q.hear_frame e r.state.debug
  exact ⟨hstate, hscripts, hunwinding.trans hu, hq.hear e _⟩

/-- What is logged of a store by the event `e`. -/
def told (r : Run σ) (i : Fin σ.arity) (v : (σ.type i).Carrier) (e : Event σ) : List (Entry σ) :=
  if r.state.enabled && r.state.debug then [.event e (r.state.store i v)] else []

/-- The moments of an operation of the top up to its event; those of a disabled gate end with its
beginning. -/
def opening (r : Run σ) (op : Operation σ) (i : Fin σ.arity) (v : (σ.type i).Carrier) (e : Event σ) :
    History σ :=
  let s := r.state.store i v
  (if r.state.enabled && r.state.debug then [.emitted e true s] else []) ++
    (if r.state.enabled then [.changed ⟨r.begun, .top⟩ (.stored i v) s] else []) ++
    [.began ⟨r.begun, .top⟩ op]

theorem log_opening (r : Run σ) (op : Operation σ) (i : Fin σ.arity) (v : (σ.type i).Carrier)
    (e : Event σ) : (r.opening op i v e).log = r.told i v e := by
  unfold opening told
  cases r.state.enabled <;> cases r.state.debug <;> rfl

theorem storing_history (he : r.state.enabled = true) (op : Operation σ) (i : Fin σ.arity)
    (v : (σ.type i).Carrier) (e : Event σ) :
    (r.storing op i v e).history = r.opening op i v e ++ r.history := by
  unfold storing opening
  rw [hear_history, he]
  cases r.state.debug <;> rfl

theorem answering_resembles (hr : r.Undisturbed) (hu : r.unwinding = false) {op op' : Operation σ}
    {i : Fin σ.arity} {v : (σ.type i).Carrier} {e e' : Event σ} {x x' : Answer σ} :
    (r.answering op i v e x).Resembles (r.answering op' i v e' x') := by
  obtain ⟨hstate, hscripts, -, hq⟩ := storing_frame hr hu op i v e
  obtain ⟨hstate', hscripts', -, hq'⟩ := storing_frame hr hu op' i v e'
  exact ⟨hstate.trans hstate'.symm, hscripts.trans hscripts'.symm, rfl,
    ⟨hq.reactions, rfl, hq.met⟩, ⟨hq'.reactions, rfl, hq'.met⟩⟩

theorem report_answering (hr : r.Undisturbed) (hu : r.unwinding = false)
    (he : r.state.enabled = true) (op : Operation σ) (i : Fin σ.arity) (v : (σ.type i).Carrier)
    (e : Event σ) (x : Answer σ) :
    report r (r.answering op i v e x) = ⟨.answered x, r.told i v e, r.state.store i v⟩ := by
  obtain ⟨hstate, -, -, -⟩ := storing_frame hr hu op i v e
  have hhistory : (r.answering op i v e x).history =
      .finished ⟨r.begun, .top⟩ x (r.state.store i v) :: r.opening op i v e ++ r.history :=
    congrArg _ (storing_history he op i v e)
  have hlog : History.log (.finished ⟨r.begun, .top⟩ x (r.state.store i v) :: r.opening op i v e) =
      r.told i v e := by
    rw [← log_opening r op, ← List.singleton_append, History.log_append]
    exact List.append_nil _
  unfold report
  rw [since_eq hhistory, hlog]
  exact congrArg _ hstate

/-- The rest of an operation of the top that only stores. -/
theorem advance_stored (hr : r.Undisturbed) (hu : r.unwinding = false) (op : Operation σ)
    (i : Fin σ.arity) (v : (σ.type i).Carrier) (e : Event σ) (x : Answer σ) :
    (advance g [.finish ⟨r.begun, .top⟩ x] (r.storing op i v e)).settled =
      r.answering op i v e x := by
  obtain ⟨hstate, -, hcalm, -⟩ := storing_frame hr hu op i v e
  rw [advance_finish hcalm, hstate]
  rfl

theorem perform_set_enabled (hr : r.Undisturbed) (hu : r.unwinding = false)
    (he : r.state.enabled = true) (i : Fin σ.arity) (v : (σ.type i).Carrier) :
    perform g r (.set i v) = (advance g
      (if (σ.type i).isNull v && g.settings.nullPolicy = .suppress then
        [.finish ⟨r.begun, .top⟩ (.flag false)] else [.attempt ⟨r.begun, .top⟩])
      (r.storing (.set i v) i v (.slotSet i v))).settled := by
  have hbegin : (r.begin .top (.set i v)).state.enabled = true := he
  let q : Run σ := (r.begin .top (.set i v)).change ⟨r.begun, .top⟩ (.stored i v) (r.state.store i v)
  have hq : q.Undisturbed := ⟨hr.reactions, hr.reacting, hr.met⟩
  have hcalm : q.unwinding = false := hu
  rw [perform_eq hu]
  simp only [Task.startStep, hbegin, if_true]
  exact congrArg settled (advance_emit hq hcalm _ _ _)

theorem perform_assign_enabled (hr : r.Undisturbed) (hu : r.unwinding = false)
    (he : r.state.enabled = true) (i : Fin σ.arity) (v : (σ.type i).Carrier) :
    let stored := (σ.type i).stored v
    perform g r (.assign i v) =
      r.answering (.assign i v) i v (.slotAssigned i stored) (.value i stored) := by
  intro stored
  have hbegin : (r.begin .top (.assign i v)).state.enabled = true := he
  let q : Run σ :=
    (r.begin .top (.assign i v)).change ⟨r.begun, .top⟩ (.stored i v) (r.state.store i v)
  have hq : q.Undisturbed := ⟨hr.reactions, hr.reacting, hr.met⟩
  have hcalm : q.unwinding = false := hu
  rw [perform_eq hu, ← advance_stored (g := g) hr hu]
  simp only [Task.startStep, hbegin, if_true]
  exact congrArg settled (advance_emit hq hcalm _ _ _)

theorem Abreast.settled {q r' q' : Run σ} (h : Abreast r q r' q') :
    Abreast r q r'.settled q'.settled := ⟨h.resembles.settled, h.history⟩

/-- An attempt to fire leaves a moment behind, whatever comes of it. -/
theorem advance_attempt_history_ne (hu : r.unwinding = false) (a : Activity) :
    (advance g [.attempt a] r).history ≠ r.history := by
  obtain ⟨late, hlate⟩ := advance_history g (Task.attemptStep g a r).1 (Task.attemptStep g a r).2
  intro he
  rw [advance_cons, Task.step_attempt hu, List.append_nil, hlate, Task.attemptStep_run] at he
  have hlength := congrArg List.length he
  simp only [change, List.length_append, List.length_cons] at hlength
  omega

/-- On a disabled gate the refusal of a set is that of a fire that follows on a refused assign. -/
theorem set_abreast_fire_of_disabled (hr : r.Undisturbed) (hu : r.unwinding = false)
    (he : r.state.enabled = false) (i : Fin σ.arity) (v : (σ.type i).Carrier) :
    let assigned := perform g r (.assign i v)
    (perform g r (.set i v)).history ≠ (r.begin .top (.set i v)).history ∧
      Abreast (r.begin .top (.set i v)) (assigned.begin .top .fire) (perform g r (.set i v))
        (perform g assigned .fire) := by
  intro assigned
  have hassigned : assigned = r.refusing (.assign i v) (.value i v) :=
    perform_assign_disabled hu he i v
  have hlike : r.Resembles assigned := hassigned ▸ (refusing_resembles hr hu _ _).symm
  have hfire : perform g assigned .fire = assigned.refusing .fire (.flag false) :=
    perform_fire_disabled rfl (hlike.state ▸ he)
  have hset := perform_set_disabled (g := g) hu he i v
  have hbegin : (r.begin .top (.set i v)).Resembles (assigned.begin .top .fire) :=
    ⟨hlike.state, hlike.scripts, hlike.unwinding, ⟨hr.reactions, hr.reacting, hr.met⟩,
      ⟨hlike.right.reactions, hlike.right.reacting, hlike.right.met⟩⟩
  constructor
  · rw [hset]
    intro hh
    have hlength := congrArg List.length hh
    simp only [refusing, settled, note, change, List.length_cons] at hlength
    omega
  · rw [hset, hfire, refusing, refusing, hlike.state]
    have hchange := Abreast.change hbegin (a := ⟨r.begun, .top⟩) (b := ⟨assigned.begun, .top⟩) rfl
      .refused assigned.state
    have hanswer : Moment.unnumbered (.finished ⟨r.begun, .top⟩ (.flag false) assigned.state) =
        Moment.unnumbered (.finished ⟨assigned.begun, .top⟩ (.flag false) assigned.state) := rfl
    exact (hchange.trans (.note hchange.resembles hanswer)).settled

/-- On an enabled gate a set that has stored comes to its attempt, as does the fire that follows on an
assign. -/
theorem set_abreast_fire_of_enabled (hr : r.Undisturbed) (hu : r.unwinding = false)
    (he : r.state.enabled = true) (i : Fin σ.arity) (v : (σ.type i).Carrier)
    (hv : ¬ ((σ.type i).isNull v = true ∧ g.settings.nullPolicy = .suppress)) :
    let assigned := perform g r (.assign i v)
    let q := r.storing (.set i v) i v (.slotSet i v)
    (perform g r (.set i v)).history ≠ q.history ∧
      Abreast q (assigned.begin .top .fire) (perform g r (.set i v)) (perform g assigned .fire) := by
  intro assigned q
  let stored := (σ.type i).stored v
  obtain ⟨hstate, hscripts, hcalm, hq⟩ := storing_frame hr hu (.set i v) i v (.slotSet i v)
  obtain ⟨hstate', hscripts', -, hq'⟩ :=
    storing_frame hr hu (.assign i v) i v (.slotAssigned i stored)
  have hassigned : assigned = _ := perform_assign_enabled hr hu he i v
  have hset : perform g r (.set i v) = (advance g [.attempt ⟨r.begun, .top⟩] q).settled := by
    rw [perform_set_enabled hr hu he, if_neg (by simpa using hv)]
  have hlike : q.Resembles (assigned.begin .top .fire) := by
    refine ⟨?_, ?_, hcalm, hq, ?_⟩
    · rw [hstate, hassigned]
      exact hstate'.symm
    · rw [hscripts, hassigned]
      exact hscripts'.symm
    · rw [hassigned]
      exact ⟨hq'.reactions, rfl, hq'.met⟩
  constructor
  · rw [hset]
    exact advance_attempt_history_ne hcalm _
  · rw [hset, perform_eq (show assigned.unwinding = false from rfl) .fire]
    have htasks : [Task.attempt (σ := σ) ⟨r.begun, .top⟩].map Task.unnumbered =
        [Task.attempt ⟨assigned.begun, .top⟩].map Task.unnumbered := rfl
    exact (advance_abreast hlike htasks).settled

/-- From where a set has stored on, it is as far as a fire that follows on an assign is from its
beginning. A null under the policy that suppresses it is left out. -/
theorem set_abreast_fire (hr : r.Undisturbed) (hu : r.unwinding = false) (i : Fin σ.arity)
    (v : (σ.type i).Carrier)
    (hv : ¬ ((σ.type i).isNull v = true ∧ g.settings.nullPolicy = .suppress)) :
    let assigned := perform g r (.assign i v)
    ∃ q : Run σ, q.history = r.opening (.set i v) i v (.slotSet i v) ++ r.history ∧
      (perform g r (.set i v)).history ≠ q.history ∧
      Abreast q (assigned.begin .top .fire) (perform g r (.set i v)) (perform g assigned .fire) := by
  intro assigned
  cases he : r.state.enabled with
  | false =>
    have hopening : r.opening (.set i v) i v (.slotSet i v) = [.began ⟨r.begun, .top⟩ (.set i v)] := by
      simp [opening, he]
    refine ⟨r.begin .top (.set i v), ?_, set_abreast_fire_of_disabled hr hu he i v⟩
    rw [hopening]
    rfl
  | true => exact ⟨_, storing_history he _ _ _ _, set_abreast_fire_of_enabled hr hu he i v hv⟩

/-- What a set adds to the history after it has stored is what the fire adds that follows on an
assign. -/
theorem since_set_eq (hr : r.Undisturbed) (hu : r.unwinding = false) (i : Fin σ.arity)
    (v : (σ.type i).Carrier)
    (hv : ¬ ((σ.type i).isNull v = true ∧ g.settings.nullPolicy = .suppress)) :
    let set := perform g r (.set i v)
    let assigned := perform g r (.assign i v)
    let fired := perform g assigned .fire
    ∃ late late' : History σ, set.since r = late ++ r.opening (.set i v) i v (.slotSet i v) ∧
      fired.since assigned = late' ++ [.began ⟨assigned.begun, .top⟩ .fire] ∧
      late.map Moment.unnumbered = late'.map Moment.unnumbered ∧
      set.outcome = fired.outcome ∧ set.Resembles fired := by
  intro set assigned fired
  obtain ⟨q, hq, hne, habreast⟩ := set_abreast_fire hr hu i v hv
  obtain ⟨late, late', hset, hfire, hlate⟩ := habreast.history
  rw [hq, ← List.append_assoc] at hset
  have hfired : fired.history =
      (late' ++ [.began ⟨assigned.begun, .top⟩ .fire]) ++ assigned.history := by
    rw [hfire, List.append_assoc]
    rfl
  exact ⟨late, late', since_eq hset, since_eq hfired, hlate, habreast.outcome hne,
    habreast.resembles⟩

theorem report_assign (hr : r.Undisturbed) (hu : r.unwinding = false) (i : Fin σ.arity)
    (v : (σ.type i).Carrier) :
    report r (perform g r (.assign i v)) =
      { outcome := .answered (.value i (if r.state.enabled then (σ.type i).stored v else v))
        log := r.told i v (.slotAssigned i ((σ.type i).stored v))
        state := r.state.store i v } := by
  cases he : r.state.enabled with
  | false =>
    rw [perform_assign_disabled hu he, report_refusing]
    simp [told, State.store, he]
  | true =>
    rw [perform_assign_enabled hr hu he, report_answering hr hu he]
    rfl

/-- A null under the policy that suppresses it is stored as by an assign, and that is all. -/
theorem report_set_suppressed (hr : r.Undisturbed) (hu : r.unwinding = false) (i : Fin σ.arity)
    (v : (σ.type i).Carrier)
    (hv : (σ.type i).isNull v = true ∧ g.settings.nullPolicy = .suppress) :
    report r (perform g r (.set i v)) =
        ⟨.answered (.flag false), r.told i v (.slotSet i v), r.state.store i v⟩ ∧
      (perform g r (.set i v)).Resembles (perform g r (.assign i v)) := by
  cases he : r.state.enabled with
  | false =>
    rw [perform_set_disabled hu he, perform_assign_disabled hu he, report_refusing]
    refine ⟨by simp [told, State.store, he], ?_⟩
    exact (refusing_resembles hr hu _ _).trans (refusing_resembles hr hu _ _).symm
  | true =>
    have hset : perform g r (.set i v) = r.answering (.set i v) i v (.slotSet i v) (.flag false) := by
      rw [perform_set_enabled hr hu he, if_pos (by simpa using hv), advance_stored hr hu]
    rw [hset, perform_assign_enabled hr hu he]
    exact ⟨report_answering hr hu he _ _ _ _ _, answering_resembles hr hu⟩

end Run

/-- How a set of `v` on the run `r` agrees with an assign of `v` and a fire after it. -/
structure Run.SetIsAssignThenFire (g : Gate σ δ) (r : Run σ) (i : Fin σ.arity)
    (v : (σ.type i).Carrier) (set assigned fired : Run σ) : Prop where
  /-- The assign stores, tells of what is stored and answers with it; on a disabled gate it does
  nothing, and answers with the value that it was given. -/
  assign : report r assigned =
    { outcome := .answered (.value i (if r.state.enabled then (σ.type i).stored v else v))
      log := r.told i v (.slotAssigned i ((σ.type i).stored v))
      state := r.state.store i v }
  /-- A null that is suppressed is stored as the assign stores it, and answered with `false`. -/
  suppressed : (σ.type i).isNull v = true ∧ g.settings.nullPolicy = .suppress →
    report r set = ⟨.answered (.flag false), r.told i v (.slotSet i v), assigned.state⟩ ∧
      ∀ later, reports g set later = reports g assigned later
  /-- A set that is not suppressed ends as the fire does, and between the event of the store and its
  end everything that is logged is logged of the fire. -/
  fires : ¬ ((σ.type i).isNull v = true ∧ g.settings.nullPolicy = .suppress) →
    report r set = { report assigned fired with
      log := r.told i v (.slotSet i v) ++ (report assigned fired).log } ∧
      ∀ later, reports g set later = reports g fired later
  /-- The set and the fire have the same sections, events and calls at any depth, logged or not. -/
  nested : ¬ ((σ.type i).isNull v = true ∧ g.settings.nullPolicy = .suppress) →
    ∃ late late' : History σ, set.since r = late ++ r.opening (.set i v) i v (.slotSet i v) ∧
      fired.since assigned = late' ++ [.began ⟨assigned.begun, .top⟩ .fire] ∧
      late.map Moment.unnumbered = late'.map Moment.unnumbered
  /-- The events of the two stores are recorded alike but for the message. -/
  record : ∀ w, (Event.slotSet i w).record g = { (Event.slotAssigned i w).record g with
    message := if (σ.type i).isNull w then "slot.set.null" else "slot.set" }

namespace Run

/-- On every gate that operations can lead to, to set is to assign and to fire, whatever the delegate
does in between. -/
theorem set_is_assign_then_fire (g : Gate σ (Delegate σ)) (dispatch : Dispatch)
    (earlier : List (Operation σ)) (i : Fin σ.arity) (v : (σ.type i).Carrier) :
    let r := performAll g (start g [] dispatch) earlier
    let assigned := perform g r (.assign i v)
    SetIsAssignThenFire g r i v (perform g r (.set i v)) assigned (perform g assigned .fire) := by
  intro r assigned
  have hr : r.Undisturbed := (undisturbed_start g dispatch).performAll earlier
  have hu : r.unwinding = false := performAll_calm rfl earlier
  constructor
  case assign => exact report_assign hr hu i v
  case suppressed =>
    intro hv
    obtain ⟨hreport, hlike⟩ := report_set_suppressed hr hu i v hv
    have hstate : assigned.state = r.state.store i v := congrArg Report.state (report_assign hr hu i v)
    exact ⟨hstate ▸ hreport, hlike.reports rfl⟩
  case fires =>
    intro hv
    obtain ⟨late, late', hset, hfire, hlate, houtcome, hlike⟩ := since_set_eq hr hu i v hv
    refine ⟨?_, hlike.reports rfl⟩
    unfold report
    rw [houtcome, hlike.state, hset, hfire, History.log_append, History.log_append, log_opening,
      History.log_eq_of_unnumbered hlate]
    rfl
  case nested =>
    intro hv
    obtain ⟨late, late', hset, hfire, hlate, -, -⟩ := since_set_eq hr hu i v hv
    exact ⟨late, late', hset, hfire, hlate⟩
  case record => exact fun w => rfl

end Run

end SlotGate
