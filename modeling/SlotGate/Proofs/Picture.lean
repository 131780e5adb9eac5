import SlotGate.Proofs.Firing

/-!
# The picture that trace records give of a gate

Someone who has only the records of a traced gate can draw a picture of it: which slots are set, how
their values are written, whether the gate is enabled. Each section that changes one of these is
followed at once by an event that tells the change, and no other event is taken for a change. So the
picture is that of the live gate whenever an event is emitted or an operation ends.
-/
namespace SlotGate

variable {σ : Signature} {δ : Type}

/-- The first field of this name. -/
def TraceRecord.field? (record : TraceRecord) (name : String) : Option FieldValue :=
  record.fields.lookup name

/-- What trace records tell of a gate. -/
@[ext]
structure Picture (σ : Signature) where
  isSet : Fin σ.arity → Bool
  /-- The values, as they are written. -/
  text : Fin σ.arity → String
  enabled : Bool

namespace Picture

/-- A gate with these slots and this flag, as it looks from outside. -/
def of (s : State σ) : Picture σ where
  isSet i := (s.slots i).isSet
  text i := (σ.type i).describe (s.slots i).value
  enabled := s.enabled

/-- The slot that a record names is set or not, with this text. -/
def mark (p : Picture σ) (g : Gate σ δ) (record : TraceRecord) (isSet : Bool)
    (text : Fin σ.arity → String) : Picture σ where
  isSet i := if record.field? "slot" = some (.text (g.slotName i)) then isSet else p.isSet i
  text i := if record.field? "slot" = some (.text (g.slotName i)) then text i else p.text i
  enabled := p.enabled

/-- How slots look that hold their defaults. -/
def defaults (i : Fin σ.arity) : String := (σ.type i).describe (σ.type i).default

/-- Takes one record into the picture. -/
def hear (g : Gate σ δ) (p : Picture σ) (record : TraceRecord) : Picture σ :=
  match record.message with
  | "slot.set" | "slot.assign" =>
    match record.field? "value" with
    | some (.text t) => p.mark g record true fun _ => t
    | _ => p
  | "slot.set.null" => p.mark g record true defaults
  | "slot.clear" => p.mark g record false defaults
  | "gate.clear" => { p with isSet := fun _ => false, text := defaults }
  | "gate.set_enabled" =>
    match record.field? "enabled" with
    | some (.flag on) => { p with enabled := on }
    | _ => p
  | _ => p

end Picture

theorem Gate.slotName_injective (g : Gate σ δ) {i j : Fin σ.arity}
    (h : g.slotName i = g.slotName j) : i = j := by
  have hnames : g.slotNames.toList.get ⟨i.val, by simp⟩ = g.slotNames.toList.get ⟨j.val, by simp⟩ := by
    simpa [Gate.slotName] using h
  exact Fin.ext ((List.getElem_inj g.nodup_slotNames).1 hnames)

namespace Picture

variable (g : Gate σ δ) (s : State σ)

/-- A record that names the slot `i` and tells its content puts this slot into the picture. -/
theorem mark_of {record : TraceRecord} {i : Fin σ.arity} (x : Slot (σ.type i))
    {text : Fin σ.arity → String} (hname : record.field? "slot" = some (.text (g.slotName i)))
    (htext : text i = (σ.type i).describe x.value) :
    (of s).mark g record x.isSet text = of { s with slots := s.slots.put i x } := by
  have hsame : ∀ j, record.field? "slot" = some (.text (g.slotName j)) ↔ j = i := by
    intro j
    rw [hname, Option.some.injEq, FieldValue.text.injEq]
    exact ⟨fun h => (g.slotName_injective h).symm, fun h => h ▸ rfl⟩
  refine Picture.ext (funext fun j => ?_) (funext fun j => ?_) rfl
  · by_cases hj : j = i
    · subst hj
      simp [mark, of, hname]
    · simp [mark, of, mt (hsame j).1 hj, Slots.put_other x hj]
  · by_cases hj : j = i
    · subst hj
      simp [mark, of, hname, htext]
    · simp [mark, of, mt (hsame j).1 hj, Slots.put_other x hj]

theorem hear_slotSet (i : Fin σ.arity) (v : (σ.type i).Carrier) :
    (of s).hear g ((Event.slotSet i v).record g) = of ((Change.stored i v).apply s) := by
  cases hv : (σ.type i).isNull v with
  | true =>
    have hm : ((Event.slotSet i v).record g).message = "slot.set.null" := by
      simp [Event.record, Event.message, hv]
    simp only [hear, hm]
    refine mark_of g s (.filled ((σ.type i).stored v)) rfl ?_
    rw [Value.SlotType.stored_of_isNull hv]
    rfl
  | false =>
    have hm : ((Event.slotSet i v).record g).message = "slot.set" := by
      simp [Event.record, Event.message, hv]
    simp only [hear, hm]
    refine mark_of g s (.filled ((σ.type i).stored v)) rfl ?_
    rw [Value.SlotType.stored_of_not_isNull hv]
    rfl

theorem hear_slotAssigned (i : Fin σ.arity) (v : (σ.type i).Carrier) :
    (of s).hear g ((Event.slotAssigned i ((σ.type i).stored v)).record g) =
      of ((Change.stored i v).apply s) :=
  mark_of g s (.filled ((σ.type i).stored v)) rfl rfl

theorem hear_slotCleared (i : Fin σ.arity) :
    (of s).hear g ((Event.slotCleared i).record g) = of ((Change.slotCleared i).apply s) :=
  mark_of g s .vacant rfl rfl

theorem hear_cleared (automatic : Bool) :
    (of s).hear g (Event.cleared.record g) = of ((Change.cleared automatic).apply s) := rfl

theorem hear_enabledChanged (on : Bool) :
    (of s).hear g ((Event.enabledChanged on).record g) = of ((Change.enabledSet on).apply s) := rfl

end Picture

/-- An event that tells no change of the slots or of the enabled flag. -/
def Event.Idle : Event σ → Prop
  | bound | fired | firePending _ | fireUnbound | debugChanged _ => True
  | _ => False

theorem Picture.hear_idle {g : Gate σ δ} (e : Event σ) (he : e.Idle) (p : Picture σ) :
    p.hear g (e.record g) = p := by
  cases e <;> first | rfl | cases he

namespace Moment

/-- The event that is emitted here, heard or not. -/
def event? : Moment σ → Option (Event σ)
  | emitted e _ _ => some e
  | _ => none

end Moment

namespace History

/-- The events that were emitted, the earliest first. -/
def events (h : History σ) : List (Event σ) := h.reverse.filterMap Moment.event?

/-- The picture that the events so far give of a gate as it was built. -/
def picture (g : Gate σ δ) (h : History σ) : Picture σ :=
  (h.events.map fun e => e.record g).foldl (Picture.hear g) (Picture.of g.initialState)

variable {g : Gate σ δ}

theorem picture_emitted (e : Event σ) (heard : Bool) (s : State σ) (h : History σ) :
    picture g (.emitted e heard s :: h) = (h.picture g).hear g (e.record g) := by
  simp [picture, events, Moment.event?]

theorem picture_of_silent {new : History σ} (hn : ∀ m ∈ new, m.event? = none) (h : History σ) :
    picture g (new ++ h) = h.picture g := by
  have hnone : new.reverse.filterMap Moment.event? = [] := by
    simpa using hn
  simp [picture, events, hnone]

end History

/-- The task in front is an event that brings the picture `p` up to the state `s`, or nothing is to
be told and it is that of `s`. -/
def Agenda.Tells (g : Gate σ δ) (p : Picture σ) (tasks : Agenda σ) (s : State σ) : Prop :=
  (∃ e rest, tasks = .emit e true :: rest ∧ (∀ t ∈ rest, ¬ t.IsEmit) ∧
    p.hear g (e.record g) = Picture.of s) ∨
      ((∀ t ∈ tasks, ¬ t.IsEmit) ∧ p = Picture.of s)

namespace Agenda.Tells

variable {g : Gate σ δ} {p : Picture σ} {s : State σ}

theorem append {tasks rest : Agenda σ} (h : Tells g p tasks s) (hrest : ∀ t ∈ rest, ¬ t.IsEmit) :
    Tells g p (tasks ++ rest) s := by
  rcases h with ⟨e, others, rfl, hothers, hp⟩ | ⟨htasks, hp⟩
  · refine .inl ⟨e, others ++ rest, rfl, fun t ht => ?_, hp⟩
    exact (List.mem_append.1 ht).elim (hothers t) (hrest t)
  · exact .inr ⟨fun t ht => (List.mem_append.1 ht).elim (htasks t) (hrest t), hp⟩

end Agenda.Tells

namespace Task

variable {g : Gate σ δ} {r : Run σ}

theorem tells_of_refused {a : Activity} {op : Operation σ}
    (hop : op.opening r.state = some .refused) :
    Agenda.Tells g (Picture.of r.state) (startStep g a op r).1 (startStep g a op r).2.state := by
  rw [startStep_run, hop]
  refine .inr ⟨?_, rfl⟩
  cases op <;> simp only [Operation.opening] at hop <;> grind [startStep, IsEmit]

/-- The first section of an operation of a traced gate tells what it changes. -/
theorem startStep_tells (hd : r.state.debug = true) (a : Activity) {op : Operation σ}
    (hop : op.opening r.state ≠ some (.debugSet false)) :
    Agenda.Tells g (Picture.of r.state) (startStep g a op r).1 (startStep g a op r).2.state := by
  by_cases hrefused : op.opening r.state = some .refused
  · exact tells_of_refused hrefused
  rw [startStep_run]
  cases op with
  | set i v =>
    have he : r.state.enabled = true := by simpa [Operation.opening] using hrefused
    refine .inl ⟨.slotSet i v, _, by simp [startStep, he, hd]; rfl, ?_, ?_⟩
    · split <;> simp [IsEmit]
    · simpa [Operation.opening, he, Run.change] using Picture.hear_slotSet g r.state i v
  | assign i v =>
    have he : r.state.enabled = true := by simpa [Operation.opening] using hrefused
    let stored := (σ.type i).stored v
    refine .inl ⟨.slotAssigned i stored, [finish a (.value i stored)], ?_, by simp [IsEmit], ?_⟩
    · simp [startStep, he, hd, stored]
    · simpa [Operation.opening, he, Run.change] using Picture.hear_slotAssigned g r.state i v
  | clearSlot i =>
    have he : r.state.enabled = true := by simpa [Operation.opening] using hrefused
    refine .inl ⟨.slotCleared i, _, by simp [startStep, he, hd]; rfl, by simp [IsEmit], ?_⟩
    simpa [Operation.opening, he, Run.change] using Picture.hear_slotCleared g r.state i
  | clear =>
    have he : r.state.enabled = true := by simpa [Operation.opening] using hrefused
    refine .inl ⟨.cleared, _, by simp [startStep, he, hd]; rfl, by simp [IsEmit], ?_⟩
    simpa [Operation.opening, he, Run.change] using Picture.hear_cleared g r.state false
  | fire => exact .inr ⟨by simp [startStep, IsEmit], rfl⟩
  | setEnabled on =>
    refine .inl ⟨.enabledChanged on, _, by simp [startStep, hd]; rfl, by simp [IsEmit], ?_⟩
    exact Picture.hear_enabledChanged g r.state on
  | setDebug on =>
    refine .inl ⟨.debugChanged on, _, by simp [startStep, hd]; rfl, by simp [IsEmit], ?_⟩
    exact Picture.hear_idle (.debugChanged on) trivial _
  | read q => exact .inr ⟨by simp [startStep, IsEmit], rfl⟩

/-- What is decided on a copy changes nothing that a picture shows. -/
theorem attemptStep_tells (hd : r.state.debug = true) (a : Activity) :
    Agenda.Tells g (Picture.of r.state) (attemptStep g a r).1 (attemptStep g a r).2.state := by
  rw [attemptStep_run]
  unfold attemptStep
  simp only [hd]
  split
  · exact .inr ⟨by simp [IsEmit], rfl⟩
  · exact .inl ⟨.fireUnbound, _, rfl, by simp [IsEmit], Picture.hear_idle .fireUnbound trivial _⟩
  · next names _ =>
    exact .inl ⟨_, _, rfl, by simp [IsEmit], Picture.hear_idle (.firePending names) trivial _⟩
  · refine .inl ⟨.fired, _, rfl, ?_, Picture.hear_idle .fired trivial _⟩
    split <;> simp [IsEmit]

theorem sweepStep_tells (hd : r.state.debug = true) (a : Activity) :
    Agenda.Tells g (Picture.of r.state) (sweepStep a r).1 (sweepStep a r).2.state := by
  cases he : r.state.enabled with
  | false => exact .inr (by simp [sweepStep, he, Run.change])
  | true =>
    have hs : (sweepStep a r).2.state = (Change.cleared true).apply r.state := by
      rw [sweepStep_run]
      exact if_pos he
    refine .inl ⟨.cleared, [], by simp [sweepStep, he, hd], by simp, ?_⟩
    rw [hs]
    exact Picture.hear_cleared g r.state true

theorem callStep_plain {a : Activity} {args : σ.Arguments} {t : Task σ}
    (ht : t ∈ (callStep a args r).1) : ¬ t.IsEmit := by
  rcases mem_callStep ht with rfl | ⟨s, -, c, -, rfl⟩
  · exact id
  · cases c <;> exact id

/-- A task of a traced gate that is no event tells what it changes. -/
theorem step_tells (hu : r.unwinding = false) (hd : r.state.debug = true) {t : Task σ}
    (ht : ¬ t.IsEmit)
    (hop : ∀ caller op, t = start caller op → op.opening r.state ≠ some (.debugSet false)) :
    Agenda.Tells g (Picture.of r.state) (t.step g r).1 (t.step g r).2.state := by
  unfold step
  rw [if_neg (by simp [hu])]
  cases t with
  | start caller op =>
    let begun : Run σ := { r with
      begun := r.begun + 1, history := .began ⟨r.begun, caller⟩ op :: r.history }
    have htells := hop caller op rfl
    exact startStep_tells (r := begun) hd _ htells
  | emit => exact absurd trivial ht
  | attempt a => exact attemptStep_tells hd a
  | sweep a => exact sweepStep_tells hd a
  | call a args =>
    obtain ⟨left, -, hrun⟩ := callStep_run a args r
    exact .inr ⟨fun _ => callStep_plain, by rw [hrun]; rfl⟩
  | leave a => exact .inr ⟨by simp, rfl⟩
  | finish a answer => exact .inr ⟨by simp, rfl⟩
  | listen => exact .inr ⟨by simp, rfl⟩
  | panic => exact .inr ⟨by simp, rfl⟩

end Task

end SlotGate
