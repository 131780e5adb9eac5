import SlotGate.Proofs.Readiness
import SlotGate.Proofs.Tracing

/-!
# Fire decisions in the trace

Every attempt to fire on an enabled gate is told by one event, and this event says why nothing was
called or is followed by the call. Where no subscriber acts, that holds of the trace as a whole: the
events of the attempts and the calls fit without gaps, whatever the delegate does on the gate.
-/
namespace SlotGate

open SlotGate.Text (quoted bracketed)

variable {σ : Signature} {δ : Type}

/-- What a record tells of an attempt to fire that found the state `s`. -/
inductive Gate.Verdict (g : Gate σ δ) (s : State σ) (record : TraceRecord) : Prop where
  | unbound (message : record.message = "gate.fire.unbound") (unbound : g.isBound = false)
  | pending (message : record.message = "gate.fire.pending") (bound : g.isBound = true)
      (field : record.field? "pending" = some (.text (bracketed ((g.pending s.slots).map quoted))))
      (nonempty : g.pending s.slots ≠ [])
  | fired (message : record.message = "gate.fire") (bound : g.isBound = true)
      (complete : ∀ i, (s.slots i).isSet = true)

/-- Whether an event tells of an attempt to fire. -/
def Event.isVerdict : Event σ → Bool
  | fired | firePending _ | fireUnbound => true
  | _ => false

namespace History

/-- The states in which operations attempted to fire on an enabled gate, the earliest first. -/
def attempted (g : Gate σ δ) : History σ → List (State σ)
  | [] => []
  | .began _ op :: before =>
    let s := current g before
    attempted g before ++ if s.enabled && op.attempts g s then [op.entered s] else []
  | _ :: before => attempted g before

/-- The events that tell of attempts to fire, the earliest first. -/
def verdicts (h : History σ) : List (Event σ) := h.events.filter Event.isVerdict

end History

/-- What the log shows of a call and the fire that it comes from; a one-shot gate is emptied in
between. -/
def Gate.volley (g : Gate σ δ) (s : State σ) : List (Entry σ) :=
  .event .fired s :: ((if g.settings.oneShot then [.event .cleared s.vacateAll] else []) ++
    [.call s.slots.arguments])

/-- The trace of a run tells how each attempt to fire was decided. -/
structure History.Decided (g : Gate σ δ) (h : History σ) : Prop where
  /-- Where an operation attempts to fire on an enabled gate, the slots are copied right after its
  first section, and the next event is the verdict on them. -/
  attempts : ∀ after a op before, h = after ++ .began a op :: before →
    let s := History.current g before
    s.enabled = true → op.attempts g s = true → ∃ later e,
      h = later ++ .emitted e true (op.entered s) :: .changed a .copied (op.entered s) ::
        (op.entrance g a s ++ before) ∧
      e.isVerdict = true ∧ g.Verdict (op.entered s) (e.record g)
  /-- No attempt has two verdicts, and no verdict comes without an attempt. -/
  verdicts : List.Forall₂ (fun s e => g.Verdict s (e.record g)) (h.attempted g) h.verdicts
  /-- Before a call comes its fire. -/
  calls : ∀ early args late, h.log = early ++ .call args :: late →
    ∃ earlier s, early ++ [.call args] = earlier ++ g.volley s
  /-- After a fire comes its call. -/
  fires : ∀ early s late, h.log = early ++ .event .fired s :: late →
    ∃ later, .event .fired s :: late = g.volley s ++ later

/-- Whether an entry of a log is neither a fire nor a call. -/
def Entry.isPlain : Entry σ → Bool
  | event .fired _ | call _ => false
  | _ => true

/-- A log in which fires and calls come together. -/
inductive Gate.Volleys (g : Gate σ δ) : List (Entry σ) → Prop where
  | nil : Volleys g []
  | plain {l : List (Entry σ)} {x : Entry σ} (h : Volleys g l) (plain : x.isPlain = true) :
      Volleys g (l ++ [x])
  | volley {l : List (Entry σ)} (h : Volleys g l) (s : State σ) : Volleys g (l ++ g.volley s)

namespace Gate.Volleys

variable {g : Gate σ δ} {l : List (Entry σ)}

theorem append (h : g.Volleys l) {xs : List (Entry σ)} (hxs : ∀ x ∈ xs, x.isPlain = true) :
    g.Volleys (l ++ xs) := by
  induction xs generalizing l with
  | nil => rwa [List.append_nil]
  | cons x xs ih =>
    obtain ⟨hx, hxs⟩ := List.forall_mem_cons.1 hxs
    rw [List.append_cons]
    exact ih (h.plain hx) hxs

/-- In a volley the call comes last. -/
theorem call_in_volley {s : State σ} {early late : List (Entry σ)} {args : σ.Arguments}
    (h : g.volley s = early ++ .call args :: late) : late = [] := by
  unfold Gate.volley at h
  cases ho : g.settings.oneShot <;> rw [ho] at h <;>
    rcases early with _ | ⟨x, _ | ⟨y, _ | ⟨z, early⟩⟩⟩ <;> simp_all

/-- In a volley the fire comes first. -/
theorem fire_in_volley {s s' : State σ} {early late : List (Entry σ)}
    (h : g.volley s = early ++ .event .fired s' :: late) : s = s' ∧ early = [] := by
  unfold Gate.volley at h
  cases ho : g.settings.oneShot <;> rw [ho] at h <;>
    rcases early with _ | ⟨x, _ | ⟨y, _ | ⟨z, early⟩⟩⟩ <;> simp_all

theorem not_plain {early late : List (Entry σ)} {x y : Entry σ} (hx : x.isPlain = true)
    (hy : y.isPlain = false) : [x] ≠ early ++ y :: late := by
  intro h
  have hm : y ∈ [x] := h ▸ List.mem_append_right _ List.mem_cons_self
  rw [List.mem_singleton.1 hm, hx] at hy
  cases hy

theorem calls (h : g.Volleys l) {early late : List (Entry σ)} {args : σ.Arguments}
    (he : l = early ++ .call args :: late) :
    ∃ earlier s, early ++ [.call args] = earlier ++ g.volley s := by
  induction h generalizing late with
  | nil => cases early <;> cases he
  | plain h plain ih =>
    rcases History.split_append he with ⟨inner, hl, -⟩ | ⟨mid, -, hx⟩
    · exact ih hl
    · exact absurd hx (not_plain plain rfl)
  | @volley l h s ih =>
    rcases History.split_append he with ⟨inner, hl, -⟩ | ⟨mid, rfl, hx⟩
    · exact ih hl
    · obtain rfl := call_in_volley hx
      exact ⟨l, s, by rw [hx, List.append_assoc]⟩

theorem fires (h : g.Volleys l) {early late : List (Entry σ)} {s : State σ}
    (he : l = early ++ .event .fired s :: late) :
    ∃ later, .event .fired s :: late = g.volley s ++ later := by
  induction h generalizing late with
  | nil => cases early <;> cases he
  | plain h plain ih =>
    rcases History.split_append he with ⟨inner, hl, rfl⟩ | ⟨mid, -, hx⟩
    · obtain ⟨later, hlater⟩ := ih hl
      exact ⟨later ++ _, by rw [← List.cons_append, hlater, List.append_assoc]⟩
    · exact absurd hx (not_plain plain rfl)
  | volley h s' ih =>
    rcases History.split_append he with ⟨inner, hl, rfl⟩ | ⟨mid, -, hx⟩
    · obtain ⟨later, hlater⟩ := ih hl
      exact ⟨later ++ _, by rw [← List.cons_append, hlater, List.append_assoc]⟩
    · obtain ⟨rfl, rfl⟩ := fire_in_volley hx
      exact ⟨[], by rw [List.append_nil, hx, List.nil_append]⟩

end Gate.Volleys

namespace History

variable {g : Gate σ δ}

theorem events_append (late early : History σ) : events (late ++ early) = early.events ++ late.events := by
  simp [events]

theorem verdicts_append (late early : History σ) :
    verdicts (late ++ early) = verdicts early ++ verdicts late := by
  simp [verdicts, events_append]

theorem attempted_append {late : History σ} (hl : ∀ m ∈ late, m.isBegan = false) (h : History σ) :
    attempted g (late ++ h) = attempted g h := by
  induction late with
  | nil => rfl
  | cons m late ih =>
    obtain ⟨hm, hlate⟩ := List.forall_mem_cons.1 hl
    cases m with
    | began a op => cases hm
    | _ => exact ih hlate

end History

namespace Operation

variable {g : Gate σ δ} {a : Activity} {s : State σ}

/-- The first section of an operation that attempts to fire leaves the flags alone. -/
theorem entered_flags {op : Operation σ} (h : op.attempts g s = true) :
    (op.entered s).enabled = s.enabled ∧ (op.entered s).debug = s.debug := by
  cases op with
  | set i v =>
    have hen : s.enabled = true := (Bool.and_eq_true_iff.1 h).1
    simp [entered, opening, hen, Change.apply]
  | fire => exact ⟨rfl, rfl⟩
  | _ => cases h

theorem not_verdict_of_opening {op : Operation σ} {c : Change σ} {e : Event σ}
    (hc : op.opening s = some c) (he : c.event? g (some op) s = some e) : e.isVerdict = false := by
  cases op <;> simp only [opening] at hc <;> (try split at hc) <;> cases hc <;> cases he <;> rfl

/-- The event of the first section tells of no attempt to fire. -/
theorem entrance_quiet (g : Gate σ δ) (a : Activity) (s : State σ) (op : Operation σ) :
    (∀ x ∈ (op.entrance g a s).log, x.isPlain = true) ∧ History.verdicts (op.entrance g a s) = [] := by
  unfold entrance
  cases hc : op.opening s with
  | none => exact ⟨List.forall_mem_nil _, rfl⟩
  | some c =>
    simp only
    cases he : c.event? g (some op) s with
    | none => exact ⟨List.forall_mem_nil _, rfl⟩
    | some e =>
      have hquiet := not_verdict_of_opening hc he
      cases c.traced s with
      | false => exact ⟨List.forall_mem_nil _, rfl⟩
      | true =>
        refine ⟨List.forall_mem_singleton.2 ?_, ?_⟩
        · cases e <;> first | rfl | cases hquiet
        · exact List.filter_eq_nil_iff.2 (List.forall_mem_singleton.2 (by simp [hquiet]))

end Operation

namespace Attempt

variable {g : Gate σ δ} {a : Activity} {s s' : State σ} {new : History σ} {e : Ending σ}

/-- An attempt on an enabled and traced gate tells one verdict, right after the slots were copied. -/
theorem told (attempt : Attempt g a s new s' e) (hen : s.enabled = true) (hd : s.debug = true) :
    ∃ late verdict, new = late ++ [.emitted verdict true s, .changed a .copied s] ∧
      History.verdicts new = [verdict] ∧ verdict.isVerdict = true ∧ g.Verdict s (verdict.record g) := by
  cases attempt with
  | refused disabled =>
    rw [hen] at disabled
    cases disabled
  | unbound enabled unbound =>
    rw [Event.notice, hd]
    exact ⟨[], _, rfl, rfl, rfl, .unbound rfl unbound⟩
  | pending enabled bound incomplete =>
    have hnonempty : g.pending s.slots ≠ [] := fun h =>
      absurd (incomplete.symm.trans ((g.pending_eq_nil_iff s.slots).1 h)) Bool.false_ne_true
    rw [Event.notice, hd]
    exact ⟨[], _, rfl, rfl, rfl, .pending rfl bound rfl hnonempty⟩
  | fires enabled bound complete lasting =>
    rw [Event.notice, hd]
    exact ⟨[], _, rfl, rfl, rfl, .fired rfl bound ((Slots.allSet_eq_true_iff _).1 complete)⟩
  | consumes enabled bound complete oneShot =>
    rw [Event.notice, Event.notice, hd]
    exact ⟨_, _, rfl, rfl, rfl, .fired rfl bound ((Slots.allSet_eq_true_iff _).1 complete)⟩

/-- A fire is told and called in one go. -/
theorem volleys (attempt : Attempt g a s new s' e) (hd : s.debug = true) {l : List (Entry σ)}
    (hl : g.Volleys l) : g.Volleys (l ++ (new.log ++ (e.moments a).log)) := by
  cases attempt with
  | refused disabled => exact hl.append (List.forall_mem_nil _)
  | unbound enabled unbound =>
    rw [Event.notice, hd]
    exact hl.plain rfl
  | pending enabled bound incomplete =>
    rw [Event.notice, hd]
    exact hl.plain rfl
  | fires enabled bound complete lasting =>
    have hvolley := hl.volley s
    rw [Gate.volley, lasting] at hvolley
    rw [Event.notice, hd]
    exact hvolley
  | consumes enabled bound complete oneShot =>
    have hvolley := hl.volley s
    rw [Gate.volley, oneShot] at hvolley
    rw [Event.notice, Event.notice, hd]
    exact hvolley

end Attempt

namespace Passage

variable {g : Gate σ δ} {a : Activity} {op : Operation σ} {s s' : State σ} {new : History σ}
  {e : Ending σ}

/-- What is added to the log by a passage. -/
theorem volleys (passage : Passage g a s op new s' e) (hd : s.debug = true) {l : List (Entry σ)}
    (hl : g.Volleys l) : g.Volleys (l ++ (new.log ++ (e.moments a).log)) := by
  have hentrance := hl.append (op.entrance_quiet g a s).1
  cases passage with
  | answers opens no =>
    change g.Volleys (l ++ (History.log _ ++ []))
    rw [List.append_nil]
    exact hentrance
  | attempts yes attempt =>
    have hvolleys := attempt.volleys ((Operation.entered_flags yes).2.trans hd) hentrance
    rw [History.log_append, List.append_assoc, ← List.append_assoc l]
    exact hvolleys

/-- The verdicts of a passage, and the states of its attempts on an enabled gate. -/
theorem verdicts (passage : Passage g a s op new s' e) (hd : s.debug = true) :
    List.Forall₂ (fun s e => g.Verdict s (e.record g))
      (if s.enabled && op.attempts g s then [op.entered s] else []) new.verdicts := by
  have hquiet := (op.entrance_quiet g a s).2
  cases passage with
  | answers opens no =>
    rw [no, hquiet, Bool.and_false]
    exact .nil
  | @attempts late s' e yes attempt =>
    obtain ⟨hflag, hdebug⟩ := Operation.entered_flags yes
    rw [History.verdicts_append, hquiet, List.nil_append, yes, Bool.and_true]
    cases hen : s.enabled with
    | false =>
      -- a disabled gate refuses, and tells of nothing
      cases attempt with
      | refused disabled => exact .nil
      | _ enabled => exact absurd ((hflag.trans hen).symm.trans enabled) Bool.false_ne_true
    | true =>
      obtain ⟨-, verdict, -, hverdicts, -, hverdict⟩ :=
        attempt.told (hflag.trans hen) (hdebug.trans hd)
      rw [hverdicts]
      exact .cons hverdict .nil

end Passage

/-- What comes between passages begins nothing, tells nothing and calls nothing. -/
theorem Moment.closing_quiet {m : Moment σ} (hm : m.isClosing = true) :
    m.isBegan = false ∧ History.verdicts [m] = [] ∧ ∀ x ∈ History.log [m], x.isPlain = true := by
  cases m with
  | returned a => exact ⟨rfl, rfl, List.forall_mem_singleton.2 rfl⟩
  | panicked => exact ⟨rfl, rfl, List.forall_mem_nil _⟩
  | finished a x s =>
    refine ⟨rfl, rfl, ?_⟩
    obtain ⟨id, c⟩ := a
    cases c with
    | top => exact List.forall_mem_nil _
    | _ => exact List.forall_mem_singleton.2 rfl
  | _ => cases hm

namespace History

variable {g : Gate σ δ}

theorem attempted_passage {a : Activity} {op : Operation σ} {new h : History σ} {s : State σ}
    {e : Ending σ} (passage : Passage g a (h.current g) op new s e) :
    attempted g (e.moments a ++ (new ++ h)) = attempted g h ++
      if (h.current g).enabled && op.attempts g (h.current g) then [op.entered (h.current g)]
      else [] := by
  obtain ⟨course, rfl, hinner⟩ := passage.begins
  have hcourse : ∀ m ∈ course, m.isBegan = false := fun m hm => Moment.not_began_of_inner (hinner m hm)
  have hmoments : ∀ m ∈ e.moments a, m.isBegan = false := by
    cases e with
    | answer x => exact List.forall_mem_nil _
    | call args => exact List.forall_mem_singleton.2 rfl
  rw [attempted_append hmoments, List.append_assoc, attempted_append hcourse]
  rfl

/-- In an unbroken history verdicts and attempts come in pairs, and fires and calls together. -/
theorem Unbroken.paired {h : History σ} (hh : h.Unbroken g) (hdebug : g.settings.debug = true)
    (hl : h.Each (Moment.Lawful g)) (ht : h.Traced) :
    List.Forall₂ (fun s e => g.Verdict s (e.record g)) (h.attempted g) h.verdicts ∧
      g.Volleys h.log := by
  induction hh with
  | nil => exact ⟨.nil, .nil⟩
  | @passage a op new h s e passage _ ih =>
    rw [← List.append_assoc] at hl ht
    have hlh : h.Each (Moment.Lawful g) := each_suffix hl
    have hth : h.Traced := fun m hm => ht m (List.mem_append_right _ hm)
    have hd := current_debug hdebug hlh hth
    obtain ⟨hverdicts, hvolleys⟩ := ih hlh hth
    constructor
    · have hnone : verdicts (e.moments a) = [] := by cases e <;> rfl
      rw [attempted_passage passage, verdicts_append, verdicts_append, hnone, List.append_nil]
      exact List.rel_append hverdicts (passage.verdicts hd)
    · rw [log_append, log_append, List.append_assoc]
      exact passage.volleys hd hvolleys
  | @closing m h closing _ ih =>
    obtain ⟨hverdicts, hvolleys⟩ := ih hl.2 (List.forall_mem_cons.1 ht).2
    obtain ⟨hbegan, hnone, hplain⟩ := Moment.closing_quiet closing
    rw [← List.singleton_append, attempted_append (List.forall_mem_singleton.2 hbegan),
      verdicts_append, hnone, List.append_nil, log_append]
    exact ⟨hverdicts, hvolleys.append hplain⟩

end History

namespace Run

/-- In a run in which debug stays on and no subscriber acts, the trace tells how each attempt to fire
was decided. -/
theorem fire_decisions_traced (g : Gate σ (Delegate σ)) (dispatch : Dispatch)
    (ops : List (Operation σ)) (hdebug : g.settings.debug = true) :
    let r := performAll g (start g [] dispatch) ops
    r.history.Traced → r.history.Decided g := by
  intro r ht
  have hunbroken := unbroken_performAll g dispatch ops
  have hl := (recorded_performAll g [] dispatch ops).lawful
  obtain ⟨hverdicts, hvolleys⟩ := hunbroken.paired hdebug hl ht
  constructor
  case attempts =>
    intro after a op before he s hen hattempts
    obtain ⟨later, new, s', e, hpassage, hlater⟩ := hunbroken.passage_at he
    have hd : s.debug = true := by
      refine History.current_debug hdebug (History.each_before hl he) fun m hm => ht m ?_
      exact he ▸ List.mem_append_right _ (List.mem_cons_of_mem _ hm)
    cases hpassage with
    | answers opens no => exact absurd (no.symm.trans hattempts) Bool.false_ne_true
    | @attempts new s' e yes attempt =>
      obtain ⟨hflag, hdebug'⟩ := Operation.entered_flags yes
      obtain ⟨late, verdict, hnew, -, hverdict, htells⟩ :=
        attempt.told (hflag.trans hen) (hdebug'.trans hd)
      refine ⟨later ++ (e.moments a ++ late), verdict, ?_, hverdict, htells⟩
      rw [hlater, hnew]
      simp [s]
  case verdicts => exact hverdicts
  case calls => exact fun early args late he => hvolleys.calls he
  case fires => exact fun early s late he => hvolleys.fires he

/-- A one-shot gate whose delegate fires it, fills it again and panics: four verdicts, two calls. -/
theorem fire_decisions_traced_of_panic :
    let g := Gate.flags { debug := true, oneShot := true }
      [[.perform .fire, .perform (.assign Gate.left false), .perform (.set Gate.right true)], [.panic]]
    let r := performAll g (start g [] (.registering [])) [.set Gate.left true, .set Gate.right true]
    r.history.Traced ∧ r.history.countP (fun m => m matches .panicked) = 1 ∧
      (r.history.verdicts.map Event.message) =
        ["gate.fire.pending", "gate.fire", "gate.fire.pending", "gate.fire"] ∧
      r.history.Decided g := by
  intro g r
  have ht : r.history.Traced := by
    unfold History.Traced
    decide +kernel
  exact ⟨ht, by decide +kernel, by decide +kernel, fire_decisions_traced g _ _ rfl ht⟩

end Run

end SlotGate
