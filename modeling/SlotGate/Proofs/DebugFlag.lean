import Mathlib.Data.List.Forall2
import SlotGate.Proofs.Telling

/-!
# The debug flag is a filter

Two runs that set debug differently, and do the same otherwise, are the same run with debug muted. Their
sections have the same events to tell. So each of them tells what a run with debug on throughout tells, but
for the sections that found debug off; the events about the flag itself are apart from this.
-/
namespace SlotGate

variable {σ : Signature} {δ : Type}

def Change.isDebugSet : Change σ → Bool
  | .debugSet _ => true
  | _ => false

def Event.isDebugChanged : Event σ → Bool
  | .debugChanged _ => true
  | _ => false

/-- A section without the debug flag. -/
def Section.mute (x : Section σ) : Section σ where
  owner := x.owner
  change := x.change.mute
  found := x.found.withDebug false
  event := if x.change.isDebugSet then none else x.event

namespace History

theorem operation?_mute (a : Activity) (h : History σ) :
    h.mute.operation? a = (h.operation? a).map (Operation.withDebug false) := by
  induction h with
  | nil => rfl
  | cons m h ih =>
    cases m with
    | began b op =>
      simp only [mute, Moment.mute, operation?, ih]
      split <;> rfl
    | _ => exact ih

theorem current_mute (g : Gate σ (Delegate σ)) (h : History σ) :
    h.mute.current (g.withDebug false) = (h.current g).withDebug false := by
  induction h with
  | nil => rfl
  | cons m h ih =>
    cases m with
    | changed => rfl
    | _ => exact ih

end History

/-- The event of a section depends on the flag only where the section sets it. -/
theorem Change.event?_mute (g : Gate σ (Delegate σ)) (op : Option (Operation σ)) (s : State σ)
    (c : Change σ) (hc : c.isDebugSet = false) :
    c.mute.event? (g.withDebug false) (op.map (Operation.withDebug false)) (s.withDebug false) =
      c.event? g op s := by
  cases c with
  | debugSet => cases hc
  | stored i v =>
    cases op with
    | none => rfl
    | some op => cases op <;> rfl
  | copied =>
    have hbound := g.isBound_withDebug false
    simp only [mute, event?, hbound]
    rfl
  | _ => rfl

/-- Only a section that sets debug has this to tell, and it has nothing else. -/
theorem Change.event?_debugChanged (g : Gate σ δ) (op : Option (Operation σ)) (s : State σ)
    (c : Change σ) (on : Bool) : c.event? g op s = some (.debugChanged on) ↔ c = .debugSet on := by
  cases c with
  | stored i v =>
    cases op with
    | none => simp [event?]
    | some op => cases op <;> simp [event?]
  | copied =>
    simp only [event?]
    split
    · simp
    · split <;> simp
  | _ => simp [event?]

namespace History

theorem prospects_mute (g : Gate σ (Delegate σ)) (h : History σ) :
    (h.mute.prospects (g.withDebug false)).map Section.mute = (h.prospects g).map Section.mute := by
  induction h with
  | nil => rfl
  | cons m h ih =>
    cases m with
    | changed a c s =>
      simp only [mute, Moment.mute, prospects, List.map_cons, ih]
      congr 1
      have hc : c.mute.isDebugSet = c.isDebugSet := by cases c <;> rfl
      have hmute : c.mute.mute = c.mute := by cases c <;> rfl
      simp only [Section.mute, hc, hmute, current_mute, due, operation?_mute]
      cases hset : c.isDebugSet with
      | true => rfl
      | false => simp [Change.event?_mute g _ _ c hset]; rfl
    | _ => exact ih

theorem prospects_debugChanged {g : Gate σ δ} {h : History σ} {x : Section σ}
    (hx : x ∈ h.prospects g) (on : Bool) :
    x.event = some (.debugChanged on) ↔ x.change = .debugSet on := by
  induction h with
  | nil => cases hx
  | cons m h ih =>
    cases m with
    | changed a c s =>
      rcases List.mem_cons.1 hx with rfl | hx
      · exact Change.event?_debugChanged g _ _ c on
      · exact ih hx
    | _ => exact ih hx

end History

/-- The section `x` of a run and the section `y` of the run with debug on are the same, and `x` tells what
`y` tells if it found debug on. -/
structure Section.Filters (x y : Section σ) : Prop where
  owner : x.owner = y.owner
  change : x.change.mute = y.change.mute
  found : x.found.withDebug true = y.found
  event : x.change.isDebugSet = false → x.event = if x.found.debug then y.event else none
  /-- The setting of debug is told where debug is on before or after. -/
  toggle : ∀ on, x.change = .debugSet on →
    x.event = if on || x.found.debug then some (.debugChanged on) else none
  loud : x.change.isDebugSet = true → ∃ on, y.event = some (.debugChanged on)
  other : ∀ on, x.event = some (.debugChanged on) → x.change = .debugSet on

theorem Section.filters_of_mute_eq {p q : Section σ} (h : p.mute = q.mute)
    (hp : ∀ on, p.event = some (.debugChanged on) ↔ p.change = .debugSet on)
    (hq : ∀ on, q.event = some (.debugChanged on) ↔ q.change = .debugSet on)
    (hloud : q.found.debug = true) : p.told.Filters q.told := by
  obtain ⟨howner, hchange, hfound, hevent⟩ := Section.mk.inj h
  have hset : p.change.isDebugSet = q.change.isDebugSet := by
    cases hc : p.change <;> cases hc' : q.change <;> rw [hc, hc'] at hchange <;>
      first | rfl | cases hchange
  have hslots : p.found.slots = q.found.slots := (State.mk.inj hfound).1
  have henabled : p.found.enabled = q.found.enabled := (State.mk.inj hfound).2.1
  have htraced : ∀ (c : Change σ) (s : State σ), c.isDebugSet = false → c.traced s = s.debug := by
    intro c s hc
    cases c <;> first | rfl | cases hc
  constructor
  case owner => exact howner
  case change => exact hchange
  case found =>
    change p.found.withDebug true = q.found
    rw [State.withDebug, hslots, henabled, ← hloud]
  case event =>
    intro hnot
    have hp' : p.change.isDebugSet = false := hnot
    have hq' : q.change.isDebugSet = false := hset ▸ hp'
    have hsame : p.event = q.event := by simpa [hp', hq'] using hevent
    simp [told, htraced _ _ hp', htraced _ _ hq', hloud, hsame]
  case toggle =>
    intro on hon
    have hchange : p.change = .debugSet on := hon
    simp [told, (hp on).2 hchange, hchange, Change.traced]
  case loud =>
    intro hon
    obtain ⟨on, hon⟩ : ∃ on, q.change = .debugSet on := by
      have hq' : q.change.isDebugSet = true := hset ▸ hon
      cases hc : q.change <;> first | exact ⟨_, rfl⟩ | (rw [hc] at hq'; cases hq')
    exact ⟨on, by simp [told, (hq on).2 hon, hon, Change.traced, hloud]⟩
  case other =>
    intro on hon
    refine (hp on).1 ?_
    simp only [told] at hon
    split at hon
    · exact hon
    · cases hon

/-- Two runs that are the same with debug muted, one of them with debug on throughout. -/
theorem History.sections_filters {g g' : Gate σ (Delegate σ)} {h h' : History σ}
    (hg : g.withDebug false = g'.withDebug false) (hh : h.mute = h'.mute) (ht : h.Told g)
    (ht' : h'.Told g') (hloud : ∀ x ∈ h'.prospects g', x.found.debug = true) :
    List.Forall₂ Section.Filters (h.sections g) (h'.sections g') := by
  rw [ht.sections_eq, ht'.sections_eq, List.forall₂_map_left_iff, List.forall₂_map_right_iff]
  have hmute : (h.prospects g).map Section.mute = (h'.prospects g').map Section.mute := by
    calc (h.prospects g).map Section.mute
        = (h.mute.prospects (g.withDebug false)).map Section.mute := (prospects_mute g h).symm
      _ = (h'.mute.prospects (g'.withDebug false)).map Section.mute := by rw [hg, hh]
      _ = (h'.prospects g').map Section.mute := prospects_mute g' h'
  rw [← List.forall₂_eq_eq_eq, List.forall₂_map_left_iff, List.forall₂_map_right_iff] at hmute
  refine List.forall₂_iff_zip.2 ⟨hmute.length_eq, fun hmem => ?_⟩
  obtain ⟨hx, hy⟩ := List.of_mem_zip hmem
  exact Section.filters_of_mute_eq (List.forall₂_zip hmute hmem) (prospects_debugChanged hx)
    (prospects_debugChanged hy) (hloud _ hy)

/-- Where sections filter others one by one, their events, but for those about the flag, are the events
of the others whose counterpart found debug on. -/
theorem Section.events_filtered {xs ys : List (Section σ)} (h : List.Forall₂ Section.Filters xs ys) :
    (xs.filterMap Section.event).filter (fun e => !e.isDebugChanged) =
      (((xs.zip ys).filter fun p => p.1.found.debug).filterMap fun p => p.2.event).filter
        fun e => !e.isDebugChanged := by
  simp only [List.filter_filterMap, List.filterMap_filter]
  induction h with
  | nil => rfl
  | @cons x y xs ys hxy h ih =>
    -- the first event of either side, if it counts at all
    have hfirst : (x.event.filter fun e => !e.isDebugChanged) =
        (if x.found.debug then y.event else none).filter fun e => !e.isDebugChanged := by
      cases hset : x.change.isDebugSet with
      | false => rw [hxy.event hset]
      | true =>
        obtain ⟨on, hy⟩ := hxy.loud hset
        obtain ⟨on', hx⟩ : ∃ on, x.change = .debugSet on := by
          cases hc : x.change <;> first | exact ⟨_, rfl⟩ | (rw [hc] at hset; cases hset)
        rw [hxy.toggle on' hx, hy]
        cases on' <;> cases x.found.debug <;> rfl
    rw [List.zip_cons_cons, List.filterMap_cons, List.filterMap_cons, hfirst, ih]

namespace Run

variable {g : Gate σ δ} {P : Caller → Operation σ → Prop}

/-- What holds of all operations that are asked for, and of those that have begun. -/
structure Asked (P : Caller → Operation σ → Prop) (tasks : Agenda σ) (r : Run σ) : Prop where
  ahead : ∀ caller op, .start caller op ∈ tasks → P caller op
  scripts : ∀ s ∈ r.scripts, ∀ op, .perform op ∈ s → P .script op
  reactions : ∀ x ∈ r.reactions, ∀ op ∈ x.operations, P .subscriber op
  begun : ∀ a op, .began a op ∈ r.history → P a.caller op

theorem asked_step {t : Task σ} {rest : Agenda σ} {r : Run σ} (hu : r.unwinding = false)
    (h : Asked P (t :: rest) r) : Asked P ((t.step g r).1 ++ rest) (t.step g r).2 := by
  have hframe := Task.step_frame g hu t
  obtain ⟨new, s, heffect, -, hnew⟩ := Task.step_effect g hu t
  constructor
  case ahead =>
    intro caller op hmem
    rcases List.mem_append.1 hmem with hmem | hmem
    · cases Task.successor_of_mem_step hmem with
      | reaction hx hop => exact h.reactions _ hx _ hop
      | script hs hop => exact h.scripts _ hs _ hop
    · exact h.ahead caller op (List.mem_cons_of_mem _ hmem)
  case scripts => exact fun s hs => h.scripts s (hframe.scripts s hs)
  case reactions => exact fun x hx => h.reactions x (hframe.reactions x hx)
  case begun =>
    intro a op hmem
    rw [hnew] at hmem
    rcases List.mem_append.1 hmem with hmem | hmem
    · obtain ⟨after, before, he⟩ := List.append_of_mem hmem
      obtain ⟨caller, rfl, rfl, -⟩ := heffect.of_began he
      exact h.ahead caller op List.mem_cons_self
    · exact h.begun a op hmem

theorem asked_invariant (g : Gate σ δ) (P : Caller → Operation σ → Prop) :
    Invariant g (P .top) (Asked P) where
  begins op r hop _ h := by
    refine ⟨fun caller op' hmem => ?_, h.scripts, h.reactions, h.begun⟩
    obtain ⟨rfl, rfl⟩ : caller = .top ∧ op' = op := by simpa using hmem
    exact hop
  keeps t rest r _ hu h := asked_step hu h
  drops t rest r _ h :=
    ⟨fun caller op hmem => h.ahead caller op (List.mem_cons_of_mem _ hmem), h.scripts, h.reactions,
      h.begun⟩
  settles _ h := ⟨h.ahead, h.scripts, h.reactions, h.begun⟩

theorem asked_performAll {g : Gate σ (Delegate σ)} {dispatch : Dispatch} {ops : List (Operation σ)}
    (hops : ∀ op ∈ ops, P .top op)
    (hscripts : ∀ d ∈ g.delegate, ∀ s ∈ d.scripts, ∀ op, .perform op ∈ s → P .script op) :
    ∀ a op, .began a op ∈ (performAll g (start g [] dispatch) ops).history → P a.caller op := by
  have hstart : Asked P [] (start g [] dispatch) := by
    refine ⟨by simp, fun s hs => ?_, by simp [start], by simp [start]⟩
    cases hd : g.delegate with
    | none => simp [start, hd] at hs
    | some d => exact hscripts d hd s (by simpa [start, hd] using hs)
  exact ((asked_invariant g P).performAll ops hops rfl hstart).begun

end Run

namespace History

variable {g : Gate σ δ}

/-- A section is the first one of a set_debug, if it sets debug. -/
theorem debugSet_asked {a : Activity} {on : Bool} {s : State σ} {before : History σ}
    (h : Moment.Lawful g (.changed a (.debugSet on) s) before) :
    ∃ earlier, before = .began a (.setDebug on) :: earlier := by
  cases h.2 with
  | opening began opens =>
    next op earlier =>
    cases op <;> simp only [Operation.opening] at opens <;> grind
  | attempt h => split at h <;> cases h
  | sweep h => split at h <;> cases h

theorem of_mem_prospects {h : History σ} {x : Section σ} (hx : x ∈ h.prospects g) :
    ∃ after s, ∃ before : History σ, h = after ++ .changed x.owner x.change s :: before ∧
      x.found = before.current g := by
  induction h with
  | nil => cases hx
  | cons m h ih =>
    have hlater : x ∈ prospects g h → ∃ after s, ∃ before : History σ,
        m :: h = after ++ .changed x.owner x.change s :: before ∧ x.found = before.current g := by
      intro hx
      obtain ⟨after, s, before, rfl, hfound⟩ := ih hx
      exact ⟨m :: after, s, before, rfl, hfound⟩
    cases m with
    | changed a c s =>
      rcases List.mem_cons.1 hx with rfl | hx
      · exact ⟨[], s, h, rfl, rfl⟩
      · exact hlater hx
    | _ => exact hlater hx

/-- Where no section turns debug on, no section finds it on. -/
theorem current_quiet (hdebug : g.settings.debug = false) {h : History σ}
    (hl : h.Each (Moment.Lawful g)) (hq : ∀ a s, .changed a (.debugSet true) s ∉ h) :
    (h.current g).debug = false := by
  induction h with
  | nil => exact hdebug
  | cons m h ih =>
    have hbefore := ih hl.2 fun a s hm => hq a s (List.mem_cons_of_mem _ hm)
    cases m with
    | changed a c s =>
      obtain ⟨rfl, -⟩ := hl.1
      cases c with
      | debugSet on =>
        cases on with
        | false => rfl
        | true => exact absurd List.mem_cons_self (hq a _)
      | _ => exact hbefore
    | _ => exact hbefore

/-- A run in which debug is never on tells nothing. -/
theorem Told.quiet {h : History σ} (ht : h.Told g) (hl : h.Each (Moment.Lawful g))
    (hdebug : g.settings.debug = false) (hq : ∀ a, .began a (.setDebug true) ∉ h) :
    h.events = [] := by
  have hsections : ∀ {after before : History σ} {a s},
      h ≠ after ++ .changed a (.debugSet true) s :: before := by
    intro after before a s he
    obtain ⟨earlier, rfl⟩ := debugSet_asked (each_at hl he)
    exact hq a (by simp [he])
  rw [ht.events_eq, ht.sections_eq, List.filterMap_map, List.reverse_eq_nil_iff,
    List.filterMap_eq_nil_iff]
  intro x hx
  obtain ⟨after, s, before, he, hfound⟩ := of_mem_prospects hx
  have hfree : ∀ a s, .changed a (.debugSet true) s ∉ before := by
    intro a s hm
    obtain ⟨later, earlier, hb⟩ := List.append_of_mem hm
    rw [hb, ← List.cons_append, ← List.append_assoc] at he
    exact hsections he
  have hoff : x.found.debug = false := by
    rw [hfound]
    exact current_quiet hdebug (each_before hl he) hfree
  have htraced : x.change.traced x.found = false := by
    cases hc : x.change with
    | debugSet on =>
      cases on with
      | false => simp [Change.traced, hoff]
      | true =>
        rw [hc] at he
        exact absurd he hsections
    | _ => exact hoff
  simp [Section.told, htraced]

end History

namespace Run

/-- A set_debug has its section as soon as it has begun. -/
theorem setDebug_invariant (g : Gate σ δ) : Invariant g (fun _ => True) fun _ r =>
    r.history.Every fun after m _ => ∀ a on, m = .began a (.setDebug on) →
      ∃ later s, after = later ++ [.changed a (.debugSet on) s] where
  begins _ _ _ _ h := h
  keeps t rest r _ hu h := by
    obtain ⟨new, s, heffect, -, hnew⟩ := Task.step_effect g hu t
    rw [hnew]
    refine History.every_append h ?_ ?_
    · intro after m before hold a on hm
      obtain ⟨later, s', rfl⟩ := hold a on hm
      exact ⟨new ++ later, s', by simp⟩
    · intro after m before he a on hm
      subst hm
      cases heffect with
      | opened opens =>
        cases after with
        | nil => cases he
        | cons x after =>
          obtain ⟨rfl, hbegan⟩ := List.cons.inj he
          obtain ⟨rfl, rfl⟩ := History.split_singleton hbegan
          cases hbegan
          obtain rfl := Option.some.inj opens
          exact ⟨[], _, rfl⟩
      | began opens =>
        obtain ⟨rfl, rfl⟩ := History.split_singleton he
        cases he
        cases opens
      | silent | listened => simp at he
      | _ =>
        obtain ⟨rfl, rfl⟩ := History.split_singleton he
        cases he
  drops _ _ _ _ h := h
  settles _ h := h

variable {g g' : Gate σ (Delegate σ)}

/-- The run `r` of the gate `g` differs from the run `r'` in the debug flag alone, and tells what the run
`d` with debug on throughout tells, but for the sections that found debug off. -/
structure Filtered (g : Gate σ (Delegate σ)) (r r' d : Run σ) : Prop where
  /-- The runs have the same operations, sections, calls with their arguments, panics and answers, and
  with each of them the same slots and the same enabled flag. -/
  history : r.history.mute = r'.history.mute
  state : r.state.withDebug false = r'.state.withDebug false
  loud : ∀ x ∈ d.history.sections (g.withDebug true), x.found.debug = true
  sections : List.Forall₂ Section.Filters (r.history.sections g) (d.history.sections (g.withDebug true))
  told : r.history.events = ((r.history.sections g).filterMap Section.event).reverse
  toldLoud : d.history.events =
    ((d.history.sections (g.withDebug true)).filterMap Section.event).reverse
  /-- But for those of set_debug, the events are those of `d` whose section found debug on in `r`. -/
  events : r.history.events.filter (fun e => !e.isDebugChanged) =
    ((((r.history.sections g).zip (d.history.sections (g.withDebug true))).filter
      fun p => p.1.found.debug).filterMap fun p => p.2.event).reverse.filter
        fun e => !e.isDebugChanged
  records : ∀ e : Event σ, e.record (g.withDebug true) = e.record g
  /-- The sections that set debug are those of the set_debug operations, one each. -/
  setDebug : r.history.Every fun after m _ => ∀ a on, m = .began a (.setDebug on) →
    ∃ later s, after = later ++ [.changed a (.debugSet on) s]
  debugSet : r.history.Every fun _ m before => ∀ a on s, m = .changed a (.debugSet on) s →
    ∃ earlier, before = .began a (.setDebug on) :: earlier
  quiet : g.settings.debug = false → (∀ a, .began a (.setDebug true) ∉ r.history) →
    r.history.events = []
  /-- All events are in the log. -/
  log : r.history.log.filterMap Entry.event? = r.history.events

/-- A run without a subscriber that acts on the gate logs all its events. -/
theorem log_of_alone (g : Gate σ (Delegate σ)) (dispatch : Dispatch) (ops : List (Operation σ)) :
    let r := performAll g (start g [] dispatch) ops
    r.history.log.filterMap Entry.event? = r.history.events := by
  intro r
  have hasked : ∀ a op, .began a op ∈ r.history → a.caller ≠ .subscriber :=
    asked_performAll (P := fun caller _ => caller ≠ .subscriber) (by simp) (by simp)
  have hread : r.history.ReadOnly := by
    intro m hm
    cases m with
    | began a op =>
      obtain ⟨id, caller⟩ := a
      cases caller with
      | subscriber => exact absurd rfl (hasked _ op hm)
      | _ => rfl
    | _ => rfl
  have hattentive := (attentive_invariant g).performAll ops (fun _ _ => trivial)
    (r := start g [] dispatch) rfl fun _ => ⟨by simp [start], fun _ => .inl rfl, by simp [start]⟩
  exact History.log_events fun e heard s hm => (hattentive hread).heard e heard s hm

/-- With debug on throughout every section finds it on. -/
theorem loud_performAll (g : Gate σ (Delegate σ)) (dispatch : Dispatch) (ops : List (Operation σ)) :
    let d := performAll (g.withDebug true) (start (g.withDebug true) [] dispatch)
      (ops.map (Operation.withDebug true))
    ∀ x ∈ d.history.prospects (g.withDebug true), x.found.debug = true := by
  intro d x hx
  have hloud : ∀ op : Operation σ, op.withDebug true ≠ .setDebug false := by
    intro op
    cases op <;> simp [Operation.withDebug]
  have hasked : ∀ a op, .began a op ∈ d.history → op ≠ .setDebug false := by
    refine asked_performAll (P := fun _ op => op ≠ .setDebug false) ?_ ?_
    · simp [hloud]
    · intro d' hd s hs op hop
      obtain ⟨d₀, -, rfl⟩ := Option.map_eq_some_iff.1 hd
      obtain ⟨s₀, -, rfl⟩ := List.mem_map.1 hs
      obtain ⟨c, -, hc⟩ := List.mem_map.1 hop
      cases c with
      | perform op₀ =>
        obtain rfl := Command.perform.inj hc
        exact hloud op₀
      | panic => cases hc
  have hrec : Recorded (g.withDebug true) d := recorded_performAll (g.withDebug true) [] dispatch _
  have htraced : d.history.Traced := by
    intro m hm
    cases m with
    | changed a c s =>
      cases c with
      | debugSet on =>
        cases on with
        | true => rfl
        | false =>
          obtain ⟨after, before, he⟩ := List.append_of_mem hm
          obtain ⟨earlier, rfl⟩ := History.debugSet_asked (History.each_at hrec.lawful he)
          exact absurd rfl (hasked a _ (by simp [he]))
      | _ => rfl
    | _ => rfl
  obtain ⟨after, s, before, he, hfound⟩ := History.of_mem_prospects hx
  rw [hfound]
  exact History.current_debug rfl (History.each_before hrec.lawful he) fun m hm =>
    htraced m ((History.before_suffix he).subset hm)

theorem mute_performAll (g : Gate σ (Delegate σ)) (dispatch : Dispatch) (ops : List (Operation σ)) :
    (performAll g (start g [] dispatch) ops).mute = performAll (g.withDebug false)
      (start (g.withDebug false) [] (.registering [])) (ops.map (Operation.withDebug false)) := by
  rw [← start_mute g dispatch]
  exact (performAll_mute ops rfl).symm

theorem mute_loud (g : Gate σ (Delegate σ)) (dispatch : Dispatch) (ops : List (Operation σ)) :
    (performAll g (start g [] dispatch) ops).mute = (performAll (g.withDebug true)
      (start (g.withDebug true) [] dispatch) (ops.map (Operation.withDebug true))).mute := by
  have hops : (ops.map (Operation.withDebug true)).map (Operation.withDebug false) =
      ops.map (Operation.withDebug false) := by
    rw [List.map_map]
    exact List.map_congr_left fun op _ => op.withDebug_withDebug true false
  rw [mute_performAll, mute_performAll, g.withDebug_withDebug, hops]

/-- The debug flag decides which events are told, and nothing else. -/
theorem debug_only_filters {ops ops' : List (Operation σ)}
    (hg : g.withDebug false = g'.withDebug false)
    (hops : ops.map (Operation.withDebug false) = ops'.map (Operation.withDebug false))
    (dispatch dispatch' : Dispatch) :
    Filtered g (performAll g (start g [] dispatch) ops) (performAll g' (start g' [] dispatch') ops')
        (performAll (g.withDebug true) (start (g.withDebug true) [] dispatch)
          (ops.map (Operation.withDebug true))) ∧
      (reports g (start g [] dispatch) ops).map (fun x => x.state.withDebug false) =
        (reports g' (start g' [] dispatch') ops').map fun x => x.state.withDebug false := by
  have hmute : (performAll g (start g [] dispatch) ops).mute =
      (performAll g' (start g' [] dispatch') ops').mute := by
    rw [mute_performAll, mute_performAll, hg, hops]
  have hloud := loud_performAll g dispatch ops
  have htold := told_performAll g [] dispatch ops
  have htoldLoud := told_performAll (g.withDebug true) [] dispatch (ops.map (Operation.withDebug true))
  have hrec := recorded_performAll g [] dispatch ops
  have hsections := History.sections_filters (g.withDebug_withDebug true false).symm
    (congrArg Run.history (mute_loud g dispatch ops)) htold htoldLoud hloud
  refine ⟨?_, ?_⟩
  · constructor
    case history => exact congrArg Run.history hmute
    case state => exact congrArg Run.state hmute
    case loud =>
      rw [htoldLoud.sections_eq]
      exact List.forall_mem_map.2 hloud
    case sections => exact hsections
    case told => exact htold.events_eq
    case toldLoud => exact htoldLoud.events_eq
    case events =>
      rw [htold.events_eq, List.filter_reverse, Section.events_filtered hsections,
        List.filter_reverse]
    case records => exact fun e => by cases e <;> rfl
    case setDebug =>
      exact (setDebug_invariant g).performAll ops (fun _ _ => trivial) rfl (by simp [start, History.Every])
    case debugSet =>
      rintro after m before he a on s rfl
      exact History.debugSet_asked (History.each_at hrec.lawful he)
    case quiet => exact htold.quiet hrec.lawful
    case log => exact log_of_alone g dispatch ops
  · rw [← state_reports_mute ops (r := start g [] dispatch) rfl,
      ← state_reports_mute ops' (r := start g' [] dispatch') rfl, start_mute, start_mute, hg, hops]

/-- The delegate acts on the gate and panics, and debug is turned on and off at all levels. -/
theorem debug_only_filters_of_panic :
    let g := Gate.flags { oneShot := true }
      [[.perform (.setDebug true), .perform (.set Gate.left true), .perform (.read .debug), .panic]]
    let g' := Gate.flags { oneShot := true, debug := true }
      [[.perform (.setDebug false), .perform (.set Gate.left true), .perform (.read .debug), .panic]]
    let ops : List (Operation .flags) :=
      [.assign Gate.left true, .set Gate.right true, .setDebug false, .clear]
    let ops' : List (Operation .flags) :=
      [.assign Gate.left true, .set Gate.right true, .setDebug true, .clear]
    let r := performAll g (start g [] (.registering [])) ops
    let r' := performAll g' (start g' [] (.registering [])) ops'
    let d := performAll (g.withDebug true) (start (g.withDebug true) [] (.registering []))
      (ops.map (Operation.withDebug true))
    g.withDebug false = g'.withDebug false ∧
      ops.map (Operation.withDebug false) = ops'.map (Operation.withDebug false) ∧
        r.history.events.length = 4 ∧ r'.history.events.length = 7 ∧ d.history.events.length = 9 ∧
          Filtered g r r' d ∧
            (reports g (start g [] (.registering [])) ops).map (fun x => x.state.withDebug false) =
              (reports g' (start g' [] (.registering [])) ops').map fun x => x.state.withDebug false := by
  intro g g' ops ops' r r' d
  have hg : g.withDebug false = g'.withDebug false := rfl
  have hops : ops.map (Operation.withDebug false) = ops'.map (Operation.withDebug false) := rfl
  refine ⟨hg, hops, ?_, ?_, ?_, debug_only_filters hg hops _ _⟩
  · decide +kernel
  · decide +kernel
  · decide +kernel

end Run

end SlotGate
