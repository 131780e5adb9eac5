import SlotGate.Gate.Builder

/-!
# Which names the slots of a gate can have

The names are checked one after the other, each against those before it. What is accepted is told here
of the list as a whole, and what is refused by the smallest position that has a fault; neither speaks
of the order of the checks. The letters and numbers of identifiers are those of the tables, about
which nothing is claimed.
-/
namespace SlotGate

open SlotGate.Text (alphabetic numeric isIdentifier startsIdentifier continuesIdentifier quoted
  bracketed)

/-- A name begins with an underscore or an alphabetic character, and goes on with these and numeric
ones. -/
def IsName (n : String) : Prop :=
  ∃ c rest, n.toList = c :: rest ∧ (c = '_' ∨ alphabetic.contains c = true) ∧
    ∀ d ∈ rest, d = '_' ∨ alphabetic.contains d = true ∨ numeric.contains d = true

/-- Names for the slots of a gate of some arity. -/
structure SlotNames (arity : Nat) (names : List String) : Prop where
  length : names.length = arity
  each : ∀ n ∈ names, IsName n
  distinct : names.Nodup

/-- What is wrong with the name at a position: it is empty, no identifier, or the name of a slot before
it. -/
inductive NameFault (names : List String) (i : Nat) : BindError → Prop where
  | empty (h : names[i]? = some "") : NameFault names i (.emptyName i)
  | notIdentifier {n : String} (h : names[i]? = some n) (hn : n ≠ "") (hid : ¬ IsName n) :
      NameFault names i (.notIdentifier n)
  | duplicate {n : String} (h : names[i]? = some n) (hid : IsName n) (hn : n ∈ names.take i) :
      NameFault names i (.duplicateName n)

/-- The fault at the smallest position that has one. -/
def FirstNameFault (names : List String) (e : BindError) : Prop :=
  ∃ i, NameFault names i e ∧ ∀ j < i, ∀ e', ¬ NameFault names j e'

theorem isIdentifier_iff {n : String} : isIdentifier n = true ↔ IsName n := by
  unfold isIdentifier IsName
  cases n.toList with
  | nil => simp
  | cons c rest =>
    simp only [startsIdentifier, continuesIdentifier, Bool.and_eq_true, List.all_eq_true,
      Bool.or_eq_true, decide_eq_true_iff, or_assoc]
    constructor
    · rintro ⟨hc, hrest⟩
      exact ⟨c, rest, rfl, hc, hrest⟩
    · rintro ⟨c', rest', heq, hc, hrest⟩
      cases heq
      exact ⟨hc, hrest⟩

theorem IsName.ne_empty {n : String} (h : IsName n) : n ≠ "" := by
  rintro rfl
  obtain ⟨c, rest, hnil, -⟩ := h
  cases hnil

/-! ## The first fault -/

theorem NameFault.lt_length {names : List String} {i : Nat} {e : BindError}
    (h : NameFault names i e) : i < names.length := by
  cases h with
  | empty h | notIdentifier h | duplicate h => exact (List.getElem?_eq_some_iff.1 h).1

theorem NameFault.unique {names : List String} {i : Nat} {e e' : BindError}
    (h : NameFault names i e) (h' : NameFault names i e') : e = e' := by
  cases h with
  | empty hi =>
    cases h' with
    | empty => rfl
    | notIdentifier hi' hn => exact absurd (Option.some.inj (hi'.symm.trans hi)) hn
    | duplicate hi' hid => exact absurd (Option.some.inj (hi'.symm.trans hi)) hid.ne_empty
  | notIdentifier hi hn hid =>
    cases h' with
    | empty hi' => exact absurd (Option.some.inj (hi.symm.trans hi')) hn
    | notIdentifier hi' => rw [Option.some.inj (hi.symm.trans hi')]
    | duplicate hi' hid' => exact absurd (Option.some.inj (hi'.symm.trans hi) ▸ hid') hid
  | duplicate hi hid hn =>
    cases h' with
    | empty hi' => exact absurd (Option.some.inj (hi.symm.trans hi')) hid.ne_empty
    | notIdentifier hi' _ hid' => exact absurd (Option.some.inj (hi.symm.trans hi') ▸ hid) hid'
    | duplicate hi' => rw [Option.some.inj (hi.symm.trans hi')]

/-- A fault with none before it is the first one, and the only first one. -/
theorem firstNameFault_iff {names : List String} {i : Nat} {e₀ : BindError}
    (h : NameFault names i e₀) (hbefore : ∀ j < i, ∀ e, ¬ NameFault names j e) (e : BindError) :
    FirstNameFault names e ↔ e₀ = e := by
  constructor
  · rintro ⟨j, hj, hleast⟩
    rcases Nat.lt_trichotomy i j with hlt | rfl | hlt
    · exact absurd h (hleast i hlt e₀)
    · exact h.unique hj
    · exact absurd hj (hbefore j hlt e)
  · rintro rfl
    exact ⟨i, h, hbefore⟩

/-- The faults of a name that follows the names `earlier`. -/
theorem nameFault_after_iff (earlier rest : List String) (n : String) (e : BindError) :
    NameFault (earlier ++ n :: rest) earlier.length e ↔
      n = "" ∧ e = .emptyName earlier.length ∨
      (n ≠ "" ∧ ¬ IsName n) ∧ e = .notIdentifier n ∨
      (IsName n ∧ n ∈ earlier) ∧ e = .duplicateName n := by
  have hat : (earlier ++ n :: rest)[earlier.length]? = some n := by simp
  constructor
  · intro h
    cases h with
    | empty h => exact .inl ⟨Option.some.inj (hat.symm.trans h), rfl⟩
    | notIdentifier h hn hid =>
      cases hat.symm.trans h
      exact .inr (.inl ⟨⟨hn, hid⟩, rfl⟩)
    | duplicate h hid hn =>
      cases hat.symm.trans h
      exact .inr (.inr ⟨⟨hid, by simpa using hn⟩, rfl⟩)
  · rintro (⟨rfl, rfl⟩ | ⟨⟨hn, hid⟩, rfl⟩ | ⟨⟨hid, hn⟩, rfl⟩)
    · exact .empty hat
    · exact .notIdentifier hat hn hid
    · exact .duplicate hat hid (by simpa using hn)

namespace Builder

/-- The check of the names reports the first fault of the whole list, once those before are in order. -/
theorem firstFault_eq_some_iff {earlier names : List String}
    (h : ∀ i < earlier.length, ∀ e, ¬ NameFault (earlier ++ names) i e) (e : BindError) :
    firstFault earlier names = some e ↔ FirstNameFault (earlier ++ names) e := by
  induction names generalizing earlier with
  | nil =>
    refine ⟨nofun, ?_⟩
    rintro ⟨i, hi, -⟩
    exact absurd hi (h i (by simpa using hi.lt_length) e)
  | cons n rest ih =>
    unfold firstFault
    split
    · next hempty =>
      have hn : n = "" := by simpa using hempty
      have hfault := (nameFault_after_iff earlier rest n _).2 (.inl ⟨hn, rfl⟩)
      rw [firstNameFault_iff hfault h, Option.some.injEq]
    · next hempty =>
      have hn : n ≠ "" := by simpa using hempty
      split
      · next hid =>
        have hid : ¬ IsName n := fun hname => by
          rw [isIdentifier_iff.2 hname] at hid
          cases hid
        have hfault := (nameFault_after_iff earlier rest n _).2 (.inr (.inl ⟨⟨hn, hid⟩, rfl⟩))
        rw [firstNameFault_iff hfault h, Option.some.injEq]
      · next hid =>
        have hid : IsName n := isIdentifier_iff.1 (by simpa using hid)
        split
        · next hmem =>
          have hold : n ∈ earlier := by simpa using hmem
          have hfault := (nameFault_after_iff earlier rest n _).2 (.inr (.inr ⟨⟨hid, hold⟩, rfl⟩))
          rw [firstNameFault_iff hfault h, Option.some.injEq]
        · next hmem =>
          have hnew : n ∉ earlier := by simpa using hmem
          -- a name without a fault goes to those before, whose duplicates the rest must not be
          have hsplit : earlier ++ n :: rest = (earlier ++ [n]) ++ rest := by simp
          rw [hsplit]
          refine ih fun i hi e' hfault => ?_
          rw [← hsplit] at hfault
          rcases Nat.lt_succ_iff_lt_or_eq.1 (by simpa using hi) with hlt | rfl
          · exact h i hlt e' hfault
          · rcases (nameFault_after_iff earlier rest n e').1 hfault with
              ⟨hnil, -⟩ | ⟨⟨-, hnot⟩, -⟩ | ⟨⟨-, hold⟩, -⟩
            · exact hn hnil
            · exact hnot hid
            · exact hnew hold

example : firstFault [] ["a", "b c", "", "a"] = some (.notIdentifier "b c") := by decide +kernel

end Builder

theorem SlotNames.faultless {arity : Nat} {names : List String} (h : SlotNames arity names) (i : Nat)
    (e : BindError) : ¬ NameFault names i e := by
  intro hfault
  cases hfault with
  | empty hi => exact (h.each _ (List.mem_of_getElem? hi)).ne_empty rfl
  | notIdentifier hi hn hid => exact hid (h.each _ (List.mem_of_getElem? hi))
  | duplicate hi hid hn =>
    obtain ⟨hlt, hi⟩ := List.getElem?_eq_some_iff.1 hi
    obtain ⟨j, hj, heq⟩ := List.mem_take_iff_getElem.1 hn
    have hne := List.pairwise_iff_getElem.1 h.distinct j i (by omega) hlt (by omega)
    exact hne (heq.trans hi.symm)

theorem slotNames_iff {arity : Nat} {names : List String} :
    SlotNames arity names ↔ names.length = arity ∧ Builder.firstFault [] names = none := by
  constructor
  · intro h
    refine ⟨h.length, Option.eq_none_iff_forall_not_mem.2 fun e he => ?_⟩
    obtain ⟨i, hi, -⟩ := (Builder.firstFault_eq_some_iff (by simp) e).1 he
    exact h.faultless i e hi
  · rintro ⟨hlength, hnone⟩
    obtain ⟨hall, hdistinct⟩ := Builder.firstFault_eq_none hnone List.nodup_nil
    exact ⟨hlength, fun n hn => isIdentifier_iff.1 (hall n hn), hdistinct⟩

/-! ## Building -/

namespace Builder

variable {σ : Signature} {δ : Type}

/-- How building can end: with a fault that is only returned, or with a gate that is reported. -/
inductive Ends (b : Builder δ) (mode : LockMode) : Reported (Except BindError (Gate σ δ)) → Prop where
  | mismatched (h : b.slotNames.length ≠ σ.arity) :
      Ends b mode ⟨.error (.arityMismatch σ.arity b.slotNames.length), []⟩
  | refused (h : b.slotNames.length = σ.arity) {e : BindError}
      (fault : firstFault [] b.slotNames = some e) : Ends b mode ⟨.error e, []⟩
  | built (h : b.slotNames.length = σ.arity) (faultless : firstFault [] b.slotNames = none)
      {g : Gate σ δ} (name : g.name = b.name) (names : g.slotNames.toList = b.slotNames)
      (settings : g.settings = b.settings) (lockMode : g.lockMode = mode)
      (delegate : g.delegate = b.delegate) : Ends b mode ⟨.ok g, [(Event.bound : Event σ).record g]⟩

theorem build_ends (b : Builder δ) (mode : LockMode) :
    b.Ends mode (b.build mode : Reported (Except BindError (Gate σ δ))) := by
  unfold build
  split
  · next h =>
    split
    · next e fault => exact .refused h fault
    · next faultless => exact .built h faultless rfl (by simp) rfl rfl rfl
  · next h => exact .mismatched h

/-- What a gate has from its builder. -/
structure Makes (b : Builder δ) (mode : LockMode) (g : Gate σ δ) : Prop where
  name : g.name = b.name
  slotNames : g.slotNames.toList = b.slotNames
  settings : g.settings = b.settings
  lockMode : g.lockMode = mode
  delegate : g.delegate = b.delegate

theorem makes_of_build {b : Builder δ} {mode : LockMode} {g : Gate σ δ}
    (h : (b.build mode : Reported (Except BindError (Gate σ δ))).result = .ok g) : b.Makes mode g := by
  have hends : b.Ends mode (b.build mode : Reported (Except BindError (Gate σ δ))) := b.build_ends mode
  generalize (b.build mode : Reported (Except BindError (Gate σ δ))) = r at h hends
  cases hends with
  | mismatched | refused => cases h
  | built _ _ name names settings lockMode delegate =>
    cases h
    exact ⟨name, names, settings, lockMode, delegate⟩

/-- What building comes to: which names are accepted, which fault is returned otherwise, and what is
reported. -/
structure Outcome (b : Builder δ) (mode : LockMode)
    (r : Reported (Except BindError (Gate σ δ))) : Prop where
  accepted : (∃ g, r.result = .ok g) ↔ SlotNames σ.arity b.slotNames
  mismatched : b.slotNames.length ≠ σ.arity →
    r.result = .error (.arityMismatch σ.arity b.slotNames.length)
  refused : b.slotNames.length = σ.arity →
    ∀ e, r.result = .error e ↔ FirstNameFault b.slotNames e
  silent : ∀ e, r.result = .error e → r.records = []
  /-- A gate is reported once, whether or not it is one that reports what happens to it. -/
  reported : ∀ g, r.result = .ok g → r.records = [{
    message := "gate.bind"
    level := .trace
    target := "quorum_gate::builder"
    fields := [("gate", .text b.name), ("slots", .text (bracketed (b.slotNames.map quoted))),
      ("thread_safe", .flag mode.isThreadSafe)] }]
  /-- Nothing but the slot names decides what building comes to. -/
  names_only : ∀ {δ' : Type} (b' : Builder δ') (mode' : LockMode), b'.slotNames = b.slotNames →
    let r' : Reported (Except BindError (Gate σ δ')) := b'.build mode'
    ((∃ g, r'.result = .ok g) ↔ ∃ g, r.result = .ok g) ∧
      ∀ e, r'.result = .error e ↔ r.result = .error e

namespace Ends

variable {b : Builder δ} {mode : LockMode} {r : Reported (Except BindError (Gate σ δ))}

theorem accepted (h : b.Ends mode r) : (∃ g, r.result = .ok g) ↔ SlotNames σ.arity b.slotNames := by
  rw [slotNames_iff]
  cases h with
  | mismatched h => exact ⟨nofun, fun hnames => absurd hnames.1 h⟩
  | refused h fault => exact ⟨nofun, fun hnames => nomatch fault.symm.trans hnames.2⟩
  | built h faultless => exact ⟨fun _ => ⟨h, faultless⟩, fun _ => ⟨_, rfl⟩⟩

theorem error_iff (h : b.Ends mode r) (e : BindError) :
    r.result = .error e ↔
      b.slotNames.length ≠ σ.arity ∧ .arityMismatch σ.arity b.slotNames.length = e ∨
        b.slotNames.length = σ.arity ∧ FirstNameFault b.slotNames e := by
  have hfirst : firstFault [] b.slotNames = some e ↔ FirstNameFault b.slotNames e :=
    firstFault_eq_some_iff (by simp) e
  rw [← hfirst]
  cases h with
  | mismatched h => simp [h]
  | refused h fault => simp [h, fault]
  | built h faultless => simp [h, faultless]

theorem silent (h : b.Ends mode r) {e : BindError} (he : r.result = .error e) : r.records = [] := by
  cases h with
  | mismatched | refused => rfl
  | built => cases he

theorem reported (h : b.Ends mode r) {g : Gate σ δ} (hg : r.result = .ok g) :
    r.records = [{
      message := "gate.bind"
      level := .trace
      target := "quorum_gate::builder"
      fields := [("gate", .text b.name), ("slots", .text (bracketed (b.slotNames.map quoted))),
        ("thread_safe", .flag mode.isThreadSafe)] }] := by
  cases h with
  | mismatched | refused => cases hg
  | built _ _ name names _ lockMode =>
    simp only [Event.record, Event.message, Event.level, Event.target, Event.ownFields, name, names,
      lockMode]

end Ends

/-- Every builder has this outcome, for any arity. -/
theorem outcome_of_names (b : Builder δ) (mode : LockMode) :
    b.Outcome mode (b.build mode : Reported (Except BindError (Gate σ δ))) := by
  have hends : b.Ends mode (b.build mode : Reported (Except BindError (Gate σ δ))) := b.build_ends mode
  constructor
  case accepted => exact hends.accepted
  case mismatched => exact fun h => (hends.error_iff _).2 (.inl ⟨h, rfl⟩)
  case refused =>
    intro h e
    rw [hends.error_iff, or_iff_right (fun hne => hne.1 h), and_iff_right h]
  case silent => exact fun e => hends.silent
  case reported => exact fun g => hends.reported
  case names_only =>
    intro δ' b' mode' hnames r'
    have hends' : b'.Ends mode' r' := b'.build_ends mode'
    refine ⟨?_, fun e => ?_⟩
    · rw [hends.accepted, hends'.accepted, hnames]
    · rw [hends.error_iff, hends'.error_iff, hnames]

end Builder

end SlotGate
