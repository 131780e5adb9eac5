import SlotGate.Profile.Binding
import SlotGate.Proofs.ProfileContents
import SlotGate.Proofs.SlotNames

/-!
# Gates bound from profiles

What binding needs to know is looked up in one place and checked in another: the name in the set, the lock
mode against the profile, the slot names when the gate is built. A fault of each kind hides those
behind it. Where there is none, the gate is the one that a builder makes by hand.
-/
namespace SlotGate

open SlotGate.Text (quoted bracketed)

variable {σ : Signature} {δ : Type}

/-- The builder that is given by hand what a profile says, and the name of the profile. -/
def Profile.byHand (p : Profile) (name : String) (slotNames : List String) (d : δ) : Builder δ :=
  let b : Builder δ := { slotNames := slotNames }
  b.adjustAll [.name name, .settings p.settings, .delegate d]

/-- What is wrong with names for the slots of a gate of some arity: their number, or the first that has
a fault. -/
def NamesFault (arity : Nat) (names : List String) (e : BindError) : Prop :=
  names.length ≠ arity ∧ .arityMismatch arity names.length = e ∨
    names.length = arity ∧ FirstNameFault names e

/-- Why no gate with this lock mode can be bound from the profile of a name. -/
inductive ProfileSet.BindFault (s : ProfileSet) (name : String) (arity : Nat)
    (slotNames : List String) (mode : LockMode) : ProfileError → Prop where
  | unknown (h : name ∉ s.names) : BindFault s name arity slotNames mode (.unknownProfile name)
  | lockMode {p : Profile} (h : s.get? name = some p) (hmode : p.threadSafe ≠ mode.isThreadSafe) :
      BindFault s name arity slotNames mode (.lockMode ⟨p.threadSafe, mode.isThreadSafe⟩)
  | names {p : Profile} (h : s.get? name = some p) (hmode : p.threadSafe = mode.isThreadSafe)
      {e : BindError} (fault : NamesFault arity slotNames e) :
      BindFault s name arity slotNames mode (.names e)

/-! ## Errors under another name -/

section Errors

variable {ε ε' α : Type} {f : ε → ε'} {x : Except ε α}

theorem mapError_eq_ok_iff {a : α} : x.mapError f = .ok a ↔ x = .ok a := by
  cases x <;> simp [Except.mapError]

theorem mapError_eq_error_iff {e : ε'} : x.mapError f = .error e ↔ ∃ e', x = .error e' ∧ f e' = e := by
  cases x <;> simp [Except.mapError]

end Errors

namespace ProfileSet

variable {s : ProfileSet} {name : String} {slotNames : List String} {mode : LockMode} {d : δ}

theorem get?_eq_none_iff : s.get? name = none ↔ name ∉ s.names := Named.lookup_eq_none_iff_not_mem

theorem mem_names_of_get? {p : Profile} (h : s.get? name = some p) : name ∈ s.names :=
  by_contra fun hname => Option.some_ne_none p (h.symm.trans (get?_eq_none_iff.2 hname))

/-! ## Faults, each of which hides those of the next kind -/

theorem bindFault_iff_of_not_mem {arity : Nat} (h : name ∉ s.names) {e : ProfileError} :
    s.BindFault name arity slotNames mode e ↔ .unknownProfile name = e := by
  constructor
  · intro fault
    cases fault with
    | unknown => rfl
    | lockMode h' | names h' => exact absurd (mem_names_of_get? h') h
  · rintro rfl
    exact .unknown h

theorem bindFault_iff_of_ne {arity : Nat} {p : Profile} (h : s.get? name = some p)
    (hmode : p.threadSafe ≠ mode.isThreadSafe) {e : ProfileError} :
    s.BindFault name arity slotNames mode e ↔
      .lockMode ⟨p.threadSafe, mode.isThreadSafe⟩ = e := by
  constructor
  · intro fault
    cases fault with
    | unknown h' => exact absurd (mem_names_of_get? h) h'
    | lockMode h' => rw [Option.some.inj (h.symm.trans h')]
    | names h' hmode' => exact absurd (Option.some.inj (h'.symm.trans h) ▸ hmode') hmode
  · rintro rfl
    exact .lockMode h hmode

theorem bindFault_iff_of_eq {arity : Nat} {p : Profile} (h : s.get? name = some p)
    (hmode : p.threadSafe = mode.isThreadSafe) {e : ProfileError} :
    s.BindFault name arity slotNames mode e ↔
      ∃ e', NamesFault arity slotNames e' ∧ .names e' = e := by
  constructor
  · intro fault
    cases fault with
    | unknown h' => exact absurd (mem_names_of_get? h) h'
    | lockMode h' hmode' => exact absurd hmode (Option.some.inj (h'.symm.trans h) ▸ hmode')
    | names _ _ fault => exact ⟨_, fault, rfl⟩
  · rintro ⟨e', fault, rfl⟩
    exact .names h hmode fault

/-! ## Builders of profiles, and binding -/

theorem builder_of_not_mem (h : name ∉ s.names) :
    (s.builder name slotNames : Except ProfileError (Builder δ)) = .error (.unknownProfile name) := by
  simp only [builder, profile, get?_eq_none_iff.2 h]
  rfl

/-- A delegate is all that the builder of a profile lacks. -/
theorem builder_of_get? (δ : Type) (slotNames : List String) {p : Profile} (h : s.get? name = some p) :
    ∃ b : Builder δ, s.builder name slotNames = .ok b ∧
      ∀ d, b.adjust (.delegate d) = p.byHand name slotNames d := by
  refine ⟨{ slotNames := slotNames, name := name, settings := p.settings }, ?_, fun d => rfl⟩
  simp only [builder, profile, h]
  rfl

theorem checkLockMode_of_not_mem (h : name ∉ s.names) :
    s.checkLockMode name mode = .error (.unknownProfile name) := by
  simp only [checkLockMode, profile, get?_eq_none_iff.2 h]
  rfl

theorem checkLockMode_of_get? (mode : LockMode) {p : Profile} (h : s.get? name = some p) :
    s.checkLockMode name mode =
      if p.threadSafe = mode.isThreadSafe then .ok ()
      else .error (.lockMode ⟨p.threadSafe, mode.isThreadSafe⟩) := by
  simp only [checkLockMode, profile, h]
  change (p.checkLockMode mode).mapError ProfileError.lockMode = _
  unfold Profile.checkLockMode
  split <;> rfl

theorem bind_of_refused {e : ProfileError} (h : s.checkLockMode name mode = .error e) :
    (s.bind name slotNames mode d : Reported (Except ProfileError (Gate σ δ))) = ⟨.error e, []⟩ := by
  simp only [bind, h]
  rfl

theorem bind_of_checked (h : s.checkLockMode name mode = .ok ()) {b : Builder δ}
    (hb : s.builder name slotNames = .ok b) :
    (s.bind name slotNames mode d : Reported (Except ProfileError (Gate σ δ))) =
      let built := (b.adjust (.delegate d)).build mode
      ⟨built.result.mapError .names, built.records⟩ := by
  simp only [bind, h, hb]
  rfl

/-- How binding can end. -/
inductive Binds (s : ProfileSet) (name : String) (slotNames : List String) (mode : LockMode) (d : δ) :
    Reported (Except ProfileError (Gate σ δ)) → Prop where
  | unknown (h : name ∉ s.names) : Binds s name slotNames mode d ⟨.error (.unknownProfile name), []⟩
  | lockMode {p : Profile} (h : s.get? name = some p) (hmode : p.threadSafe ≠ mode.isThreadSafe) :
      Binds s name slotNames mode d ⟨.error (.lockMode ⟨p.threadSafe, mode.isThreadSafe⟩), []⟩
  | builds {p : Profile} (h : s.get? name = some p) (hmode : p.threadSafe = mode.isThreadSafe)
      {r : Reported (Except BindError (Gate σ δ))}
      (hr : (p.byHand name slotNames d).build mode = r) :
      Binds s name slotNames mode d ⟨r.result.mapError .names, r.records⟩

theorem bind_binds (s : ProfileSet) (name : String) (slotNames : List String) (mode : LockMode) (d : δ) :
    s.Binds name slotNames mode d
      (s.bind name slotNames mode d : Reported (Except ProfileError (Gate σ δ))) := by
  cases h : s.get? name with
  | none =>
    have hname := get?_eq_none_iff.1 h
    rw [bind_of_refused (checkLockMode_of_not_mem hname)]
    exact .unknown hname
  | some p =>
    have hcheck := checkLockMode_of_get? mode h
    by_cases hmode : p.threadSafe = mode.isThreadSafe
    · rw [if_pos hmode] at hcheck
      obtain ⟨b, hb, hbuilder⟩ := builder_of_get? δ slotNames h
      rw [bind_of_checked hcheck hb, hbuilder]
      exact .builds h hmode rfl
    · rw [if_neg hmode] at hcheck
      rw [bind_of_refused hcheck]
      exact .lockMode h hmode

namespace Binds

variable {r : Reported (Except ProfileError (Gate σ δ))}

theorem error_iff (h : s.Binds name slotNames mode d r) (e : ProfileError) :
    r.result = .error e ↔ s.BindFault name σ.arity slotNames mode e := by
  cases h with
  | unknown h => rw [bindFault_iff_of_not_mem h, Except.error.injEq]
  | lockMode h hmode => rw [bindFault_iff_of_ne h hmode, Except.error.injEq]
  | @builds p h hmode r hr =>
    subst hr
    have hends := (p.byHand name slotNames d).build_ends (σ := σ) mode
    simp only [bindFault_iff_of_eq h hmode, mapError_eq_error_iff, hends.error_iff]
    rfl

theorem ok_iff (h : s.Binds name slotNames mode d r) (g : Gate σ δ) :
    r.result = .ok g ↔ ∃ p, s.get? name = some p ∧ p.threadSafe = mode.isThreadSafe ∧
      ((p.byHand name slotNames d).build mode : Reported (Except BindError (Gate σ δ))).result = .ok g := by
  cases h with
  | unknown h =>
    constructor
    · rintro ⟨⟩
    · rintro ⟨p, hp, -⟩
      exact absurd (mem_names_of_get? hp) h
  | lockMode h hmode =>
    constructor
    · rintro ⟨⟩
    · rintro ⟨p, hp, hmode', -⟩
      cases h.symm.trans hp
      exact absurd hmode' hmode
  | @builds p h hmode r hr =>
    subst hr
    rw [mapError_eq_ok_iff]
    constructor
    · exact fun hg => ⟨p, h, hmode, hg⟩
    · rintro ⟨p', hp, -, hg⟩
      cases h.symm.trans hp
      exact hg

theorem silent (h : s.Binds name slotNames mode d r) {e : ProfileError} (he : r.result = .error e) :
    r.records = [] := by
  cases h with
  | unknown | lockMode => rfl
  | @builds p h hmode r hr =>
    subst hr
    obtain ⟨e', he', -⟩ := mapError_eq_error_iff.1 he
    exact ((p.byHand name slotNames d).build_ends mode).silent he'

theorem reported (h : s.Binds name slotNames mode d r) {g : Gate σ δ} (hg : r.result = .ok g) :
    r.records = [{
      message := "gate.bind"
      level := .trace
      target := "quorum_gate::builder"
      fields := [("gate", .text name), ("slots", .text (bracketed (slotNames.map quoted))),
        ("thread_safe", .flag mode.isThreadSafe)] }] := by
  cases h with
  | unknown | lockMode => cases hg
  | @builds p h hmode r hr =>
    subst hr
    exact ((p.byHand name slotNames d).build_ends mode).reported (mapError_eq_ok_iff.1 hg)

end Binds

end ProfileSet

/-- A fresh gate with this delegate that has its name and its settings from a profile. -/
structure Gate.Fresh (g : Gate σ δ) (p : Profile) (name : String) (slotNames : List String)
    (mode : LockMode) (d : δ) : Prop where
  name : g.name = name
  slotNames : g.slotNames.toList = slotNames
  oneShot : g.settings.oneShot = p.settings.oneShot
  nullPolicy : g.settings.nullPolicy = p.settings.nullPolicy
  lockMode : g.lockMode = mode
  delegate : g.delegate = some d
  enabled : g.initialState.enabled = p.settings.enabled
  debug : g.initialState.debug = p.settings.debug
  vacant : ∀ i, g.initialState.slots i = ⟨(σ.type i).default, false⟩

theorem Profile.fresh_of_byHand {p : Profile} {name : String} {slotNames : List String}
    {mode : LockMode} {d : δ} {g : Gate σ δ}
    (h : ((p.byHand name slotNames d).build mode : Reported (Except BindError (Gate σ δ))).result = .ok g) :
    g.Fresh p name slotNames mode d := by
  have hmakes := Builder.makes_of_build h
  exact {
    name := hmakes.name
    slotNames := hmakes.slotNames
    oneShot := congrArg Settings.oneShot hmakes.settings
    nullPolicy := congrArg Settings.nullPolicy hmakes.settings
    lockMode := hmakes.lockMode
    delegate := hmakes.delegate
    enabled := congrArg Settings.enabled hmakes.settings
    debug := congrArg Settings.debug hmakes.settings
    vacant := fun _ => rfl }

namespace ProfileSet

/-- What binding from a profile comes to, and what comes of its builder. -/
structure Binding (s : ProfileSet) (name : String) (slotNames : List String) (mode : LockMode) (d : δ)
    (r : Reported (Except ProfileError (Gate σ δ))) : Prop where
  fails : ∀ e, r.result = .error e ↔ s.BindFault name σ.arity slotNames mode e
  /-- A gate that is bound is the one that is built by hand. -/
  builds : ∀ g, r.result = .ok g ↔ ∃ p, s.get? name = some p ∧ p.threadSafe = mode.isThreadSafe ∧
    ((p.byHand name slotNames d).build mode : Reported (Except BindError (Gate σ δ))).result = .ok g
  /-- Only a gate that is bound is reported. -/
  silent : ∀ e, r.result = .error e → r.records = []
  reported : ∀ g, r.result = .ok g → r.records = [{
    message := "gate.bind"
    level := .trace
    target := "quorum_gate::builder"
    fields := [("gate", .text name), ("slots", .text (bracketed (slotNames.map quoted))),
      ("thread_safe", .flag mode.isThreadSafe)] }]
  /-- With the delegate added, the builder of a profile builds what is built by hand, in either lock
  mode. -/
  builder : ∀ p, s.get? name = some p → ∃ b : Builder δ, s.builder name slotNames = .ok b ∧
    ∀ mode', (b.adjust (.delegate d)).build mode' =
      ((p.byHand name slotNames d).build mode' : Reported (Except BindError (Gate σ δ)))
  /-- The one reason to have no builder is to have no profile of the name. -/
  builder_fails : ∀ e, (s.builder name slotNames : Except ProfileError (Builder δ)) = .error e ↔
    name ∉ s.names ∧ e = .unknownProfile name
  /-- By hand, slot names are refused for the same reasons, whatever the profile and the lock mode. -/
  refuses : ∀ (p : Profile) mode' e,
    ((p.byHand name slotNames d).build mode' : Reported (Except BindError (Gate σ δ))).result = .error e ↔
      NamesFault σ.arity slotNames e
  /-- A gate that is built by hand has its name, its slots, its delegate and every setting as given. -/
  fresh : ∀ (p : Profile) mode' (g : Gate σ δ),
    ((p.byHand name slotNames d).build mode').result = .ok g → g.Fresh p name slotNames mode' d

theorem bind_as_by_hand (s : ProfileSet) (name : String) (slotNames : List String) (mode : LockMode)
    (d : δ) : s.Binding name slotNames mode d
      (s.bind name slotNames mode d : Reported (Except ProfileError (Gate σ δ))) := by
  have hbinds := s.bind_binds (σ := σ) name slotNames mode d
  constructor
  case fails => exact hbinds.error_iff
  case builds => exact hbinds.ok_iff
  case silent => exact fun e => hbinds.silent
  case reported => exact fun g => hbinds.reported
  case builder =>
    intro p h
    obtain ⟨b, hb, hbuilder⟩ := builder_of_get? δ slotNames h
    exact ⟨b, hb, fun mode' => by rw [hbuilder]⟩
  case builder_fails =>
    intro e
    cases h : s.get? name with
    | none =>
      have hname := get?_eq_none_iff.1 h
      rw [builder_of_not_mem hname, Except.error.injEq, and_iff_right hname, eq_comm]
    | some p =>
      obtain ⟨b, hb, -⟩ := builder_of_get? δ slotNames h
      simp [hb, mem_names_of_get? h]
  case refuses => exact fun p mode' => ((p.byHand name slotNames d).build_ends mode').error_iff
  case fresh => exact fun p mode' g => Profile.fresh_of_byHand

end ProfileSet

end SlotGate
