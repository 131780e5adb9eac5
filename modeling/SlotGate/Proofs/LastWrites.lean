import SlotGate.Proofs.Invariant
import SlotGate.Proofs.SlotNames

/-!
# The last adjustment of each aspect

A builder is adjusted in six aspects, and one kind of adjustment is about four of them at once. A gate has
in each aspect what was written of it last, whatever was written of the others in between, or the
default. Adjustments without a common aspect can therefore change places.
-/
namespace SlotGate

/-- What adjustments are about. -/
inductive Aspect where
  | name
  | oneShot
  | enabled
  | debug
  | nullPolicy
  | delegate
  deriving DecidableEq

namespace Aspect

variable {δ : Type}

def Content (δ : Type) : Aspect → Type
  | name => String
  | oneShot | enabled | debug => Bool
  | nullPolicy => NullPolicy
  | delegate => Option δ

def default : (a : Aspect) → a.Content δ
  | name => "gate"
  | oneShot => false
  | enabled => true
  | debug => false
  | nullPolicy => .suppress
  | delegate => none

end Aspect

variable {σ : Signature} {δ : Type}

/-- What an adjustment writes of an aspect, if it is about it. -/
def Adjustment.writes : Adjustment δ → (a : Aspect) → Option (a.Content δ)
  | .name label, .name => some label
  | .settings s, .oneShot => some s.oneShot
  | .settings s, .enabled => some s.enabled
  | .settings s, .debug => some s.debug
  | .settings s, .nullPolicy => some s.nullPolicy
  | .oneShot on, .oneShot => some on
  | .enabled on, .enabled => some on
  | .debug on, .debug => some on
  | .nullPolicy p, .nullPolicy => some p
  | .delegate d, .delegate => some (some d)
  | _, _ => none

/-- Two adjustments that write no common aspect. -/
def Adjustment.Apart (x y : Adjustment δ) : Prop := ∀ a, x.writes a = none ∨ y.writes a = none

/-- Settings of which some are mentioned. -/
structure Mention where
  oneShot : Option Bool := none
  enabled : Option Bool := none
  debug : Option Bool := none
  nullPolicy : Option NullPolicy := none

namespace Mention

/-- What is not mentioned has its default. -/
def settings (m : Mention) : Settings :=
  let missing : Settings := {}
  { oneShot := m.oneShot.getD missing.oneShot
    enabled := m.enabled.getD missing.enabled
    debug := m.debug.getD missing.debug
    nullPolicy := m.nullPolicy.getD missing.nullPolicy }

/-- What is mentioned of an aspect. -/
def mentions (m : Mention) : (a : Aspect) → Option (a.Content δ)
  | .oneShot => m.oneShot
  | .enabled => m.enabled
  | .debug => m.debug
  | .nullPolicy => m.nullPolicy
  | .name | .delegate => none

end Mention

namespace Builder

def content (b : Builder δ) : (a : Aspect) → a.Content δ
  | .name => b.name
  | .oneShot => b.settings.oneShot
  | .enabled => b.settings.enabled
  | .debug => b.settings.debug
  | .nullPolicy => b.settings.nullPolicy
  | .delegate => b.delegate

theorem content_adjust (b : Builder δ) (x : Adjustment δ) (a : Aspect) :
    (b.adjust x).content a = (x.writes a).getD (b.content a) := by
  cases x <;> cases a <;> rfl

theorem slotNames_adjust (b : Builder δ) (x : Adjustment δ) :
    (b.adjust x).slotNames = b.slotNames := by
  cases x <;> rfl

/-- Slot names and aspects are all that a builder has. -/
theorem eq_of_content {b b' : Builder δ} (hnames : b.slotNames = b'.slotNames)
    (h : ∀ a, b.content a = b'.content a) : b = b' := by
  obtain ⟨names, name, ⟨oneShot, enabled, debug, nullPolicy⟩, delegate⟩ := b
  obtain ⟨names', name', ⟨oneShot', enabled', debug', nullPolicy'⟩, delegate'⟩ := b'
  obtain rfl : names = names' := hnames
  obtain rfl : name = name' := h .name
  obtain rfl : oneShot = oneShot' := h .oneShot
  obtain rfl : enabled = enabled' := h .enabled
  obtain rfl : debug = debug' := h .debug
  obtain rfl : nullPolicy = nullPolicy' := h .nullPolicy
  obtain rfl : delegate = delegate' := h .delegate
  rfl

theorem adjust_comm (b : Builder δ) {x y : Adjustment δ} (h : x.Apart y) :
    (b.adjust x).adjust y = (b.adjust y).adjust x := by
  refine eq_of_content (by simp only [slotNames_adjust]) fun a => ?_
  simp only [content_adjust]
  rcases h a with hx | hy
  · rw [hx, Option.getD_none, Option.getD_none]
  · rw [hy, Option.getD_none, Option.getD_none]

theorem adjustAll_append (b : Builder δ) (before after : List (Adjustment δ)) :
    b.adjustAll (before ++ after) = (b.adjustAll before).adjustAll after := List.foldl_append

theorem slotNames_adjustAll (b : Builder δ) (as : List (Adjustment δ)) :
    (b.adjustAll as).slotNames = b.slotNames := by
  induction as generalizing b with
  | nil => rfl
  | cons x rest ih => exact (ih (b.adjust x)).trans (slotNames_adjust b x)

/-- Adjustments that are not about an aspect leave it as it is. -/
theorem content_of_unwritten {a : Aspect} {as : List (Adjustment δ)}
    (h : ∀ x ∈ as, x.writes a = none) (b : Builder δ) : (b.adjustAll as).content a = b.content a := by
  induction as generalizing b with
  | nil => rfl
  | cons x rest ih =>
    obtain ⟨hx, hrest⟩ := List.forall_mem_cons.1 h
    refine (ih hrest (b.adjust x)).trans ?_
    rw [content_adjust, hx, Option.getD_none]

theorem content_of_last {a : Aspect} {before after : List (Adjustment δ)} {x : Adjustment δ}
    {v : a.Content δ} (hx : x.writes a = some v) (hafter : ∀ y ∈ after, y.writes a = none)
    (b : Builder δ) : (b.adjustAll (before ++ x :: after)).content a = v := by
  rw [adjustAll_append]
  refine (content_of_unwritten hafter ((b.adjustAll before).adjust x)).trans ?_
  rw [content_adjust, hx, Option.getD_some]

theorem adjustAll_swap (b : Builder δ) (before after : List (Adjustment δ)) {x y : Adjustment δ}
    (h : x.Apart y) :
    b.adjustAll (before ++ x :: y :: after) = b.adjustAll (before ++ y :: x :: after) := by
  rw [adjustAll_append, adjustAll_append]
  exact congrArg (adjustAll · after) (adjust_comm _ h)

end Builder

namespace Gate

def content (g : Gate σ δ) : (a : Aspect) → a.Content δ
  | .name => g.name
  | .oneShot => g.settings.oneShot
  | .enabled => g.settings.enabled
  | .debug => g.settings.debug
  | .nullPolicy => g.settings.nullPolicy
  | .delegate => g.delegate

theorem content_of_build {b : Builder δ} {mode : LockMode} {g : Gate σ δ}
    (h : (b.build mode : Reported (Except BindError (Gate σ δ))).result = .ok g) (a : Aspect) :
    g.content a = b.content a := by
  have hmakes := Builder.makes_of_build h
  cases a with
  | name => exact hmakes.name
  | oneShot => exact congrArg Settings.oneShot hmakes.settings
  | enabled => exact congrArg Settings.enabled hmakes.settings
  | debug => exact congrArg Settings.debug hmakes.settings
  | nullPolicy => exact congrArg Settings.nullPolicy hmakes.settings
  | delegate => exact hmakes.delegate

/-- What a gate is like that was built after some adjustments. -/
structure LastWrites (g : Gate σ δ) (names : List String) (mode : LockMode)
    (as : List (Adjustment δ)) : Prop where
  /-- The last adjustment that is about an aspect decides it. -/
  last : ∀ before x after, as = before ++ x :: after → ∀ (a : Aspect) v, x.writes a = some v →
    (∀ y ∈ after, y.writes a = none) → g.content a = v
  never : ∀ a : Aspect, (∀ x ∈ as, x.writes a = none) → g.content a = a.default
  /-- Settings that are given all at once leave nothing of those before them: what they do not mention
  has its default again. -/
  replaced : ∀ before (m : Mention) after, as = before ++ .settings m.settings :: after →
    ∀ a ∈ [Aspect.oneShot, .enabled, .debug, .nullPolicy], (∀ y ∈ after, y.writes a = none) →
      g.content a = (m.mentions a).getD a.default
  slotNames : g.slotNames.toList = names
  lockMode : g.lockMode = mode
  enabled : g.initialState.enabled = g.content .enabled
  debug : g.initialState.debug = g.content .debug
  vacant : ∀ i, g.initialState.slots i = ⟨(σ.type i).default, false⟩
  /-- The gate is the same if two adjacent adjustments without a common aspect change places. -/
  swapped : ∀ before x y after, as = before ++ x :: y :: after → x.Apart y →
    let b : Builder δ := { slotNames := names }
    ((b.adjustAll (before ++ y :: x :: after)).build mode :
      Reported (Except BindError (Gate σ δ))).result = .ok g

end Gate

namespace Builder

/-- The hypothesis is that the slot names are in order; no adjustment has a part in that. -/
theorem last_write_wins {names : List String} {as : List (Adjustment δ)} {mode : LockMode}
    {g : Gate σ δ}
    (hg : ((({ slotNames := names } : Builder δ).adjustAll as).build mode :
      Reported (Except BindError (Gate σ δ))).result = .ok g) : g.LastWrites names mode as := by
  have hcontent := Gate.content_of_build hg
  have hmakes := makes_of_build hg
  constructor
  case last =>
    rintro before x after rfl a v hx hafter
    rw [hcontent, content_of_last hx hafter]
  case never =>
    intro a h
    rw [hcontent, content_of_unwritten h]
    cases a <;> rfl
  case replaced =>
    rintro before m after rfl a ha hafter
    have hwrites : (Adjustment.settings m.settings : Adjustment δ).writes a =
        some ((m.mentions a).getD a.default) := by
      simp only [List.mem_cons, List.not_mem_nil, or_false] at ha
      rcases ha with rfl | rfl | rfl | rfl <;> rfl
    rw [hcontent, content_of_last hwrites hafter]
  case slotNames => exact hmakes.slotNames.trans (slotNames_adjustAll _ as)
  case lockMode => exact hmakes.lockMode
  case enabled => rfl
  case debug => rfl
  case vacant => exact fun _ => rfl
  case swapped =>
    rintro before x y after rfl h b
    rwa [← adjustAll_swap b before after h]

/-- Settings given all at once between others, and a delegate given twice. -/
theorem last_write_wins_of_interleaved :
    let mentioned : Mention := { nullPolicy := some .fire }
    let as : List (Adjustment (Delegate .flags)) := [.debug true, .delegate ⟨[[.panic]]⟩, .oneShot true,
      .settings mentioned.settings, .enabled false, .name "door", .delegate ⟨[]⟩]
    let b : Builder (Delegate .flags) := { slotNames := ["left", "right"] }
    ∃ g : Gate .flags (Delegate .flags), ((b.adjustAll as).build .threadSafe).result = .ok g ∧
      g.settings = { enabled := false, nullPolicy := .fire } ∧
        g.LastWrites ["left", "right"] .threadSafe as :=
  ⟨_, rfl, rfl, last_write_wins rfl⟩

end Builder

end SlotGate
