import Mathlib.Logic.Function.Iterate
import SlotGate.Proofs.Course
import SlotGate.Value.UserType

/-!
# Which values are null

A type expression nests to any depth, but nullness is settled at the first layer that is not a pointer: an
absent option there is null, and so is what a user type declares null. Nothing further inside is asked, and
a default is null by the same layer of its type.

So there is one null value at most that no user type has declared, and it is the default. What gates put
into their slots in place of a null value is then that value itself.
-/
namespace SlotGate

namespace Value

variable {ι : Type} {users : ι → SlotType}

namespace TypeExpr

/-- The type without the pointers around it. -/
def pointee : TypeExpr ι → TypeExpr ι
  | pointer t => t.pointee
  | t => t

theorem pointee_ne_pointer (e t : TypeExpr ι) : e.pointee ≠ .pointer t := by
  induction e with
  | pointer e ih => exact ih
  | _ =>
    intro h
    cases h

theorem exists_iterate_pointer (e : TypeExpr ι) : ∃ n, e = pointer^[n] e.pointee := by
  induction e with
  | pointer e ih =>
    obtain ⟨n, hn⟩ := ih
    refine ⟨n + 1, ?_⟩
    rw [Function.iterate_succ_apply']
    exact congrArg pointer hn
  | _ => exact ⟨0, rfl⟩

end TypeExpr

/-- A value along with the expression of its type. -/
structure Typed (users : ι → SlotType) where
  type : TypeExpr ι
  value : (type.slotType users).Carrier

namespace Typed

/-- A value without the pointers around it. -/
def strip : (e : TypeExpr ι) → (e.slotType users).Carrier → Typed users
  | .pointer t, v => strip t v
  | e, v => ⟨e, v⟩

theorem type_strip (e : TypeExpr ι) (v : (e.slotType users).Carrier) :
    (strip e v).type = e.pointee := by
  induction e with
  | pointer t ih => exact ih v
  | _ => rfl

inductive IsNone : Typed users → Prop where
  | intro (t : TypeExpr ι) : IsNone ⟨.option t, (none : Option (t.slotType users).Carrier)⟩

/-- A value of a user type that the type itself counts as null. -/
inductive DeclaredNull : Typed users → Prop where
  | intro (name : ι) (v : (users name).Carrier) (null : (users name).isNull v = true) :
      DeclaredNull ⟨.user name, v⟩

/-- A value with others inside it, or with room for them. -/
inductive Encloses : Typed users → Prop where
  | some (t : TypeExpr ι) (v : (t.slotType users).Carrier) : Encloses ⟨.option t, Option.some v⟩
  | sequence (t : TypeExpr ι) (vs : ((TypeExpr.sequence t).slotType users).Carrier) :
      Encloses ⟨.sequence t, vs⟩
  | set (t : TypeExpr ι) (vs : ((TypeExpr.set t).slotType users).Carrier) : Encloses ⟨.set t, vs⟩
  | map (key value : TypeExpr ι) (m : ((TypeExpr.map key value).slotType users).Carrier) :
      Encloses ⟨.map key value, m⟩
  | array (n : Nat) (t : TypeExpr ι) (vs : ((TypeExpr.array n t).slotType users).Carrier) :
      Encloses ⟨.array n t, vs⟩

theorem Encloses.not_isNone {x : Typed users} (h : x.Encloses) : ¬ x.IsNone := by
  intro hn
  cases hn
  cases h

theorem Encloses.not_declaredNull {x : Typed users} (h : x.Encloses) : ¬ x.DeclaredNull := by
  intro hn
  cases hn
  cases h

end Typed

open Typed (strip)

namespace TypeExpr

/-- Only options and user types have null values, and pointers to them. -/
theorem isNull_iff (e : TypeExpr ι) (v : (e.slotType users).Carrier) :
    (e.slotType users).isNull v = true ↔ (strip e v).IsNone ∨ (strip e v).DeclaredNull := by
  induction e with
  | pointer t ih => exact ih v
  | option t =>
    constructor
    · intro h
      cases v with
      | none => exact .inl (.intro t)
      | some x => cases h
    · rintro (h | h)
      · cases h
        rfl
      · cases h
  | user name =>
    constructor
    · intro h
      exact .inr (.intro name v h)
    · rintro (h | h)
      · cases h
      · cases h with
        | intro _ _ null => exact null
  | _ =>
    constructor
    · intro h
      cases h
    · rintro (h | h) <;> cases h

theorem isNull_of_encloses {e : TypeExpr ι} {v : (e.slotType users).Carrier}
    (h : (strip e v).Encloses) : (e.slotType users).isNull v = false := by
  rw [← Bool.not_eq_true, isNull_iff]
  rintro (hn | hn)
  · exact h.not_isNone hn
  · exact h.not_declaredNull hn

/-- However many pointers there are, and whatever is null inside. -/
example : ((pointer (pointer (option (user .sentinel)))).slotType UserType.slotType).isNull
    (some ⟨⟨-7, by decide⟩⟩ : Option Sentinel) = false := rfl

example : ((pointer (array 2 (option bool))).slotType UserType.slotType).isNull
    (#v[none, none] : Vector (Option Bool) 2) = false := rfl

theorem isNull_default_iff (e : TypeExpr ι) :
    (e.slotType users).isNull (e.slotType users).default = true ↔
      (∃ t, e.pointee = .option t) ∨
        ∃ name, e.pointee = .user name ∧ (users name).isNull (users name).default = true := by
  induction e with
  | pointer t ih => exact ih
  | option t => exact ⟨fun _ => .inl ⟨t, rfl⟩, fun _ => rfl⟩
  | user name =>
    constructor
    · intro h
      exact .inr ⟨name, rfl, h⟩
    · rintro (⟨t, h⟩ | ⟨_, h, hnull⟩)
      · cases h
      · cases h
        exact hnull
  | _ =>
    constructor
    · intro h
      cases h
    · rintro (⟨t, h⟩ | ⟨name, h, -⟩) <;> cases h

theorem eq_default_of_isNull {e : TypeExpr ι} {v : (e.slotType users).Carrier}
    (h : (e.slotType users).isNull v = true) (hd : ¬ (strip e v).DeclaredNull) :
    v = (e.slotType users).default := by
  induction e with
  | pointer t ih => exact ih h hd
  | option t =>
    cases v with
    | none => rfl
    | some x => cases h
  | user name => exact absurd (.intro name v h) hd
  | _ => cases h

theorem stored_eq_self {e : TypeExpr ι} {v : (e.slotType users).Carrier}
    (hd : ¬ (strip e v).DeclaredNull) : (e.slotType users).stored v = v := by
  cases h : (e.slotType users).isNull v with
  | true => rw [SlotType.stored_of_isNull h, ← eq_default_of_isNull h hd]
  | false => exact SlotType.stored_of_not_isNull h

/-- What is null among the values of a type, what its default is, and what is stored for them. -/
structure Nullness (users : ι → SlotType) (e : TypeExpr ι) : Prop where
  /-- What `strip` takes off a value are all of its pointers and nothing else. -/
  stripped : (∃ n, e = pointer^[n] e.pointee) ∧ (∀ t, e.pointee ≠ .pointer t) ∧
    ∀ v : (e.slotType users).Carrier, (strip e v).type = e.pointee
  null_iff : ∀ v : (e.slotType users).Carrier, (e.slotType users).isNull v = true ↔
    (strip e v).IsNone ∨ (strip e v).DeclaredNull
  /-- A value that encloses others is not null, not even if what is inside is. -/
  encloses : ∀ v : (e.slotType users).Carrier, (strip e v).Encloses →
    (e.slotType users).isNull v = false
  default_null_iff : (e.slotType users).isNull (e.slotType users).default = true ↔
    (∃ t, e.pointee = .option t) ∨
      ∃ name, e.pointee = .user name ∧ (users name).isNull (users name).default = true
  /-- No value is null but the default, those apart that user types declare. -/
  single : ∀ v : (e.slotType users).Carrier, (e.slotType users).isNull v = true →
    ¬ (strip e v).DeclaredNull → v = (e.slotType users).default
  stored : ∀ v : (e.slotType users).Carrier, ¬ (strip e v).DeclaredNull →
    (e.slotType users).stored v = v

theorem nullness (users : ι → SlotType) (e : TypeExpr ι) : e.Nullness users where
  stripped := ⟨e.exists_iterate_pointer, e.pointee_ne_pointer, Typed.type_strip e⟩
  null_iff v := e.isNull_iff v
  encloses _ h := isNull_of_encloses h
  default_null_iff := e.isNull_default_iff
  single _ h hd := eq_default_of_isNull h hd
  stored _ hd := stored_eq_self hd

end TypeExpr

end Value

open Value (SlotType TypeExpr Typed)

section

variable {ι : Type} {users : ι → SlotType} {e : TypeExpr ι} {es : List (TypeExpr ι)} {δ : Type}

/-- Sets and assigns put the values that they are given into the slots, and nothing in place of them,
unless a user type declares a value null. -/
structure History.StoresAsGiven (g : Gate (.ofExprs users e es) δ)
    (h : History (.ofExprs users e es)) : Prop where
  /-- An enabled gate stores the value as the first thing, and all other slots and flags stay as they
  are. -/
  stores : h.Every fun after m before => ∀ a i v op, m = .began a op →
    op = .set i v ∨ op = .assign i v → (before.current g).enabled = true →
      ¬ (Typed.strip ((e :: es).get i) v).DeclaredNull →
        ∃ later, after = later ++ [.changed a (.stored i v) { before.current g with
          slots := (before.current g).slots.put i (.filled v) }]
  /-- An assign is answered with the value it was given, by an enabled gate and by a disabled one. -/
  answers : ∀ a i v x s, .began a (.assign i v) ∈ h → .finished a x s ∈ h →
    ¬ (Typed.strip ((e :: es).get i) v).DeclaredNull → x = .value i v

variable {g : Gate (.ofExprs users e es) δ} {h : History (.ofExprs users e es)}

/-- What is stored for a value of a slot, by the expression of its type. -/
theorem Signature.stored_eq_self {i : Fin (Signature.ofExprs users e es).arity}
    {v : ((Signature.ofExprs users e es).type i).Carrier}
    (hd : ¬ (Typed.strip ((e :: es).get i) v).DeclaredNull) :
    ((Signature.ofExprs users e es).type i).stored v = v :=
  TypeExpr.stored_eq_self hd

theorem History.Opened.stores (ho : h.Opened g) {after before : History (.ofExprs users e es)}
    {a : Activity} {i : Fin (Signature.ofExprs users e es).arity}
    {v : ((Signature.ofExprs users e es).type i).Carrier} {op : Operation (.ofExprs users e es)}
    (he : h = after ++ .began a op :: before) (hop : op = .set i v ∨ op = .assign i v)
    (hen : (before.current g).enabled = true)
    (hd : ¬ (Typed.strip ((e :: es).get i) v).DeclaredNull) :
    ∃ later, after = later ++ [.changed a (.stored i v) { before.current g with
      slots := (before.current g).slots.put i (.filled v) }] := by
  have hopens : op.opening (before.current g) = some (.stored i v) := by
    rcases hop with rfl | rfl <;> simp [Operation.opening, hen]
  obtain ⟨later, rfl⟩ := ho _ _ _ he a op _ rfl hopens
  refine ⟨later, ?_⟩
  rw [Change.apply, Signature.stored_eq_self hd]

/-- An assign has nothing to answer but the value that it was given. -/
theorem History.Coursed.answers_given (hc : h.Coursed g) {a : Activity}
    {i : Fin (Signature.ofExprs users e es).arity}
    {v : ((Signature.ofExprs users e es).type i).Carrier} {x : Answer (.ofExprs users e es)}
    {s : State (.ofExprs users e es)} (hb : .began a (.assign i v) ∈ h)
    (hf : .finished a x s ∈ h) (hd : ¬ (Typed.strip ((e :: es).get i) v).DeclaredNull) :
    x = .value i v := by
  obtain ⟨after, before, he⟩ := List.append_of_mem hb
  obtain ⟨-, left, hcourse, -⟩ := hc.courses _ _ _ he a _ rfl
  obtain ⟨s₀, c, -, hown⟩ := hcourse.of_not_fires rfl
  have hreply : (Operation.assign i v).reply g s₀ = .value i v := by
    simp [Operation.reply, Signature.stored_eq_self hd]
  have hmem : .finished a x s ∈ h.filter (Moment.isOf a) :=
    List.mem_filter.2 ⟨hf, by simp [Moment.isOf]⟩
  rcases hown with ⟨-, hown⟩ | ⟨s', -, hown⟩ <;> rw [hown] at hmem <;> simp at hmem
  rw [hmem.1, hreply]

end

/-- Nullness is a matter of the layer below the pointers, for all types, and in every run of a gate over
such types a value is stored as it was given, unless a user type declares it null. -/
theorem Run.nullness_below_pointers {ι : Type} (users : ι → SlotType) :
    (∀ e : TypeExpr ι, e.Nullness users) ∧
      ∀ (e : TypeExpr ι) (es : List (TypeExpr ι))
        (g : Gate (.ofExprs users e es) (Delegate (.ofExprs users e es)))
        (reactions : List (Reaction (.ofExprs users e es))) (dispatch : Dispatch)
        (ops : List (Operation (.ofExprs users e es))),
        (performAll g (start g reactions dispatch) ops).history.StoresAsGiven g := by
  refine ⟨TypeExpr.nullness users, fun e es g reactions dispatch ops => ?_⟩
  have hopened := opened_performAll g reactions dispatch ops
  have hcoursed := coursed_performAll g reactions dispatch ops
  constructor
  case stores =>
    rintro after m before he a i v op rfl hop hen hd
    exact hopened.stores he hop hen hd
  case answers =>
    intro a i v x s hb hf hd
    exact hcoursed.answers_given hb hf hd

end SlotGate
