import SlotGate.Proofs.Step

/-!
# Invariants of runs

A property of an agenda and a run that every task keeps holds at the end of every operation of the
top. Two more facts come with the induction: a task of the top is alone on its agenda, and a run that
unwinds only throws its agenda away.
-/
namespace SlotGate

variable {σ : Signature} {δ : Type}

namespace History

/-- Every moment of a history stands in a relation to the moments before it. -/
def Each (P : Moment σ → History σ → Prop) : History σ → Prop
  | [] => True
  | m :: before => P m before ∧ Each P before

theorem each_at {P : Moment σ → History σ → Prop} {h after before : History σ} {m : Moment σ}
    (hh : h.Each P) (he : h = after ++ m :: before) : P m before := by
  induction after generalizing h with
  | nil => subst he; exact hh.1
  | cons x after ih => subst he; exact ih hh.2 rfl

theorem each_suffix {P : Moment σ → History σ → Prop} {after before : History σ}
    (hh : Each P (after ++ before)) : before.Each P := by
  induction after with
  | nil => exact hh
  | cons x after ih => exact ih hh.2

theorem each_before {P : Moment σ → History σ → Prop} {h after before : History σ} {m : Moment σ}
    (hh : h.Each P) (he : h = after ++ m :: before) : before.Each P := by
  subst he
  have htail : Each P (m :: before) := each_suffix hh
  exact htail.2

theorem each_append {P : Moment σ → History σ → Prop} {h new : History σ} (hh : h.Each P)
    (hn : ∀ m ∈ new, ∀ before, P m before) : Each P (new ++ h) := by
  induction new with
  | nil => exact hh
  | cons m new ih =>
    obtain ⟨hm, hnew⟩ := List.forall_mem_cons.1 hn
    exact ⟨hm _, ih hnew⟩

theorem before_suffix {h after before : History σ} {m : Moment σ} (he : h = after ++ m :: before) :
    before <:+ h := by
  rw [he]
  exact (List.suffix_cons m before).trans (List.suffix_append after _)

/-- The moment `m` came after `before`, and only moments of the kind `P` have come since. -/
def Since (P : Moment σ → Prop) (h : History σ) (m : Moment σ) (before : History σ) : Prop :=
  ∃ late, h = late ++ m :: before ∧ ∀ x ∈ late, P x

theorem Since.refl {P : Moment σ → Prop} (m : Moment σ) (before : History σ) :
    Since P (m :: before) m before := ⟨[], rfl, by simp⟩

theorem Since.append {P : Moment σ → Prop} {h new before : History σ} {m : Moment σ}
    (hs : h.Since P m before) (hn : ∀ x ∈ new, P x) : Since P (new ++ h) m before := by
  obtain ⟨late, rfl, hlate⟩ := hs
  refine ⟨new ++ late, by simp, fun x hx => ?_⟩
  exact (List.mem_append.1 hx).elim (hn x) (hlate x)

theorem Since.each {P : Moment σ → Prop} {Q : Moment σ → History σ → Prop} {h before : History σ}
    {m : Moment σ} (hs : h.Since P m before) (hh : h.Each Q) : Q m before ∧ before.Each Q := by
  obtain ⟨late, he, -⟩ := hs
  exact ⟨each_at hh he, each_before hh he⟩

/-- Every moment of a history stands in a relation to the moments after it and before it. -/
def Every (P : History σ → Moment σ → History σ → Prop) (h : History σ) : Prop :=
  ∀ after m before, h = after ++ m :: before → P after m before

theorem split_singleton {after before : History σ} {x m : Moment σ}
    (h : [x] = after ++ m :: before) : after = [] ∧ before = [] := by
  cases after with
  | nil => exact ⟨rfl, (List.cons.inj h).2.symm⟩
  | cons y after => simp at h

theorem every_append {P Q : History σ → Moment σ → History σ → Prop} {h new : History σ}
    (hh : h.Every P)
    (hold : ∀ after m before, P after m before → Q (new ++ after) m before)
    (hnew : ∀ after m before, new = after ++ m :: before → Q after m (before ++ h)) :
    Every Q (new ++ h) := by
  intro after m before he
  rcases List.append_eq_append_iff.1 he with ⟨rest, rfl, hr⟩ | ⟨rest, hn, hr⟩
  · exact hold rest m before (hh rest m before hr)
  · cases rest with
    | nil =>
      rw [List.append_nil] at hn
      subst hn
      have hm := hold [] m before (hh [] m before hr.symm)
      rwa [List.append_nil] at hm
    | cons x rest =>
      obtain ⟨rfl, rfl⟩ := List.cons.inj hr
      exact hnew after m rest hn

end History

namespace Run

/-- What has to be shown of a property of an agenda and a run to have it at the end of every
operation of the top. Operations of the top are taken from those that `Admits` allows. -/
structure Invariant (g : Gate σ δ) (Admits : Operation σ → Prop)
    (I : Agenda σ → Run σ → Prop) : Prop where
  begins : ∀ op r, Admits op → r.unwinding = false → I [] r → I [.start .top op] r
  keeps : ∀ t rest r, t.Nested ∨ rest = [] → r.unwinding = false → I (t :: rest) r →
    I ((t.step g r).1 ++ rest) (t.step g r).2
  drops : ∀ t rest r, r.unwinding = true → I (t :: rest) r → I rest r
  settles : ∀ r, I [] r → I [] r.settled

namespace Invariant

variable {g : Gate σ δ} {Admits : Operation σ → Prop} {I : Agenda σ → Run σ → Prop}

theorem step (hI : Invariant g Admits I) {t : Task σ} {rest : Agenda σ} {r : Run σ}
    (ht : t.Nested ∨ rest = []) (h : I (t :: rest) r) :
    I ((t.step g r).1 ++ rest) (t.step g r).2 := by
  cases hu : r.unwinding with
  | false => exact hI.keeps t rest r ht hu h
  | true =>
    rw [Task.step_of_unwinding hu]
    exact hI.drops t rest r hu h

theorem advance (hI : Invariant g Admits I) {tasks : Agenda σ} {r : Run σ}
    (hn : ∀ t ∈ tasks, t.Nested) (h : I tasks r) : I [] (advance g tasks r) := by
  fun_induction Run.advance g tasks r with
  | case1 => exact h
  | case2 r t rest ih =>
    apply ih
    · intro u hu
      rcases List.mem_append.1 hu with hu | hu
      · exact (Task.successor_of_mem_step hu).nested
      · exact hn u (List.mem_cons_of_mem _ hu)
    · exact hI.step (.inl (hn t List.mem_cons_self)) h

theorem perform (hI : Invariant g Admits I) {op : Operation σ} {r : Run σ} (ha : Admits op)
    (hu : r.unwinding = false) (h : I [] r) : I [] (perform g r op) := by
  apply hI.settles
  rw [advance_cons, List.append_nil]
  have hstep := hI.step (.inr rfl) (hI.begins op r ha hu h)
  rw [List.append_nil] at hstep
  exact hI.advance (fun t ht => (Task.successor_of_mem_step ht).nested) hstep

theorem performAll (hI : Invariant g Admits I) (ops : List (Operation σ)) {r : Run σ}
    (ha : ∀ op ∈ ops, Admits op) (hu : r.unwinding = false) (h : I [] r) :
    I [] (performAll g r ops) := by
  induction ops generalizing r with
  | nil => exact h
  | cons op ops ih =>
    obtain ⟨hop, hops⟩ := List.forall_mem_cons.1 ha
    exact ih hops rfl (hI.perform hop hu h)

end Invariant

end Run

/-- Two flags. -/
def Signature.flags : Signature := ⟨2, by decide, fun _ => .bool⟩

namespace Gate

/-- A bound gate with two flags, on which theorems about runs are tried. -/
def flags (settings : Settings) (scripts : List (Script .flags)) :
    Gate .flags (Delegate .flags) where
  name := "flags"
  slotNames := #v["left", "right"]
  settings := settings
  lockMode := .unsynchronized
  delegate := some ⟨scripts⟩
  isIdentifier_of_mem := by
    change ∀ n ∈ ["left", "right"], Text.isIdentifier n = true
    decide +kernel
  nodup_slotNames := by
    change ["left", "right"].Nodup
    decide

def left : Fin Signature.flags.arity := ⟨0, by decide⟩

def right : Fin Signature.flags.arity := ⟨1, by decide⟩

end Gate

end SlotGate
