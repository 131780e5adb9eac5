import Mathlib.Data.List.Induction
import SlotGate.Proofs.Merging

/-!
# Sets of profiles as logs of definitions

Inserting and merging define names, some of them again and again. A run of such edits is told here by the
log of its definitions alone, in which nothing is ever replaced: a name stands where the log first has
it, and means what the log last says of it.
-/
namespace SlotGate

namespace Named

variable {α : Type} {l log entries : Named α} {name n : String} {x y : α}

/-- The last entry of a name. -/
def Latest (log : Named α) (name : String) (x : α) : Prop :=
  ∃ before after : Named α, log = before ++ (name, x) :: after ∧ name ∉ after.names

theorem names_append (l l' : Named α) : names (l ++ l') = l.names ++ l'.names := List.map_append

theorem latest_concat_iff :
    Latest (log ++ [(name, x)]) n y ↔ name = n ∧ x = y ∨ name ≠ n ∧ log.Latest n y := by
  constructor
  · rintro ⟨before, after, he, hafter⟩
    rcases List.eq_nil_or_concat' after with rfl | ⟨between, e, rfl⟩
    · obtain ⟨-, hlast⟩ := List.append_inj' he rfl
      obtain ⟨rfl, rfl⟩ := Prod.mk.inj (List.cons.inj hlast).1
      exact .inl ⟨rfl, rfl⟩
    · rw [← List.cons_append, ← List.append_assoc] at he
      obtain ⟨hlog, hlast⟩ := List.append_inj' he rfl
      obtain rfl := (List.cons.inj hlast).1
      rw [names_append, List.mem_append, not_or] at hafter
      exact .inr ⟨fun h => hafter.2 (h ▸ List.mem_singleton_self _), before, between, hlog, hafter.1⟩
  · rintro (⟨rfl, rfl⟩ | ⟨hne, before, after, rfl, hafter⟩)
    · exact ⟨log, [], rfl, List.not_mem_nil⟩
    · refine ⟨before, after ++ [(name, x)], by simp, ?_⟩
      rw [names_append, List.mem_append, not_or]
      exact ⟨hafter, fun h => hne (List.mem_singleton.1 h).symm⟩

theorem exists_latest_iff : (∃ x, log.Latest name x) ↔ name ∈ log.names := by
  constructor
  · rintro ⟨x, before, after, rfl, -⟩
    simp [names]
  · intro h
    induction log using List.reverseRecOn with
    | nil => cases h
    | append_singleton log e ih =>
      by_cases he : e.1 = name
      · exact ⟨e.2, latest_concat_iff.2 (.inl ⟨he, rfl⟩)⟩
      · rw [names_append, List.mem_append] at h
        obtain ⟨x, hx⟩ := ih (h.resolve_right fun hlast => he (List.mem_singleton.1 hlast).symm)
        exact ⟨x, latest_concat_iff.2 (.inr ⟨he, hx⟩)⟩

/-- What a log of entries comes to: its names in the order of their first entries, each over its last. -/
structure SumOf (log l : Named α) : Prop where
  ordered : l.names.Pairwise fun m n => log.names.idxOf m < log.names.idxOf n
  names : ∀ n, n ∈ l.names ↔ n ∈ log.names
  lookup : ∀ n x, l.lookup n = some x ↔ log.Latest n x

namespace SumOf

/-- A put is one entry more. -/
theorem put (h : SumOf log l) (name : String) (x : α) :
    SumOf (log ++ [(name, x)]) (l.put name x) := by
  have hnames : Named.names (log ++ [(name, x)]) = log.names ++ [name] := names_append ..
  -- a name that the log had is first entered where it was
  have hidx {m : String} (hm : m ∈ l.names) :
      (log.names ++ [name]).idxOf m = log.names.idxOf m :=
    List.idxOf_append_of_mem ((h.names m).1 hm)
  have hbefore : l.names.Pairwise fun m n =>
      (log.names ++ [name]).idxOf m < (log.names ++ [name]).idxOf n :=
    h.ordered.imp_of_mem fun hm hn hlt => by rwa [hidx hm, hidx hn]
  constructor
  case ordered =>
    rw [hnames]
    by_cases hmem : name ∈ l.names
    · rwa [names_put_of_mem hmem]
    · have hnew : name ∉ log.names := fun hlog => hmem ((h.names name).2 hlog)
      rw [put_of_not_mem hmem, names_append]
      refine List.pairwise_append.2 ⟨hbefore, List.pairwise_singleton _ _, fun m hm n hn => ?_⟩
      obtain rfl := List.mem_singleton.1 hn
      rw [hidx hm, List.idxOf_append_of_notMem hnew]
      exact Nat.lt_add_right _ (List.idxOf_lt_length_of_mem ((h.names m).1 hm))
  case names =>
    intro n
    rw [mem_names_put, hnames, List.mem_append, List.mem_singleton, h.names, or_comm]
  case lookup =>
    intro n y
    rw [lookup_put, latest_concat_iff, ← h.lookup]
    by_cases hn : name = n <;> simp [hn]

theorem putAll (h : SumOf log l) (entries : Named α) :
    SumOf (log ++ entries) (l.putAll entries) := by
  induction entries generalizing log l with
  | nil => rwa [List.append_nil]
  | cons e rest ih =>
    rw [List.append_cons]
    exact ih (h.put e.1 e.2)

theorem nodup (h : SumOf log l) : l.names.Nodup :=
  h.ordered.imp fun hlt he => absurd (he ▸ hlt) (Nat.lt_irrefl _)

theorem lookup_eq_none_iff_not_mem (h : SumOf log l) : l.lookup name = none ↔ name ∉ log.names := by
  rw [← exists_latest_iff, not_exists, Option.eq_none_iff_forall_ne_some]
  exact forall_congr' fun x => not_congr (h.lookup name x)

end SumOf

/-- A list without repeated names is what it comes to as a log. -/
theorem sumOf_self (h : l.names.Nodup) : SumOf l l := by
  have hempty : SumOf ([] : Named α) [] := by
    refine ⟨List.Pairwise.nil, fun n => Iff.rfl, fun n x => ⟨nofun, ?_⟩⟩
    rintro ⟨before, after, he, -⟩
    cases before <;> cases he
  have hself : putAll [] l = l := by
    have hnames : (putAll [] l).names = l.names := by
      rw [names_putAll h]
      exact List.filter_eq_self.2 fun n _ => by simp [names]
    refine eq_of_lookup (hnames ▸ h) hnames fun n => ?_
    rw [lookup_putAll h]
    exact Option.or_none
  have hsum := hempty.putAll l
  rwa [hself] at hsum

end Named

/-- A change of a set of profiles. -/
inductive Edit where
  | insert (name : String) (p : Profile)
  | merge (other : ProfileSet)

namespace Edit

/-- The definitions that an edit makes, in their order. -/
def definitions : Edit → Named Profile
  | insert name p => [(name, p)]
  | merge other => other.profiles

def warnings : Edit → List Warning
  | insert .. => []
  | merge other => other.warnings

end Edit

namespace ProfileSet

def edit (s : ProfileSet) : Edit → ProfileSet
  | .insert name p => (s.insert name p).1
  | .merge other => s.merge other

def editAll (s : ProfileSet) (edits : List Edit) : ProfileSet := edits.foldl edit s

/-- The definitions that a set began with and those of its edits, in their order. -/
def log (s : ProfileSet) (edits : List Edit) : Named Profile :=
  s.profiles ++ edits.flatMap Edit.definitions

theorem edit_sumOf {s : ProfileSet} {log : Named Profile} (h : log.SumOf s.profiles) (e : Edit) :
    Named.SumOf (log ++ e.definitions) (s.edit e).profiles := by
  cases e with
  | insert name p => exact h.put name p
  | merge other => exact h.putAll other.profiles

theorem editAll_sumOf {s : ProfileSet} {log : Named Profile} (h : log.SumOf s.profiles)
    (edits : List Edit) :
    Named.SumOf (log ++ edits.flatMap Edit.definitions) (s.editAll edits).profiles := by
  induction edits generalizing s log with
  | nil => rwa [List.flatMap_nil, List.append_nil]
  | cons e rest ih =>
    rw [List.flatMap_cons, ← List.append_assoc]
    exact ih (edit_sumOf h e)

theorem editAll_append (s : ProfileSet) (edits later : List Edit) :
    s.editAll (edits ++ later) = (s.editAll edits).editAll later := List.foldl_append

theorem warnings_edit (s : ProfileSet) (e : Edit) : (s.edit e).warnings = s.warnings ++ e.warnings := by
  cases e with
  | insert name p => exact (List.append_nil _).symm
  | merge other => rfl

theorem warnings_editAll (s : ProfileSet) (edits : List Edit) :
    (s.editAll edits).warnings = s.warnings ++ edits.flatMap Edit.warnings := by
  induction edits generalizing s with
  | nil => exact (List.append_nil _).symm
  | cons e rest ih =>
    rw [List.flatMap_cons, ← List.append_assoc, ← warnings_edit]
    exact ih (s.edit e)

theorem names_prefix_edit (s : ProfileSet) (e : Edit) : s.names <+: (s.edit e).names := by
  cases e with
  | insert name p =>
    change s.profiles.names <+: (s.profiles.put name p).names
    by_cases h : name ∈ s.profiles.names
    · exact (Named.names_put_of_mem h p).symm ▸ List.prefix_rfl
    · rw [Named.put_of_not_mem h, Named.names_append]
      exact List.prefix_append ..
  | merge other =>
    change s.names <+: (s.merge other).names
    rw [names_merge]
    exact List.prefix_append ..

theorem names_prefix_editAll (s : ProfileSet) (edits : List Edit) :
    s.names <+: (s.editAll edits).names := by
  induction edits generalizing s with
  | nil => exact List.prefix_rfl
  | cons e rest ih => exact (names_prefix_edit s e).trans (ih (s.edit e))

/-- What the edits of a set come to, told by the log of all definitions. -/
structure Chronicle (s : ProfileSet) (edits : List Edit) (t : ProfileSet) : Prop where
  distinct : t.names.Nodup
  /-- Names stand in the order in which they were first defined. -/
  ordered : t.names.Pairwise fun m n => (s.log edits).names.idxOf m < (s.log edits).names.idxOf n
  defined : ∀ name, name ∈ t.names ↔ name ∈ (s.log edits).names
  /-- No name moves: after some of the edits, the names stand as they do after all of them. -/
  places : ∀ before after, edits = before ++ after → (s.editAll before).names <+: t.names
  /-- A name has the profile that it was last defined as. -/
  get : ∀ name p, t.get? name = some p ↔ (s.log edits).Latest name p
  get_none : ∀ name, t.get? name = none ↔ name ∉ (s.log edits).names
  profile : ∀ name p, t.profile name = .ok p ↔ (s.log edits).Latest name p
  profile_error : ∀ name e,
    t.profile name = .error e ↔ e = .unknownProfile name ∧ name ∉ (s.log edits).names
  /-- An insertion gives back what the name was last defined as before it, and warns of nothing. -/
  replaced : ∀ before name p after, edits = before ++ .insert name p :: after →
    let u := s.editAll before
    (u.insert name p).2 = u.get? name ∧
      (∀ q, (u.insert name p).2 = some q ↔ (s.log before).Latest name q) ∧
      (u.insert name p).1.warnings = u.warnings
  size : t.size = t.names.length
  warnings : t.warnings = s.warnings ++ edits.flatMap Edit.warnings
  /-- Warnings are only added, at the end. -/
  warned : ∀ before after, edits = before ++ after → (s.editAll before).warnings <+: t.warnings

theorem edits_chronicled (s : ProfileSet) (edits : List Edit) :
    s.Chronicle edits (s.editAll edits) := by
  have hsum (edits : List Edit) : (s.log edits).SumOf (s.editAll edits).profiles :=
    editAll_sumOf (Named.sumOf_self s.nodup_names) edits
  have hget (edits : List Edit) (name : String) (p : Profile) :
      (s.editAll edits).get? name = some p ↔ (s.log edits).Latest name p := (hsum edits).lookup name p
  have hnone (name : String) : (s.editAll edits).get? name = none ↔ name ∉ (s.log edits).names :=
    (hsum edits).lookup_eq_none_iff_not_mem
  constructor
  case distinct => exact (hsum edits).nodup
  case ordered => exact (hsum edits).ordered
  case defined => exact (hsum edits).names
  case places =>
    rintro before after rfl
    rw [editAll_append]
    exact names_prefix_editAll ..
  case get => exact hget edits
  case get_none => exact hnone
  case profile =>
    intro name p
    rw [← hget edits, ProfileSet.profile]
    cases (s.editAll edits).get? name <;> simp
  case profile_error =>
    intro name e
    rw [← hnone, ProfileSet.profile]
    cases (s.editAll edits).get? name <;> simp [eq_comm]
  case replaced => exact fun before name p after _ => ⟨rfl, hget before name, rfl⟩
  case size => exact (List.length_map Prod.fst).symm
  case warnings => exact warnings_editAll s edits
  case warned =>
    rintro before after rfl
    rw [editAll_append, warnings_editAll (s.editAll before) after]
    exact List.prefix_append ..

end ProfileSet

end SlotGate
