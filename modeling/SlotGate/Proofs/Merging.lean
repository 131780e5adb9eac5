import SlotGate.Proofs.ProfileContents

/-!
# Merging sets of profiles

A name stands where it was first defined and means what it was last defined as. A list of profiles is
therefore determined by its names in order and by what is looked up under each of them. Both are
computed here for a put and for a list of puts; merging is then compared by names and by look-ups, and
positions are not counted.
-/
namespace SlotGate

namespace Named

variable {α : Type} {l l' entries : Named α} {name : String}

theorem names_put_of_mem (h : name ∈ l.names) (x : α) : (l.put name x).names = l.names := by
  induction l with
  | nil => cases h
  | cons e rest ih =>
    unfold put
    split
    · next he => simp [names, he]
    · next he =>
      have hrest : name ∈ names rest := (List.mem_cons.1 h).resolve_left (Ne.symm he)
      exact congrArg (e.1 :: ·) (ih hrest)

theorem lookup_put (l : Named α) (name n : String) (x : α) :
    (l.put name x).lookup n = if name = n then some x else l.lookup n := by
  by_cases hn : name = n
  · subst hn
    rw [if_pos rfl]
    induction l with
    | nil => exact List.lookup_cons_self
    | cons e rest ih =>
      unfold put
      split
      · exact List.lookup_cons_self
      · next he => rw [lookup_cons_of_ne he, ih]
  · rw [if_neg hn]
    induction l with
    | nil => exact lookup_cons_of_ne hn []
    | cons e rest ih =>
      unfold put
      split
      · next he => rw [lookup_cons_of_ne hn, lookup_cons_of_ne (he ▸ hn)]
      · rw [List.lookup_cons, List.lookup_cons, ih]

/-- The names that a list of puts adds are those that were not there, in their order. -/
theorem names_putAll (h : entries.names.Nodup) (l : Named α) :
    (l.putAll entries).names = l.names ++ entries.names.filter (· ∉ l.names) := by
  induction entries generalizing l with
  | nil => simp [putAll, names]
  | cons e rest ih =>
    obtain ⟨hnew, hrest⟩ := List.nodup_cons.1 h
    change (putAll (put e.1 e.2 l) rest).names = _ ++ List.filter _ (e.1 :: names rest)
    rw [ih hrest]
    by_cases he : e.1 ∈ l.names
    · rw [names_put_of_mem he, List.filter_cons_of_neg (by simpa using he)]
    · have hlater :
          (names rest).filter (· ∉ names (l ++ [e])) = (names rest).filter (· ∉ l.names) := by
        refine List.filter_congr fun n hn => ?_
        have hne : n ≠ e.1 := fun heq => hnew (heq ▸ hn)
        exact decide_eq_decide.2 (not_congr (by simp [names, hne]))
      rw [put_of_not_mem he, List.filter_cons_of_pos (by simpa using he), hlater]
      simp [names, List.append_assoc]

/-- Look-ups after one entry after the other was put in, in any way that a look-up finds the last. -/
theorem lookup_foldl {ins : String → α → Named α → Named α}
    (hins : ∀ name x l n, (ins name x l).lookup n = if name = n then some x else l.lookup n)
    (h : entries.names.Nodup) (l : Named α) (n : String) :
    List.lookup n (entries.foldl (fun m e => ins e.1 e.2 m) l) =
      (entries.lookup n).or (l.lookup n) := by
  induction entries generalizing l with
  | nil => rfl
  | cons e rest ih =>
    obtain ⟨hnew, hrest⟩ := List.nodup_cons.1 h
    rw [List.foldl_cons, ih hrest, hins]
    by_cases he : e.1 = n
    · subst he
      rw [if_pos rfl, List.lookup_cons_self, lookup_eq_none_iff_not_mem.2 hnew]
      rfl
    · rw [if_neg he, lookup_cons_of_ne he]

theorem lookup_putAll (h : entries.names.Nodup) (l : Named α) (n : String) :
    (l.putAll entries).lookup n = (entries.lookup n).or (l.lookup n) :=
  lookup_foldl (fun name x l n => lookup_put l name n x) h l n

/-- Lists with the same names in order and the same things under them are the same. -/
theorem eq_of_lookup (h : l.names.Nodup) (hnames : l.names = l'.names)
    (hlookup : ∀ n, l.lookup n = l'.lookup n) : l = l' := by
  induction l generalizing l' with
  | nil => exact (List.map_eq_nil_iff.1 hnames.symm).symm
  | cons e rest ih =>
    cases l' with
    | nil => cases hnames
    | cons e' rest' =>
      obtain ⟨hname, hnames⟩ := List.cons.inj hnames
      change e.1 = e'.1 at hname
      obtain ⟨hnew, hrest⟩ := List.nodup_cons.1 h
      have hfirst : e = e' := by
        have := hlookup e.1
        rw [List.lookup_cons_self, hname, List.lookup_cons_self] at this
        exact Prod.ext hname (Option.some.inj this)
      refine hfirst ▸ congrArg (e :: ·) (ih hrest hnames fun n => ?_)
      by_cases hn : e.1 = n
      · subst hn
        have hnew' : e.1 ∉ names rest' := fun hmem => hnew (hnames.symm ▸ hmem)
        rw [lookup_eq_none_iff_not_mem.2 hnew, lookup_eq_none_iff_not_mem.2 hnew']
      · have := hlookup n
        rwa [lookup_cons_of_ne hn, lookup_cons_of_ne (hname ▸ hn)] at this

end Named

namespace ProfileSet

/-- Sets with the same names in order, the same profiles under them and the same warnings are the
same. -/
theorem eq_of_get? {s t : ProfileSet} (hnames : s.names = t.names)
    (hget : ∀ name, s.get? name = t.get? name) (hwarnings : s.warnings = t.warnings) : s = t := by
  have hprofiles : s.profiles = t.profiles := Named.eq_of_lookup s.nodup_names hnames hget
  cases s
  cases t
  cases hprofiles
  cases hwarnings
  rfl

theorem names_merge (a b : ProfileSet) :
    (a.merge b).names = a.names ++ b.names.filter (· ∉ a.names) :=
  Named.names_putAll b.nodup_names a.profiles

theorem get?_merge (a b : ProfileSet) (name : String) :
    (a.merge b).get? name = (b.get? name).or (a.get? name) :=
  Named.lookup_putAll b.nodup_names a.profiles name

/-- The set with all entries of a list inserted, one after the other. -/
def insertAll (s : ProfileSet) (entries : Named Profile) : ProfileSet :=
  entries.foldl (fun s e => (s.insert e.1 e.2).1) s

theorem profiles_insertAll (s : ProfileSet) (entries : Named Profile) :
    (s.insertAll entries).profiles = s.profiles.putAll entries := by
  induction entries generalizing s with
  | nil => rfl
  | cons e rest ih => exact ih _

theorem warnings_insertAll (s : ProfileSet) (entries : Named Profile) :
    (s.insertAll entries).warnings = s.warnings := by
  induction entries generalizing s with
  | nil => rfl
  | cons e rest ih => exact ih _

theorem merge_assoc (a b c : ProfileSet) : (a.merge b).merge c = a.merge (b.merge c) := by
  refine eq_of_get? ?_ (fun name => ?_) (List.append_assoc ..)
  · -- a name of `c` is new to `a` and `b` together just if it is new to each of them
    have hnew : c.names.filter (· ∉ a.names ++ b.names.filter (· ∉ a.names)) =
        (c.names.filter (· ∉ b.names)).filter (· ∉ a.names) := by
      rw [List.filter_filter]
      refine List.filter_congr fun n _ => ?_
      by_cases ha : n ∈ a.names <;> simp [ha]
    simp only [names_merge, hnew, List.filter_append, List.append_assoc]
  · simp only [get?_merge, Option.or_assoc]

/-- What merging does, of `b` into `a` and of `c` into both. -/
structure MergeLaws (a b c : ProfileSet) : Prop where
  /-- The names of `a` keep their places; those that are new follow in the order of `b`. -/
  names : (a.merge b).names = a.names ++ b.names.filter (· ∉ a.names)
  /-- A profile of `b` replaces that of `a` as a whole. -/
  replaced : ∀ name p, b.get? name = some p → (a.merge b).get? name = some p
  kept : ∀ name, b.get? name = none → (a.merge b).get? name = a.get? name
  warnings : (a.merge b).warnings = a.warnings ++ b.warnings
  assoc : (a.merge b).merge c = a.merge (b.merge c)
  empty_merge : ({} : ProfileSet).merge a = a
  merge_empty : a.merge {} = a
  self : (a.merge a).names = a.names ∧ (a.merge a).profiles = a.profiles
  /-- A merge is one insertion for each entry of `b` in order, and its warnings behind the others. -/
  insertions : let inserted := a.insertAll b.profiles
    a.merge b = { inserted with warnings := inserted.warnings ++ b.warnings }

theorem merge_laws (a b c : ProfileSet) : a.MergeLaws b c := by
  constructor
  case names => exact names_merge a b
  case replaced => exact fun name p h => by rw [get?_merge, h, Option.some_or]
  case kept => exact fun name h => by rw [get?_merge, h, Option.none_or]
  case warnings => rfl
  case assoc => exact merge_assoc a b c
  case empty_merge =>
    refine eq_of_get? ?_ (fun name => ?_) (List.nil_append _)
    · rw [names_merge]
      exact List.filter_eq_self.2 fun n _ => by simp [ProfileSet.names, Named.names]
    · rw [get?_merge]
      exact Option.or_none
  case merge_empty => exact eq_of_get? rfl (fun _ => rfl) (List.append_nil _)
  case self =>
    have hnames : (a.merge a).names = a.names := by
      have hnone : a.names.filter (· ∉ a.names) = [] :=
        List.filter_eq_nil_iff.2 fun n hn => by simpa using hn
      rw [names_merge, hnone, List.append_nil]
    refine ⟨hnames, Named.eq_of_lookup (a.merge a).nodup_names hnames fun name => ?_⟩
    exact (get?_merge a a name).trans (Option.or_self)
  case insertions =>
    have hprofiles := profiles_insertAll a b.profiles
    have hwarnings := warnings_insertAll a b.profiles
    refine eq_of_get? (congrArg Named.names hprofiles.symm) (fun name => ?_) ?_
    · exact congrArg (List.lookup name) hprofiles.symm
    · exact congrArg (· ++ b.warnings) hwarnings.symm

end ProfileSet

end SlotGate
