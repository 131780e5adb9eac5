import Mathlib.Data.List.Sort
import SlotGate.Proofs.Merging
import SlotGate.Proofs.ProfileFaults

/-!
# Reading back what was written

A set of profiles is written as a document with one table for each of them, and each profile under all
of its keys or without some that hold their defaults. Such a document is read without a fault and
without warnings, and gives the profiles back; only the order in which they were defined is replaced by
that of their names. The names can be any texts, those of keys and sections among them.
-/
namespace SlotGate

open SlotGate.Toml (Item Table)

/-! ## Lists in ascending order -/

namespace Named

variable {α : Type} {l l' t : Named α}

/-- The entries of a list in ascending order of their names. -/
def sorted (l : Named α) : Named α := l.foldl (fun t e => insertSorted e.1 e.2 t) []

theorem lookup_insertSorted (name : String) (x : α) (l : Named α) (n : String) :
    (l.insertSorted name x).lookup n = if name = n then some x else l.lookup n := by
  by_cases hn : name = n
  · subst hn
    rw [if_pos rfl]
    induction l with
    | nil => exact List.lookup_cons_self
    | cons e rest ih =>
      unfold insertSorted
      split
      · exact List.lookup_cons_self
      · split
        · exact List.lookup_cons_self
        · next he => rw [lookup_cons_of_ne (Ne.symm he), ih]
  · rw [if_neg hn]
    induction l with
    | nil => exact lookup_cons_of_ne hn []
    | cons e rest ih =>
      unfold insertSorted
      split
      · exact lookup_cons_of_ne hn _
      · split
        · next he => rw [lookup_cons_of_ne hn, lookup_cons_of_ne (he ▸ hn)]
        · rw [List.lookup_cons, List.lookup_cons, ih]

theorem Ascending.foldl_insertSorted (h : t.Ascending) (l : Named α) :
    Named.Ascending (l.foldl (fun t e => Named.insertSorted e.1 e.2 t) t) := by
  induction l generalizing t with
  | nil => exact h
  | cons e rest ih => exact ih (h.insertSorted e.1 e.2)

theorem mem_of_mem_foldl {e : String × α} (h : e ∈ l.foldl (fun t e => insertSorted e.1 e.2 t) t) :
    e ∈ l ∨ e ∈ t := by
  induction l generalizing t with
  | nil => exact .inr h
  | cons first rest ih =>
    rcases ih h with he | he
    · exact .inl (List.mem_cons_of_mem _ he)
    · rcases mem_insertSorted he with rfl | he
      · exact .inl List.mem_cons_self
      · exact .inr he

theorem sorted_ascending (l : Named α) : l.sorted.Ascending :=
  Ascending.foldl_insertSorted .nil l

theorem mem_of_mem_sorted {e : String × α} (h : e ∈ l.sorted) : e ∈ l :=
  (mem_of_mem_foldl h).resolve_right List.not_mem_nil

theorem lookup_sorted (h : l.names.Nodup) (n : String) : l.sorted.lookup n = l.lookup n :=
  (lookup_foldl lookup_insertSorted h [] n).trans Option.or_none

theorem mem_sorted_iff (h : l.names.Nodup) {e : String × α} : e ∈ l.sorted ↔ e ∈ l := by
  refine ⟨mem_of_mem_sorted, fun he => mem_of_lookup ?_⟩
  rw [lookup_sorted h, lookup_of_mem h he]

/-- An ascending list is told by its entries. -/
theorem Ascending.eq_of_mem_iff (h : l.Ascending) (h' : l'.Ascending)
    (hmem : ∀ e, e ∈ l ↔ e ∈ l') : l = l' := by
  have : Std.Irrefl fun e e' : String × α => e.1 < e'.1 := ⟨fun e => lt_irrefl e.1⟩
  exact List.Pairwise.eq_of_mem_iff h h' hmem

theorem lookup_map {β : Type} (f : String → α → β) (l : Named α) (n : String) :
    List.lookup n (l.map fun e => (e.1, f e.1 e.2)) = (l.lookup n).map (f n) := by
  induction l with
  | nil => rfl
  | cons e rest ih =>
    rw [List.map_cons]
    by_cases he : e.1 = n
    · subst he
      rw [List.lookup_cons_self, List.lookup_cons_self]
      rfl
    · have hne : (e.1, f e.1 e.2).1 ≠ n := he
      rw [lookup_cons_of_ne he, lookup_cons_of_ne hne, ih]

end Named

/-! ## Profiles as tables -/

theorem ProfileKey.text_injective {key key' : ProfileKey} (h : key.text = key'.text) : key = key' := by
  cases key <;> cases key' <;> first | rfl | exact absurd h (by decide)

namespace Profile

variable (p : Profile) {keys omitted : List ProfileKey}

/-- A profile as a table, without some of its keys. -/
def tableWithout (omitted : List ProfileKey) : Table :=
  p.tableOf (ProfileKey.all.filter (· ∉ omitted))

theorem tableOf_eq (keys : List ProfileKey) :
    p.tableOf keys = Named.sorted (keys.map fun key => (key.text, p.valueOf key)) := by
  unfold tableOf Named.sorted
  rw [List.foldl_map]

theorem mem_tableOf_iff (h : keys.Nodup) {e : String × Item} :
    e ∈ p.tableOf keys ↔ ∃ key ∈ keys, (key.text, p.valueOf key) = e := by
  have hnodup : (Named.names (keys.map fun key => (key.text, p.valueOf key))).Nodup := by
    unfold Named.names
    rw [List.map_map]
    exact h.map fun _ _ => ProfileKey.text_injective
  rw [tableOf_eq, Named.mem_sorted_iff hnodup]
  exact List.mem_map

theorem mem_tableWithout_iff {e : String × Item} :
    e ∈ p.tableWithout omitted ↔ ∃ key ∉ omitted, (key.text, p.valueOf key) = e := by
  have hall (key : ProfileKey) : key ∈ ProfileKey.all := by cases key <;> decide
  rw [tableWithout, mem_tableOf_iff p (List.Nodup.filter _ (by decide))]
  simp [hall]

theorem tableWithout_ascending (omitted : List ProfileKey) :
    Table.Ascending (p.tableWithout omitted) := by
  refine ⟨?_, fun e he => ?_⟩
  · unfold tableWithout
    exact p.tableOf_eq _ ▸ Named.sorted_ascending _
  · obtain ⟨key, -, rfl⟩ := p.mem_tableWithout_iff.1 he
    cases key <;> constructor

/-- Without keys that hold their defaults, the table still says what the profile is. -/
theorem readFrom_tableWithout (h : ∀ key ∈ omitted, p.valueOf key = valueOf {} key) :
    p.ReadFrom (p.tableWithout omitted) := by
  have habsent (key : ProfileKey) (hkey : key ∈ omitted) :
      key.text ∉ Named.names (p.tableWithout omitted) := by
    intro hmem
    obtain ⟨e, he, hname⟩ := List.mem_map.1 hmem
    obtain ⟨key', hkey', rfl⟩ := p.mem_tableWithout_iff.1 he
    exact hkey' (ProfileKey.text_injective hname ▸ hkey)
  have hflag (key : ProfileKey) {b missing : Bool} (hb : p.valueOf key = .boolean b)
      (hmissing : valueOf {} key = .boolean missing) :
      FlagUnder (p.tableWithout omitted) key.text missing b := by
    by_cases hkey : key ∈ omitted
    · cases hb.symm.trans ((h key hkey).trans hmissing)
      exact .absent (habsent key hkey)
    · exact .present (hb ▸ p.mem_tableWithout_iff.2 ⟨key, hkey, rfl⟩)
  constructor
  case threadSafe => exact hflag .threadSafe rfl rfl
  case oneShot => exact hflag .oneShot rfl rfl
  case enabled => exact hflag .enabled rfl rfl
  case debug => exact hflag .debug rfl rfl
  case nullPolicy =>
    by_cases hkey : ProfileKey.nullPolicy ∈ omitted
    · have hvalue := Item.text.inj (h _ hkey)
      cases hpolicy : p.settings.nullPolicy with
      | suppress => exact .absent (habsent _ hkey)
      | fire => exact absurd (hpolicy ▸ hvalue) (by decide)
    · exact .present (p.mem_tableWithout_iff.2 ⟨_, hkey, rfl⟩) .text

theorem strayKeys_tableWithout (omitted : List ProfileKey) :
    (Item.table (p.tableWithout omitted)).strayKeys = [] := by
  refine List.filter_eq_nil_iff.2 fun n hn => ?_
  obtain ⟨e, he, rfl⟩ := List.mem_map.1 hn
  obtain ⟨key, -, rfl⟩ := p.mem_tableWithout_iff.1 he
  exact fun hstray => of_decide_eq_true hstray key.text_mem

/-- With all of its keys, a profile is written in their order. -/
theorem tableWithout_nil : p.tableWithout [] =
    [("debug", .boolean p.settings.debug), ("enabled", .boolean p.settings.enabled),
      ("null-policy", .text p.settings.nullPolicy.text), ("one-shot", .boolean p.settings.oneShot),
      ("thread-safe", .boolean p.threadSafe)] := by
  have horder :
      List.Pairwise (· < ·) ["debug", "enabled", "null-policy", "one-shot", "thread-safe"] := by
    decide +kernel
  refine (p.tableWithout_ascending []).order.eq_of_mem_iff (.of_names horder) fun e => ?_
  rw [mem_tableWithout_iff]
  constructor
  · rintro ⟨key, -, rfl⟩
    cases key <;> simp [ProfileKey.text, valueOf]
  · simp only [List.mem_cons, List.not_mem_nil, or_false]
    rintro (rfl | rfl | rfl | rfl | rfl)
    · exact ⟨.debug, not_false, rfl⟩
    · exact ⟨.enabled, not_false, rfl⟩
    · exact ⟨.nullPolicy, not_false, rfl⟩
    · exact ⟨.oneShot, not_false, rfl⟩
    · exact ⟨.threadSafe, not_false, rfl⟩

end Profile

/-! ## Sets as documents -/

namespace ProfileSet

/-- The profiles of a set as items, each without the keys that are left out of it. -/
def items (s : ProfileSet) (omitted : String → List ProfileKey) : Table :=
  s.profiles.map fun e => (e.1, .table (e.2.tableWithout (omitted e.1)))

/-- A set as the table of a document. -/
def document (s : ProfileSet) (omitted : String → List ProfileKey) : Table :=
  [(gateSection, .table (Named.sorted (s.items omitted)))]

/-- Only keys that hold their defaults are left out. -/
def OmitsDefaults (s : ProfileSet) (omitted : String → List ProfileKey) : Prop :=
  ∀ name p, s.get? name = some p → ∀ key ∈ omitted name, p.valueOf key = Profile.valueOf {} key

variable {s s' : ProfileSet} {omitted : String → List ProfileKey}

theorem names_items (s : ProfileSet) (omitted : String → List ProfileKey) :
    Named.names (s.items omitted) = s.names := by
  unfold items Named.names
  rw [List.map_map]
  rfl

theorem lookup_items (s : ProfileSet) (omitted : String → List ProfileKey) (name : String) :
    List.lookup name (Named.sorted (s.items omitted)) =
      (s.get? name).map fun p => .table (p.tableWithout (omitted name)) := by
  have hnodup : (Named.names (s.items omitted)).Nodup := (s.names_items omitted).symm ▸ s.nodup_names
  rw [Named.lookup_sorted hnodup]
  exact Named.lookup_map (fun name p => Item.table (p.tableWithout (omitted name))) s.profiles name

theorem mem_items_iff {name : String} {v : Item} :
    (name, v) ∈ Named.sorted (s.items omitted) ↔
      ∃ p, s.get? name = some p ∧ .table (p.tableWithout (omitted name)) = v := by
  rw [← (Named.sorted_ascending _).lookup_eq_some_iff, lookup_items, Option.map_eq_some_iff]

theorem items_ascending (s : ProfileSet) (omitted : String → List ProfileKey) :
    Table.Ascending (Named.sorted (s.items omitted)) := by
  refine ⟨Named.sorted_ascending _, fun ⟨name, v⟩ he => ?_⟩
  obtain ⟨p, -, rfl⟩ := mem_items_iff.1 he
  have hdeep := p.tableWithout_ascending (omitted name)
  exact .table hdeep.order hdeep.inside

theorem document_ascending (s : ProfileSet) (omitted : String → List ProfileKey) :
    Table.Ascending (s.document omitted) := by
  have hitems := s.items_ascending omitted
  exact ⟨List.pairwise_singleton _ _, List.forall_mem_singleton.2 (.table hitems.order hitems.inside)⟩

theorem gatesOf_document (s : ProfileSet) (omitted : String → List ProfileKey) :
    gatesOf (s.document omitted) = Named.sorted (s.items omitted) := by
  simp [gatesOf, document]

/-- A document that leaves out defaults alone has no fault. -/
theorem exists_ofTable_document (h : s.OmitsDefaults omitted) :
    ∃ s', ofTable (s.document omitted) = .ok s' := by
  cases hresult : ofTable (s.document omitted) with
  | ok s' => exact ⟨s', rfl⟩
  | error e =>
    have hdoc := s.document_ascending omitted
    obtain ⟨name, fault, hsmallest, -⟩ :=
      (ofTable_eq_error_iff_of_gates hdoc (List.mem_singleton_self _) e).1 hresult
    obtain ⟨v, hv, hfault⟩ := hsmallest.entry
    have hascending := (s.items_ascending omitted).inside _ hv
    obtain ⟨p, hp, rfl⟩ := mem_items_iff.1 hv
    have hread := p.readFrom_tableWithout (h name p hp)
    have hprofile := Profile.isProfile_of_ofItem hascending
      ((Profile.ofItem_eq_ok_iff hascending p).2 ⟨_, rfl, hread⟩)
    exact absurd hprofile ((Item.not_isProfile_iff _).2 ⟨fault, hfault⟩)

/-- The set `s'` that is read of what was written of `s`. -/
structure RestoredAs (s s' : ProfileSet) : Prop where
  warnings : s'.warnings = []
  profiles : ∀ name, s'.get? name = s.get? name
  names : s'.names.Perm s.names
  ascending : s'.names.Pairwise (· < ·)
  /-- With nothing left out, `s'` is written as `s` is. -/
  rewritten : s'.document (fun _ => []) = s.document fun _ => []
  /-- With nothing left out, each profile is written with all of its keys. -/
  full : ∀ name p, s.get? name = some p → (name, .table [("debug", .boolean p.settings.debug),
    ("enabled", .boolean p.settings.enabled), ("null-policy", .text p.settings.nullPolicy.text),
    ("one-shot", .boolean p.settings.oneShot), ("thread-safe", .boolean p.threadSafe)]) ∈
      gatesOf (s'.document fun _ => [])

theorem get?_of_ofTable (h : s.OmitsDefaults omitted)
    (hs' : ofTable (s.document omitted) = .ok s') (name : String) : s'.get? name = s.get? name := by
  have hread := readFrom_of_ofTable (s.document_ascending omitted) hs'
  have hgates := s.gatesOf_document omitted
  cases hp : s.get? name with
  | none =>
    have hnone : List.lookup name (Named.sorted (s.items omitted)) = none := by
      rw [lookup_items, hp, Option.map_none]
    refine Named.lookup_eq_none_iff_not_mem.2 ?_
    change name ∉ s'.names
    rw [hread.names, hgates]
    exact Named.lookup_eq_none_iff_not_mem.1 hnone
  | some p =>
    have hmem := hgates ▸ mem_items_iff.2 ⟨p, hp, rfl⟩
    obtain ⟨entries, p', heq, hp', hfrom⟩ := hread.profiles _ hmem
    cases heq
    have horder := (p.tableWithout_ascending (omitted name)).order
    have hfrom' := (Profile.ofTable_eq_ok_iff horder p).2 (p.readFrom_tableWithout (h name p hp))
    cases hfrom'.symm.trans ((Profile.ofTable_eq_ok_iff horder p').2 hfrom)
    exact hp'

theorem warnings_of_ofTable (hs' : ofTable (s.document omitted) = .ok s') : s'.warnings = [] := by
  have hread := readFrom_of_ofTable (s.document_ascending omitted) hs'
  have hkeys : (Named.sorted (s.items omitted)).flatMap
      (fun e => e.2.strayKeys.map (Warning.unknownKey e.1)) = [] := by
    refine List.flatMap_eq_nil_iff.2 fun ⟨name, v⟩ he => ?_
    obtain ⟨p, -, rfl⟩ := mem_items_iff.1 he
    simp only [p.strayKeys_tableWithout, List.map_nil]
  have hnames : Named.names (s.document omitted) = [gateSection] := rfl
  rw [hread.warnings, s.gatesOf_document, hkeys, hnames]
  simp only [List.filter_cons, lt_irrefl, decide_false, Bool.false_eq_true, if_false, List.filter_nil,
    List.map_nil, List.append_nil]

theorem document_congr (h : ∀ name, s'.get? name = s.get? name) (omitted : String → List ProfileKey) :
    s'.document omitted = s.document omitted := by
  -- the order of definition is lost in what is written, so look-ups are all that counts
  have hitems : Named.sorted (s'.items omitted) = Named.sorted (s.items omitted) := by
    refine (Named.sorted_ascending _).eq_of_mem_iff (Named.sorted_ascending _) fun e => ?_
    rw [mem_items_iff, mem_items_iff, h]
  rw [document, document, hitems]

theorem perm_names (h : ∀ name, s'.get? name = s.get? name) : s'.names.Perm s.names := by
  refine (List.perm_ext_iff_of_nodup s'.nodup_names s.nodup_names).2 fun name => not_iff_not.1 ?_
  rw [← Named.lookup_eq_none_iff_not_mem, ← Named.lookup_eq_none_iff_not_mem]
  exact iff_of_eq (congrArg (· = none) (h name))

/-- Whatever the names and whichever defaults are left out, the document is in order, is read without a
fault, and gives the profiles back. -/
theorem restored_by_parse (s : ProfileSet) (omitted : String → List ProfileKey)
    (h : s.OmitsDefaults omitted) :
    (s.document omitted).Ascending ∧
      ∃ s', ofTable (s.document omitted) = .ok s' ∧ s.RestoredAs s' := by
  obtain ⟨s', hs'⟩ := exists_ofTable_document h
  have hget := get?_of_ofTable h hs'
  refine ⟨s.document_ascending omitted, s', hs', ?_⟩
  constructor
  case warnings => exact warnings_of_ofTable hs'
  case profiles => exact hget
  case names => exact perm_names hget
  case ascending => exact (readFrom_of_ofTable (s.document_ascending omitted) hs').ascending
  case rewritten => exact document_congr hget _
  case full =>
    intro name p hp
    rw [document_congr hget, gatesOf_document, mem_items_iff, ← p.tableWithout_nil]
    exact ⟨p, hp, rfl⟩

/-- Three profiles with unlikely names, the first with some of its defaults left out and the second
with all of its keys. -/
theorem restored_by_parse_of_three :
    let s : ProfileSet := {
      profiles := [("one-shot", { threadSafe := true }),
        ("", { settings := { enabled := false, nullPolicy := .fire } }), ("gate.a", {})]
      warnings := [.unknownSection "zone"]
      nodup_names := by decide }
    let omitted : String → List ProfileKey := fun name =>
      if name = "one-shot" then [.oneShot, .nullPolicy] else if name = "" then [] else ProfileKey.all
    s.OmitsDefaults omitted ∧ (s.document omitted).Ascending ∧
      ∃ s', ofTable (s.document omitted) = .ok s' ∧ s'.names = ["", "gate.a", "one-shot"] ∧
        s.RestoredAs s' := by
  intro s omitted
  have homits : s.OmitsDefaults omitted := by
    intro name p hp key hkey
    have hmem := Named.mem_of_lookup hp
    simp only [s, List.mem_cons, Prod.mk.injEq, List.not_mem_nil, or_false] at hmem
    rcases hmem with ⟨rfl, rfl⟩ | ⟨rfl, rfl⟩ | ⟨rfl, rfl⟩
    · rcases List.mem_pair.1 hkey with rfl | rfl <;> rfl
    · cases hkey
    · rfl
  obtain ⟨hascending, s', hs', hrestored⟩ := restored_by_parse s omitted homits
  have hnames : (ofTable (s.document omitted)).toOption.map ProfileSet.names =
      some ["", "gate.a", "one-shot"] := by
    decide +kernel
  rw [hs'] at hnames
  exact ⟨homits, hascending, s', hs', Option.some.inj hnames, hrestored⟩

end ProfileSet

end SlotGate
