import SlotGate.Proofs.ProfileReading

/-!
# Which documents are no sets of profiles

Several faults can stand in one document, in several profiles and under several keys of each. The one
that is reported is told here without the readers: it is that of the smallest name whose entry is no
profile, and there that of the first key in the order in which keys are read.
-/
namespace SlotGate

open SlotGate.Toml (Item Table)

/-- A table that is a profile: what is there under its keys is what should be there. -/
structure Toml.Table.IsProfile (entries : Table) : Prop where
  flags : ∀ key ∈ ["thread-safe", "one-shot", "enabled", "debug"], ∀ v, (key, v) ∈ entries →
    ∃ b, v = .boolean b
  policy : ∀ v, ("null-policy", v) ∈ entries → ∃ p : NullPolicy, p.WrittenAs v

def Toml.Item.IsProfile (v : Item) : Prop := ∃ entries : Table, v = .table entries ∧ entries.IsProfile

/-- The fault that an item has as a profile: that it is no table, or else its first one inside. -/
inductive ItemFault : Item → ProfileFault → Prop where
  | notTable {v : Item} (h : ∀ entries, v ≠ .table entries) : ItemFault v (.notTable v)
  | inside {entries : Table} {fault : ProfileFault}
      (h : FirstFault entries ProfileKey.readingOrder fault) : ItemFault (.table entries) fault

/-- The smallest name in a table of gates whose entry is no profile, and the fault of that entry. -/
structure SmallestFault (gates : Table) (name : String) (fault : ProfileFault) : Prop where
  entry : ∃ v, (name, v) ∈ gates ∧ ItemFault v fault
  smaller : ∀ n v, (n, v) ∈ gates → n < name → v.IsProfile

/-- Items that differ, if at all, in keys of a profile that mean nothing. -/
inductive Toml.Item.Alike : Item → Item → Prop where
  | same (v : Item) : Alike v v
  | tables {entries entries' : Table}
      (h : ∀ (key : ProfileKey) v, (key.text, v) ∈ entries ↔ (key.text, v) ∈ entries') :
      Alike (.table entries) (.table entries')

/-- Two tables of gates have alike entries of a name, or none of them has one. -/
structure AgreeAt (gates gates' : Table) (name : String) : Prop where
  left : ∀ v, (name, v) ∈ gates → ∃ v', (name, v') ∈ gates' ∧ v.Alike v'
  right : ∀ v', (name, v') ∈ gates' → ∃ v, (name, v) ∈ gates ∧ v.Alike v'

/-- Exactly when a document fails, with which error, and what has no part in it. -/
structure FailsExactly (document : Table) (result : Except ProfileError ProfileSet) : Prop where
  fails : (∃ e, result = .error e) ↔
    (∃ v, (gateSection, v) ∈ document ∧ ∀ gates, v ≠ .table gates) ∨
    ∃ gates : Table, (gateSection, .table gates) ∈ document ∧ ∃ e ∈ gates, ¬ e.2.IsProfile
  error : ∀ e, result = .error e ↔
    (e = .invalidSection ∧ ∃ v, (gateSection, v) ∈ document ∧ ∀ gates, v ≠ .table gates) ∨
    ∃ gates name fault, (gateSection, .table gates) ∈ document ∧ SmallestFault gates name fault ∧
      e = .invalidProfile name fault
  /-- Sections other than `gate` have no part in the result. -/
  sections : ∀ other : Table, other.Ascending →
    (∀ v, (gateSection, v) ∈ other ↔ (gateSection, v) ∈ document) →
    ∀ e, ProfileSet.ofTable other = .error e ↔ result = .error e
  /-- Keys that mean nothing have no part in the result. -/
  keys : ∀ (other gates gates' : Table), other.Ascending → (gateSection, .table gates) ∈ document →
    (gateSection, .table gates') ∈ other → (∀ name, AgreeAt gates gates' name) →
    ∀ e, ProfileSet.ofTable other = .error e ↔ result = .error e
  /-- Profiles behind the one that is reported have no part in the error. -/
  later : ∀ (other gates gates' : Table) name fault, other.Ascending →
    (gateSection, .table gates) ∈ document → (gateSection, .table gates') ∈ other →
    (∀ n ≤ name, AgreeAt gates gates' n) → result = .error (.invalidProfile name fault) →
    ProfileSet.ofTable other = .error (.invalidProfile name fault)

variable {entries : Table}

theorem Toml.Table.isProfile_iff :
    entries.IsProfile ↔ ∀ key fault, ¬ FaultUnder entries key fault := by
  constructor
  · intro h key fault hfault
    cases hfault with
    | @flag key v hkey hv hb =>
      have hmem : key.text ∈ ["thread-safe", "one-shot", "enabled", "debug"] := by
        cases key <;> first | exact absurd rfl hkey | decide
      obtain ⟨b, hvb⟩ := h.flags key.text hmem v hv
      exact hb b hvb
    | policy hv hrefused =>
      obtain ⟨p, hp⟩ := h.policy _ hv
      cases (NullPolicy.ofItem_of_writtenAs hp).symm.trans (NullPolicy.ofItem_of_refused hrefused)
  · intro h
    have hflag (key : ProfileKey) (hkey : key ≠ .nullPolicy) (v : Item)
        (hv : (key.text, v) ∈ entries) : ∃ b, v = .boolean b :=
      Classical.byContradiction fun hb => h key _ (.flag hkey hv (not_exists.1 hb))
    refine ⟨?_, fun v hv => ?_⟩
    · simp only [List.forall_mem_cons]
      exact ⟨hflag .threadSafe (by decide), hflag .oneShot (by decide), hflag .enabled (by decide),
        hflag .debug (by decide), by simp⟩
    · rcases NullPolicy.writtenAs_or_refused v with hp | ⟨fault, hfault⟩
      · exact hp
      · exact absurd (.policy hv hfault) (h .nullPolicy _)

theorem exists_firstFault {keys : List ProfileKey} {key : ProfileKey} {fault : ProfileFault}
    (hkey : key ∈ keys) (h : FaultUnder entries key fault) : ∃ fault, FirstFault entries keys fault := by
  induction keys with
  | nil => cases hkey
  | cons first rest ih =>
    by_cases hfirst : ∃ fault, FaultUnder entries first fault
    · obtain ⟨fault', hfault⟩ := hfirst
      exact ⟨fault', .here hfault⟩
    · rcases List.mem_cons.1 hkey with rfl | hkey
      · exact absurd ⟨fault, h⟩ hfirst
      · obtain ⟨fault', hfault⟩ := ih hkey
        exact ⟨fault', .later (not_exists.1 hfirst) hfault⟩

theorem FirstFault.under {keys : List ProfileKey} {fault : ProfileFault}
    (h : FirstFault entries keys fault) : ∃ key, FaultUnder entries key fault := by
  induction h with
  | here h => exact ⟨_, h⟩
  | later _ _ ih => exact ih

/-- An item is a profile, or it has a fault. -/
theorem Toml.Item.not_isProfile_iff (v : Item) : ¬ v.IsProfile ↔ ∃ fault, ItemFault v fault := by
  constructor
  · intro h
    by_cases htable : ∃ entries, v = .table entries
    · obtain ⟨entries, rfl⟩ := htable
      have hentries : ¬ Table.IsProfile entries := fun hp => h ⟨entries, rfl, hp⟩
      simp only [Table.isProfile_iff, not_forall, not_not] at hentries
      obtain ⟨key, fault, hfault⟩ := hentries
      have hkey : key ∈ ProfileKey.readingOrder := by cases key <;> decide
      obtain ⟨first, hfirst⟩ := exists_firstFault hkey hfault
      exact ⟨first, .inside hfirst⟩
    · exact ⟨_, .notTable (not_exists.1 htable)⟩
  · rintro ⟨fault, hfault⟩ ⟨entries, rfl, hp⟩
    cases hfault with
    | notTable h => exact h _ rfl
    | inside h =>
      obtain ⟨key, hunder⟩ := h.under
      exact Table.isProfile_iff.1 hp key fault hunder

theorem Profile.ofItem_eq_error_iff {v : Item} (h : v.Ascending) (fault : ProfileFault) :
    ofItem v = .error fault ↔ ItemFault v fault := by
  cases h with
  | @table entries order =>
    refine (ofTable_eq_error_iff order fault).trans ⟨.inside, fun hfault => ?_⟩
    cases hfault with
    | notTable h => exact absurd rfl (h _)
    | inside h => exact h
  | _ =>
    refine ⟨fun h => ?_, fun h => ?_⟩
    · cases h
      exact .notTable (by simp)
    · cases h
      rfl

theorem Profile.isProfile_of_ofItem {v : Item} (h : v.Ascending) {p : Profile} (hp : ofItem v = .ok p) :
    v.IsProfile := by
  by_contra hnot
  obtain ⟨fault, hfault⟩ := v.not_isProfile_iff.1 hnot
  cases hp.symm.trans ((ofItem_eq_error_iff h fault).2 hfault)

/-- The smallest fault of an ascending table is that of its first entry, or comes later. -/
theorem smallestFault_cons_iff {first : String × Item} {rest : Table} {name : String}
    {fault : ProfileFault} (hfirst : ∀ e ∈ rest, first.1 < e.1) :
    SmallestFault (first :: rest) name fault ↔
      name = first.1 ∧ ItemFault first.2 fault ∨
        first.2.IsProfile ∧ SmallestFault rest name fault := by
  constructor
  · rintro ⟨⟨v, hv, hfault⟩, hsmaller⟩
    rcases List.mem_cons.1 hv with rfl | hv
    · exact .inl ⟨rfl, hfault⟩
    · exact .inr ⟨hsmaller first.1 first.2 List.mem_cons_self (hfirst _ hv),
        ⟨v, hv, hfault⟩, fun n w hw => hsmaller n w (List.mem_cons_of_mem _ hw)⟩
  · rintro (⟨rfl, hfault⟩ | ⟨hprofile, ⟨v, hv, hfault⟩, hsmaller⟩)
    · refine ⟨⟨first.2, List.mem_cons_self, hfault⟩, fun n w hw hlt => ?_⟩
      rcases List.mem_cons.1 hw with rfl | hw
      · exact absurd hlt (lt_irrefl _)
      · exact absurd hlt (lt_asymm (hfirst _ hw))
    · refine ⟨⟨v, List.mem_cons_of_mem _ hv, hfault⟩, fun n w hw hlt => ?_⟩
      rcases List.mem_cons.1 hw with rfl | hw
      · exact hprofile
      · exact hsmaller n w hw hlt

namespace ProfileSet

/-- Reading a table of gates ends at the smallest name whose entry is no profile. -/
theorem foldlM_addProfile_eq_error_iff {gates : Table} (h : Named.Deep Item.Ascending gates)
    (s : ProfileSet) (e : ProfileError) :
    gates.foldlM addProfile s = .error e ↔
      ∃ name fault, SmallestFault gates name fault ∧ e = .invalidProfile name fault := by
  induction gates generalizing s with
  | nil =>
    refine ⟨nofun, ?_⟩
    rintro ⟨name, fault, ⟨⟨v, hv, -⟩, -⟩, -⟩
    cases hv
  | cons first rest ih =>
    obtain ⟨hfirst, horder⟩ := List.pairwise_cons.1 h.order
    obtain ⟨hv, hrest⟩ := List.forall_mem_cons.1 h.inside
    simp only [List.foldlM_cons, bind_eq_error_iff, smallestFault_cons_iff hfirst]
    cases hp : Profile.ofItem first.2 with
    | error fault =>
      have hfault := (Profile.ofItem_eq_error_iff hv fault).1 hp
      have hadd : s.addProfile first = .error (.invalidProfile first.1 fault) := by
        simp only [addProfile, hp]
      have hnot : ¬ first.2.IsProfile := first.2.not_isProfile_iff.2 ⟨fault, hfault⟩
      rw [hadd]
      constructor
      · rintro (h | ⟨s', h, -⟩)
        · cases h
          exact ⟨first.1, fault, .inl ⟨rfl, hfault⟩, rfl⟩
        · cases h
      · rintro ⟨name, fault', ⟨rfl, hfault'⟩ | ⟨hprofile, -⟩, rfl⟩
        · cases hp.symm.trans ((Profile.ofItem_eq_error_iff hv fault').2 hfault')
          exact .inl rfl
        · exact absurd hprofile hnot
    | ok p =>
      have hprofile := Profile.isProfile_of_ofItem hv hp
      obtain ⟨s₁, hadd⟩ : ∃ s₁, s.addProfile first = .ok s₁ := by
        unfold addProfile
        rw [hp]
        exact ⟨_, rfl⟩
      rw [hadd]
      constructor
      · rintro (h | ⟨s', h, hlater⟩)
        · cases h
        · obtain ⟨name, fault, hsmallest, rfl⟩ := (ih ⟨horder, hrest⟩ s').1 hlater
          exact ⟨name, fault, .inr ⟨hprofile, hsmallest⟩, rfl⟩
      · rintro ⟨name, fault, ⟨rfl, hfault⟩ | ⟨-, hsmallest⟩, rfl⟩
        · exact absurd hprofile (first.2.not_isProfile_iff.2 ⟨fault, hfault⟩)
        · exact .inr ⟨s₁, rfl, (ih ⟨horder, hrest⟩ s₁).2 ⟨name, fault, hsmallest, rfl⟩⟩

theorem ofTable_eq_error_iff_of_gates {document gates : Table} (h : document.Ascending)
    (hgates : (gateSection, .table gates) ∈ document) (e : ProfileError) :
    ofTable document = .error e ↔
      ∃ name fault, SmallestFault gates name fault ∧ e = .invalidProfile name fault := by
  have hdeep : Named.Deep Item.Ascending gates := by
    cases h.inside _ hgates with
    | table order inside => exact ⟨order, inside⟩
  rw [ofTable_eq h.order, map_eq_error_iff, h.order.lookup_eq_some_iff.2 hgates]
  exact foldlM_addProfile_eq_error_iff hdeep _ e

theorem ofTable_eq_error_iff {document : Table} (h : document.Ascending) (e : ProfileError) :
    ofTable document = .error e ↔
      (e = .invalidSection ∧ ∃ v, (gateSection, v) ∈ document ∧ ∀ gates, v ≠ .table gates) ∨
      ∃ gates name fault, (gateSection, .table gates) ∈ document ∧ SmallestFault gates name fault ∧
        e = .invalidProfile name fault := by
  by_cases htable : ∃ gates, (gateSection, .table gates) ∈ document
  · obtain ⟨gates, hgates⟩ := htable
    have hunique (v : Item) (hv : (gateSection, v) ∈ document) : v = .table gates :=
      Option.some.inj ((h.order.lookup_eq_some_iff.2 hv).symm.trans
        (h.order.lookup_eq_some_iff.2 hgates))
    rw [ofTable_eq_error_iff_of_gates h hgates]
    constructor
    · rintro ⟨name, fault, hsmallest, rfl⟩
      exact .inr ⟨gates, name, fault, hgates, hsmallest, rfl⟩
    · rintro (⟨-, v, hv, hnot⟩ | ⟨gates', name, fault, hgates', hsmallest, rfl⟩)
      · exact absurd (hunique v hv) (hnot gates)
      · cases hunique _ hgates'
        exact ⟨name, fault, hsmallest, rfl⟩
  · simp only [not_exists] at htable
    rw [ofTable_eq h.order, map_eq_error_iff]
    cases hv : List.lookup gateSection document with
    | none =>
      have habsent := Named.lookup_eq_none_iff_not_mem.1 hv
      refine ⟨nofun, ?_⟩
      rintro (⟨-, v, hv, -⟩ | ⟨gates, _, _, hgates, -⟩)
      · exact absurd (Named.mem_names hv) habsent
      · exact absurd hgates (htable gates)
    | some v =>
      have hmem := Named.mem_of_lookup hv
      have hnot (gates : Table) : v ≠ .table gates := fun heq => htable gates (heq ▸ hmem)
      have hadd : addGates (warn {} (Named.names (Named.below gateSection document))) (some v) =
          .error .invalidSection := by
        cases v with
        | table gates => exact absurd rfl (hnot gates)
        | _ => rfl
      rw [hadd]
      constructor
      · intro he
        cases he
        exact .inl ⟨rfl, v, hmem, hnot⟩
      · rintro (⟨rfl, -⟩ | ⟨gates, _, _, hgates, -⟩)
        · rfl
        · exact absurd hgates (htable gates)

end ProfileSet

/-! ## What has no part in it -/

theorem exists_smallestFault {gates : Table} (h : Named.Ascending gates)
    (hnot : ∃ e ∈ gates, ¬ e.2.IsProfile) : ∃ name fault, SmallestFault gates name fault := by
  induction gates with
  | nil =>
    obtain ⟨e, he, -⟩ := hnot
    cases he
  | cons first rest ih =>
    obtain ⟨hfirst, hrest⟩ := List.pairwise_cons.1 h
    simp only [smallestFault_cons_iff hfirst]
    by_cases hprofile : first.2.IsProfile
    · obtain ⟨e, he, hfault⟩ := hnot
      have hlater : e ∈ rest := by
        rcases List.mem_cons.1 he with rfl | he
        · exact absurd hprofile hfault
        · exact he
      obtain ⟨name, fault, hsmallest⟩ := ih hrest ⟨e, hlater, hfault⟩
      exact ⟨name, fault, .inr ⟨hprofile, hsmallest⟩⟩
    · obtain ⟨fault, hfault⟩ := first.2.not_isProfile_iff.1 hprofile
      exact ⟨first.1, fault, .inl ⟨rfl, hfault⟩⟩

theorem FaultUnder.of_same {entries' : Table} {key : ProfileKey} {fault : ProfileFault}
    (h : ∀ (key : ProfileKey) v, (key.text, v) ∈ entries ↔ (key.text, v) ∈ entries')
    (hfault : FaultUnder entries key fault) : FaultUnder entries' key fault := by
  cases hfault with
  | flag hkey hv hb => exact .flag hkey ((h key _).1 hv) hb
  | policy hv hrefused => exact .policy ((h .nullPolicy _).1 hv) hrefused

theorem FirstFault.of_same {entries' : Table} {keys : List ProfileKey} {fault : ProfileFault}
    (h : ∀ (key : ProfileKey) v, (key.text, v) ∈ entries ↔ (key.text, v) ∈ entries')
    (hfault : FirstFault entries keys fault) : FirstFault entries' keys fault := by
  induction hfault with
  | here hunder => exact .here (hunder.of_same h)
  | later hkey _ ih => exact .later (fun f hf => hkey f (hf.of_same fun key v => (h key v).symm)) ih

namespace Toml.Item.Alike

variable {v w : Item}

theorem symm (h : v.Alike w) : w.Alike v := by
  cases h with
  | same => exact .same v
  | tables h => exact .tables fun key v => (h key v).symm

theorem fault (h : v.Alike w) {fault : ProfileFault} (hv : ItemFault v fault) : ItemFault w fault := by
  cases h with
  | same => exact hv
  | tables h =>
    cases hv with
    | notTable hnot => exact absurd rfl (hnot _)
    | inside hfirst => exact .inside (hfirst.of_same h)

theorem isProfile (h : v.Alike w) (hv : v.IsProfile) : w.IsProfile := by
  by_contra hw
  obtain ⟨fault, hfault⟩ := w.not_isProfile_iff.1 hw
  exact v.not_isProfile_iff.2 ⟨fault, h.symm.fault hfault⟩ hv

end Toml.Item.Alike

/-- The smallest fault is decided by the entries up to its name, and there by the keys that mean
something. -/
theorem SmallestFault.of_agree {gates gates' : Table} {name : String} {fault : ProfileFault}
    (h : SmallestFault gates name fault) (hagree : ∀ n ≤ name, AgreeAt gates gates' n) :
    SmallestFault gates' name fault := by
  obtain ⟨v, hv, hfault⟩ := h.entry
  obtain ⟨v', hv', halike⟩ := (hagree name le_rfl).left v hv
  refine ⟨⟨v', hv', halike.fault hfault⟩, fun n w' hw' hlt => ?_⟩
  obtain ⟨w, hw, halike⟩ := (hagree n (le_of_lt hlt)).right w' hw'
  exact halike.isProfile (h.smaller n w hw hlt)

theorem AgreeAt.symm {gates gates' : Table} {name : String} (h : AgreeAt gates gates' name) :
    AgreeAt gates' gates name := by
  constructor
  · intro v hv
    obtain ⟨w, hw, halike⟩ := h.right v hv
    exact ⟨w, hw, halike.symm⟩
  · intro v hv
    obtain ⟨w, hw, halike⟩ := h.left v hv
    exact ⟨w, hw, halike.symm⟩

theorem smallestFault_iff_of_agree {gates gates' : Table} (h : ∀ name, AgreeAt gates gates' name)
    (name : String) (fault : ProfileFault) :
    SmallestFault gates name fault ↔ SmallestFault gates' name fault :=
  ⟨fun hs => hs.of_agree fun n _ => h n, fun hs => hs.of_agree fun n _ => (h n).symm⟩

namespace ProfileSet

theorem failsExactly_ofTable {document : Table} (h : document.Ascending) :
    FailsExactly document (ofTable document) := by
  constructor
  case error => exact ofTable_eq_error_iff h
  case fails =>
    simp only [ofTable_eq_error_iff h]
    constructor
    · rintro ⟨e, ⟨-, hsection⟩ | ⟨gates, name, fault, hgates, ⟨⟨v, hv, hfault⟩, -⟩, -⟩⟩
      · exact .inl hsection
      · exact .inr ⟨gates, hgates, (name, v), hv, v.not_isProfile_iff.2 ⟨fault, hfault⟩⟩
    · rintro (hsection | ⟨gates, hgates, hnot⟩)
      · exact ⟨_, .inl ⟨rfl, hsection⟩⟩
      · have horder : Named.Ascending gates := by
          cases h.inside _ hgates with
          | table order => exact order
        obtain ⟨name, fault, hsmallest⟩ := exists_smallestFault horder hnot
        exact ⟨_, .inr ⟨gates, name, fault, hgates, hsmallest, rfl⟩⟩
  case sections =>
    intro other hother hsame e
    rw [ofTable_eq_error_iff hother, ofTable_eq_error_iff h]
    simp only [hsame]
  case keys =>
    intro other gates gates' hother hgates hgates' hagree e
    rw [ofTable_eq_error_iff_of_gates hother hgates', ofTable_eq_error_iff_of_gates h hgates]
    simp only [smallestFault_iff_of_agree hagree]
  case later =>
    intro other gates gates' name fault hother hgates hgates' hagree he
    obtain ⟨_, _, hsmallest, heq⟩ := (ofTable_eq_error_iff_of_gates h hgates _).1 he
    cases heq
    exact (ofTable_eq_error_iff_of_gates hother hgates' _).2
      ⟨name, fault, hsmallest.of_agree hagree, rfl⟩

/-- Every ascending table, and so every text that is a document, fails exactly where its gates are no
table of profiles, with the fault of the smallest name. -/
theorem failures_of_parse :
    (∀ document : Table, document.Ascending → FailsExactly document (ofTable document)) ∧
    ∀ (text : String) (document : Table), Table.read? text = some document →
      FailsExactly document (parse text).result := by
  refine ⟨fun document h => failsExactly_ofTable h, fun text document hread => ?_⟩
  rw [parse_result, hread]
  exact failsExactly_ofTable (Table.read?_ascending hread)

/-- Two profiles that are none, and two keys with a fault in the first of them. -/
theorem failures_of_parse_with_rivals :
    let document : Table := [("gate", .table [("a", .table []),
      ("b", .table [("debug", .text "on"), ("thread-safe", .integer 1)]), ("c", .boolean true)])]
    let text := "[gate.c.debug]\n[[gate.b]]\n[gate.a]\n"
    (ofTable document = .error (.invalidProfile "b" (.notBoolean .threadSafe (.integer 1))) ∧
      FailsExactly document (ofTable document)) ∧
    ∃ read : Table, Table.read? text = some read ∧ (parse text).result.toOption.isNone = true ∧
      FailsExactly read (parse text).result := by
  intro document text
  constructor
  · have hb : Item.Ascending (.table [("debug", .text "on"), ("thread-safe", .integer 1)]) :=
      .table (by unfold Named.Ascending; decide +kernel)
        (List.forall_mem_cons.2 ⟨.text "on", List.forall_mem_singleton.2 (.integer 1)⟩)
    have hgates : Item.Ascending (.table [("a", .table []), ("b", _), ("c", .boolean true)]) :=
      .table (by unfold Named.Ascending; decide +kernel)
        (List.forall_mem_cons.2 ⟨.table .nil (by simp),
          List.forall_mem_cons.2 ⟨hb, List.forall_mem_singleton.2 (.boolean true)⟩⟩)
    have hascending : document.Ascending :=
      ⟨List.pairwise_singleton _ _, List.forall_mem_singleton.2 hgates⟩
    exact ⟨rfl, failures_of_parse.1 document hascending⟩
  · have hread : (Table.read? text).isSome = true := by decide +kernel
    obtain ⟨read, hread⟩ := Option.isSome_iff_exists.1 hread
    exact ⟨read, hread, by decide +kernel, failures_of_parse.2 text read hread⟩

end ProfileSet

end SlotGate
