import SlotGate.Proofs.ProfileContents

/-!
# What no profile is read from

A document can hold sections and keys that mean nothing. They are passed over, whatever stands under
them: taking some of them out takes their warnings out of what is read and does nothing else. This is
an equation of the readers, kept section by section and profile by profile; which keys mean something
is told apart from it, by whether the outcome can depend on the value.
-/
namespace SlotGate

open SlotGate.Toml (Item Table)

/-- Sections, and keys of the profile of a name, that are to be taken out of a document. None of them
means anything. -/
structure Removal where
  sections : String → Bool
  keys : String → String → Bool
  sections_gate : sections "gate" = false
  keys_known : ∀ profile, ∀ key ∈ ["thread-safe", "one-shot", "enabled", "debug", "null-policy"],
    keys profile key = false

/-- The keys of an item that is a table. -/
def Toml.Item.keys : Item → List String
  | .table entries => Named.names entries
  | _ => []

namespace Removal

/-- What is left of the entry of a profile. -/
def profile (r : Removal) (name : String) : Item → Item
  | .table entries => .table (entries.filter fun e => !r.keys name e.1)
  | v => v

/-- What is left of what stands under `gate`. -/
def gates (r : Removal) : Item → Item
  | .table gates => .table (gates.map fun e => (e.1, r.profile e.1 e.2))
  | v => v

/-- What is left of a document. -/
def document (r : Removal) (t : Table) : Table :=
  (t.filter fun e => !r.sections e.1).map fun e =>
    (e.1, if e.1 = gateSection then r.gates e.2 else e.2)

/-- The warnings of what is taken out of a document, one for each section and key. -/
def warnings (r : Removal) (document : Table) : List Warning :=
  ((Named.names document).filter r.sections).map .unknownSection ++
    (gatesOf document).flatMap fun e => (e.2.keys.filter (r.keys e.1)).map (.unknownKey e.1)

/-- Whether a warning is about something that is taken out. -/
def removes (r : Removal) : Warning → Bool
  | .unknownSection name => r.sections name
  | .unknownKey profile key => r.keys profile key

/-- The set without the warnings of what is taken out. -/
def strip (r : Removal) (s : ProfileSet) : ProfileSet :=
  { s with warnings := s.warnings.filter fun w => !r.removes w }

end Removal

/-- Whether what a table says about a kind of gate can depend on the value of a key. -/
def Profile.DependsOn (key : String) : Prop :=
  ∃ t t' : Table, t.Ascending ∧ t'.Ascending ∧
    (∀ n v, n ≠ key → ((n, v) ∈ t ↔ (n, v) ∈ t')) ∧
    Profile.ofItem (.table t) ≠ Profile.ofItem (.table t')

/-! ## Reading what is left -/

namespace Named

variable {α : Type} (keep : String → Bool) (l : Named α)

theorem lookup_filter {name : String} (h : keep name = true) :
    List.lookup name (l.filter fun e => keep e.1) = l.lookup name := by
  induction l with
  | nil => rfl
  | cons e rest ih =>
    by_cases he : keep e.1 = true
    · rw [List.filter_cons, if_pos he, List.lookup_cons, List.lookup_cons, ih]
    · have hne : e.1 ≠ name := fun heq => he (heq ▸ h)
      rw [List.filter_cons, if_neg he, lookup_cons_of_ne hne, ih]

theorem names_filter : names (l.filter fun e => keep e.1) = l.names.filter keep := by
  unfold names
  rw [List.filter_map]
  rfl

end Named

/-- A profile is read through the keys that mean something. -/
theorem Profile.ofTable_congr {t t' : Table}
    (h : ∀ key : ProfileKey, List.lookup key.text t = List.lookup key.text t') :
    Profile.ofTable t = Profile.ofTable t' := by
  simp only [Profile.ofTable, Settings.ofTable, flagOfTable, policyOfTable, h]

/-- A fold whose steps commute with a map of the states commutes with it. -/
theorem foldlM_commutes {ε α S T : Type} {step : S → α → Except ε S} {step' : T → α → Except ε T}
    {f : S → T} (h : ∀ s a, step' (f s) a = (step s a).map f) (l : List α) (s : S) :
    l.foldlM step' (f s) = (l.foldlM step s).map f := by
  induction l generalizing s with
  | nil => rfl
  | cons a rest ih =>
    rw [List.foldlM_cons, List.foldlM_cons, h]
    cases step s a with
    | error e => rfl
    | ok s₁ => exact ih s₁

namespace Removal

variable (r : Removal)

theorem ofItem_profile (name : String) (v : Item) :
    Profile.ofItem (r.profile name v) = Profile.ofItem v := by
  cases v with
  | table entries =>
    refine Profile.ofTable_congr fun key => Named.lookup_filter (fun n => !r.keys name n) entries ?_
    rw [r.keys_known name _ key.text_mem, Bool.not_false]
  | _ => rfl

theorem keyWarnings_profile (name : String) (v : Item) :
    keyWarnings name (r.profile name v) = (keyWarnings name v).filter fun w => !r.removes w := by
  cases v with
  | table entries =>
    have hnames := Named.names_filter (fun key => !r.keys name key) entries
    simp only [profile, keyWarnings, hnames, List.filter_map, List.filter_filter]
    refine congrArg (List.map _) (List.filter_congr fun key _ => ?_)
    exact Bool.and_comm ..
  | _ => rfl

theorem addProfile_strip (s : ProfileSet) (e : String × Item) :
    (r.strip s).addProfile (e.1, r.profile e.1 e.2) = (s.addProfile e).map r.strip := by
  unfold ProfileSet.addProfile
  simp only [ofItem_profile, keyWarnings_profile]
  cases Profile.ofItem e.2 with
  | error fault => rfl
  | ok p => simp only [Except.map, strip, List.filter_append]

theorem addSection_strip (s : ProfileSet) (e : String × Item) :
    (if !r.sections e.1 then
      (r.strip s).addSection (e.1, if e.1 = gateSection then r.gates e.2 else e.2)
    else .ok (r.strip s)) = (s.addSection e).map r.strip := by
  obtain ⟨name, v⟩ := e
  by_cases hgate : name = gateSection
  · subst hgate
    have hstays : r.sections gateSection = false := r.sections_gate
    simp only [hstays, Bool.not_false, if_true, ProfileSet.addSection_gate]
    cases v with
    | table profiles =>
      simp only [gates, ProfileSet.addGates, List.foldlM_map]
      exact foldlM_commutes (f := r.strip) r.addProfile_strip profiles s
    | _ => rfl
  · -- whether the section stays or goes, it has a part in the warnings alone
    have hadd (s : ProfileSet) (v : Item) : s.addSection (name, v) = .ok (s.warn [name]) := by
      unfold ProfileSet.addSection
      rw [if_pos hgate]
      rfl
    simp only [hadd, Except.map]
    cases hname : r.sections name with
    | true => simp [strip, ProfileSet.warn, removes, hname]
    | false => simp [strip, ProfileSet.warn, removes, hname]

/-- What is left of a document is read as the document, less the warnings of what was taken out. -/
theorem ofTable_document (t : Table) :
    ProfileSet.ofTable (r.document t) = (ProfileSet.ofTable t).map r.strip := by
  unfold ProfileSet.ofTable document
  rw [List.foldlM_map, List.foldlM_filter]
  exact foldlM_commutes (f := r.strip) r.addSection_strip t {}

end Removal

/-! ## What is warned of -/

namespace ProfileSet.ReadFrom

variable {document : Table} {s : ProfileSet}

theorem mem_unknownSection (h : s.ReadFrom document) {name : String} :
    .unknownSection name ∈ s.warnings ↔ name ∈ Named.names document ∧ name ≠ gateSection := by
  rw [h.warnings, ne_iff_lt_or_gt]
  simp [and_or_left]

theorem mem_unknownKey (h : s.ReadFrom document) {name key : String} :
    .unknownKey name key ∈ s.warnings ↔
      ∃ v, (name, v) ∈ gatesOf document ∧ key ∈ v.strayKeys := by
  rw [h.warnings]
  simp only [List.mem_append, List.mem_map, List.mem_flatMap, reduceCtorEq, and_false, exists_false,
    false_or, or_false, Warning.unknownKey.injEq]
  constructor
  · rintro ⟨⟨_, v⟩, he, key, hkey, rfl, rfl⟩
    exact ⟨v, he, hkey⟩
  · rintro ⟨v, he, hkey⟩
    exact ⟨(name, v), he, key, hkey, rfl, rfl⟩

end ProfileSet.ReadFrom

theorem Toml.Item.mem_strayKeys {v : Item} {key : String} :
    key ∈ v.strayKeys ↔
      key ∈ v.keys ∧ key ∉ ["thread-safe", "one-shot", "enabled", "debug", "null-policy"] := by
  cases v with
  | table entries => exact List.mem_filter.trans (and_congr_right fun _ => decide_eq_true_iff)
  | _ => simp [strayKeys, keys]

namespace Removal

variable (r : Removal) {document : Table} {s : ProfileSet}

/-- What is taken out is warned of in the document, and its warnings are those that are removed. -/
theorem mem_warnings_iff (h : s.ReadFrom document) (w : Warning) :
    w ∈ r.warnings document ↔ w ∈ s.warnings ∧ r.removes w = true := by
  cases w with
  | unknownSection name =>
    rw [h.mem_unknownSection]
    have hgate (hname : r.sections name = true) : name ≠ gateSection := by
      rintro rfl
      exact Bool.false_ne_true (r.sections_gate.symm.trans hname)
    simp only [warnings, removes, List.mem_append, List.mem_map, List.mem_filter, List.mem_flatMap,
      Warning.unknownSection.injEq, exists_eq_right, reduceCtorEq, and_false, exists_false, or_false]
    exact ⟨fun ⟨hmem, hname⟩ => ⟨⟨hmem, hgate hname⟩, hname⟩, fun ⟨⟨hmem, _⟩, hname⟩ => ⟨hmem, hname⟩⟩
  | unknownKey name key =>
    rw [h.mem_unknownKey]
    have hknown (hkey : r.keys name key = true) :
        key ∉ ["thread-safe", "one-shot", "enabled", "debug", "null-policy"] := fun hmem =>
      Bool.false_ne_true ((r.keys_known name key hmem).symm.trans hkey)
    simp only [warnings, removes, List.mem_append, List.mem_map, List.mem_filter, List.mem_flatMap,
      reduceCtorEq, and_false, exists_false, false_or, Warning.unknownKey.injEq]
    constructor
    · rintro ⟨⟨_, v⟩, he, key, ⟨hkey, hr⟩, rfl, rfl⟩
      exact ⟨⟨v, he, Item.mem_strayKeys.2 ⟨hkey, hknown hr⟩⟩, hr⟩
    · rintro ⟨⟨v, he, hkey⟩, hr⟩
      exact ⟨(name, v), he, key, ⟨(Item.mem_strayKeys.1 hkey).1, hr⟩, rfl, rfl⟩

theorem warnings_strip (h : s.ReadFrom document) :
    (r.strip s).warnings = s.warnings.filter (· ∉ r.warnings document) := by
  refine List.filter_congr fun w hw => ?_
  simp [r.mem_warnings_iff h, hw]

end Removal

/-- The keys that the outcome can depend on are those that are not warned of. -/
theorem Profile.dependsOn_iff (key : String) :
    Profile.DependsOn key ↔
      key ∈ ["thread-safe", "one-shot", "enabled", "debug", "null-policy"] := by
  constructor
  · rintro ⟨t, t', ht, ht', hsame, hne⟩
    by_contra hkey
    refine hne (Profile.ofTable_congr fun known => Option.ext fun v => ?_)
    have hother : known.text ≠ key := fun heq => hkey (heq ▸ known.text_mem)
    rw [ht.order.lookup_eq_some_iff, ht'.order.lookup_eq_some_iff]
    exact hsame _ v hother
  · intro hkey
    -- the empty table against the one with something else than the default under the key
    have hdiffers (v : Item) (hv : v.Ascending)
        (hne : Profile.ofItem (.table []) ≠ Profile.ofItem (.table [(key, v)])) :
        Profile.DependsOn key := by
      refine ⟨[], [(key, v)], .nil, ⟨List.pairwise_singleton _ _, ?_⟩, fun n w hn => ?_, hne⟩
      · exact List.forall_mem_singleton.2 hv
      · simp [hn]
    simp only [List.mem_cons, List.not_mem_nil, or_false] at hkey
    rcases hkey with rfl | rfl | rfl | rfl | rfl
    · exact hdiffers (.boolean true) (.boolean true) nofun
    · exact hdiffers (.boolean true) (.boolean true) nofun
    · exact hdiffers (.boolean false) (.boolean false) nofun
    · exact hdiffers (.boolean true) (.boolean true) nofun
    · exact hdiffers (.text "fire") (.text "fire") nofun

/-- What becomes of the outcome of a document when `r` is taken out of it. -/
structure Removal.PassedOver (r : Removal) (document : Table)
    (result result' : Except ProfileError ProfileSet) : Prop where
  error : ∀ e, result' = .error e ↔ result = .error e
  /-- The profiles stay as they are, in their order. -/
  profiles : ∀ s, result = .ok s → ∃ s', result' = .ok s' ∧ s'.profiles = s.profiles ∧
    s'.warnings = s.warnings.filter (· ∉ r.warnings document)
  /-- Each thing that is taken out was warned of once. -/
  once : ∀ s, result = .ok s → ∀ w ∈ r.warnings document, s.warnings.count w = 1
  /-- A document that has nothing stray left is read without warnings. -/
  all : (∀ name ∈ Named.names document, name ≠ gateSection → r.sections name = true) →
    (∀ e ∈ gatesOf document, ∀ key ∈ e.2.strayKeys, r.keys e.1 key = true) →
    ∀ s', result' = .ok s' → s'.warnings = []
  /-- What is warned of in a profile are the keys that it does not depend on. -/
  warned : ∀ s, result = .ok s → ∀ name key, .unknownKey name key ∈ s.warnings ↔
    ∃ entries, (name, .table entries) ∈ gatesOf document ∧ key ∈ Named.names entries ∧
      ¬ Profile.DependsOn key

theorem Removal.passedOver (r : Removal) {document : Table} (h : document.Ascending) :
    r.PassedOver document (ProfileSet.ofTable document) (ProfileSet.ofTable (r.document document)) := by
  have hread {s : ProfileSet} (hs : ProfileSet.ofTable document = .ok s) : s.ReadFrom document :=
    ProfileSet.readFrom_of_ofTable h hs
  rw [r.ofTable_document]
  constructor
  case error => exact fun e => map_eq_error_iff
  case profiles =>
    intro s hs
    exact ⟨r.strip s, map_eq_ok_iff.2 ⟨s, hs, rfl⟩, rfl, r.warnings_strip (hread hs)⟩
  case once =>
    intro s hs w hw
    exact List.count_eq_one_of_mem (hread hs).once ((r.mem_warnings_iff (hread hs) w).1 hw).1
  case all =>
    intro hsections hkeys s' hs'
    obtain ⟨s, hs, rfl⟩ := map_eq_ok_iff.1 hs'
    refine List.filter_eq_nil_iff.2 fun w hw => ?_
    have hremoved : r.removes w = true := by
      cases w with
      | unknownSection name =>
        obtain ⟨hname, hne⟩ := (hread hs).mem_unknownSection.1 hw
        exact hsections name hname hne
      | unknownKey name key =>
        obtain ⟨v, hv, hkey⟩ := (hread hs).mem_unknownKey.1 hw
        exact hkeys _ hv key hkey
    simp [hremoved]
  case warned =>
    intro s hs name key
    rw [(hread hs).mem_unknownKey]
    constructor
    · rintro ⟨v, hv, hkey⟩
      obtain ⟨hmem, hstray⟩ := Item.mem_strayKeys.1 hkey
      cases v with
      | table entries =>
        exact ⟨entries, hv, hmem, fun hdepends => hstray ((Profile.dependsOn_iff key).1 hdepends)⟩
      | _ => cases hmem
    · rintro ⟨entries, hv, hmem, hnot⟩
      exact ⟨_, hv, Item.mem_strayKeys.2
        ⟨hmem, fun hknown => hnot ((Profile.dependsOn_iff key).2 hknown)⟩⟩

/-- What no profile is read from has no part in the profiles of any ascending table, nor of any two texts
of which one is the other with something taken out. -/
theorem Removal.strays_passed_over (r : Removal) :
    (∀ document : Table, document.Ascending →
      r.PassedOver document (ProfileSet.ofTable document)
        (ProfileSet.ofTable (r.document document))) ∧
    (∀ (text text' : String) (document : Table), Table.read? text = some document →
      Table.read? text' = some (r.document document) →
      r.PassedOver document (ProfileSet.parse text).result (ProfileSet.parse text').result) ∧
    ∀ key, Profile.DependsOn key ↔
      key ∈ ["thread-safe", "one-shot", "enabled", "debug", "null-policy"] := by
  refine ⟨fun document h => r.passedOver h, fun text text' document hread hread' => ?_,
    Profile.dependsOn_iff⟩
  rw [ProfileSet.parse_result, ProfileSet.parse_result, hread, hread']
  exact r.passedOver (Table.read?_ascending hread)

/-- A section and a key are taken out, and another key that means nothing stays. -/
theorem Removal.strays_passed_over_beside_others :
    let r : Removal := {
      sections := fun name => name = "zone"
      keys := fun profile key => profile = "render" && key = "retries"
      sections_gate := by decide
      keys_known := by simp }
    let document : Table := [
      ("gate", .table [("render", .table [("debug", .boolean true),
        ("retries", .array [.integer 3, .table [("delay", .float 0)]]), ("zoom", .integer 2)])]),
      ("zone", .dateTime (.date ⟨2024, 2, 29⟩))]
    let text := "[zone]\n[[gate.render.retries]]\n[gate.render.zoom]\n"
    (∃ s s', ProfileSet.ofTable document = .ok s ∧
      s.warnings =
        [.unknownKey "render" "retries", .unknownKey "render" "zoom", .unknownSection "zone"] ∧
      ProfileSet.ofTable (r.document document) = .ok s' ∧
      s'.warnings = [.unknownKey "render" "zoom"] ∧
      s'.get? "render" = some { settings := { debug := true } } ∧
      r.PassedOver document (ProfileSet.ofTable document) (ProfileSet.ofTable (r.document document))) ∧
    ∃ read, Table.read? text = some read ∧
      Table.read? "[gate.render.zoom]\n" = some (r.document read) ∧
      r.PassedOver read (ProfileSet.parse text).result
        (ProfileSet.parse "[gate.render.zoom]\n").result := by
  intro r document text
  constructor
  · have hdelay : Item.Ascending (.table [("delay", .float 0)]) :=
      .table (List.pairwise_singleton _ _) (List.forall_mem_singleton.2 (.float 0))
    have hrender : Item.Ascending (.table [("debug", .boolean true),
        ("retries", .array [.integer 3, .table [("delay", .float 0)]]), ("zoom", .integer 2)]) :=
      .table (by unfold Named.Ascending; decide +kernel) (List.forall_mem_cons.2 ⟨.boolean true,
        List.forall_mem_cons.2 ⟨.array (List.forall_mem_cons.2 ⟨.integer 3,
          List.forall_mem_singleton.2 hdelay⟩), List.forall_mem_singleton.2 (.integer 2)⟩⟩)
    have hgate : Item.Ascending (.table [("render", _)]) :=
      .table (List.pairwise_singleton _ _) (List.forall_mem_singleton.2 hrender)
    have hascending : document.Ascending :=
      ⟨by unfold Named.Ascending; decide +kernel,
        List.forall_mem_cons.2 ⟨hgate, List.forall_mem_singleton.2 (.dateTime _)⟩⟩
    exact ⟨_, _, rfl, rfl, rfl, rfl, rfl, r.strays_passed_over.1 document hascending⟩
  · let read : Table := [("gate", .table [("render", .table [("retries", .array [.table []]),
      ("zoom", .table [])])]), ("zone", .table [])]
    have hread : Table.read? text = some read := by decide +kernel
    have hread' : Table.read? "[gate.render.zoom]\n" = some (r.document read) := by decide +kernel
    exact ⟨read, hread, hread', r.strays_passed_over.2.1 _ _ _ hread hread'⟩

end SlotGate
