import Mathlib.Data.List.Nodup
import SlotGate.Proofs.ProfileReading

/-!
# What a set of profiles contains

A document that is read without a fault gives the profiles of its table of gates and nothing else, each
with the values that it sets and the defaults of those that it leaves out, and one warning for
everything that was passed over, in the order of the document.
-/
namespace SlotGate

open SlotGate.Toml (Item Table)

namespace Named

variable {α : Type} {l : Named α} {name : String}

theorem put_of_not_mem (h : name ∉ l.names) (x : α) : l.put name x = l ++ [(name, x)] := by
  induction l with
  | nil => rfl
  | cons e rest ih =>
    simp only [names, List.map_cons, List.mem_cons, not_or] at h
    unfold put
    rw [if_neg (Ne.symm h.1), ih h.2, List.cons_append]

end Named

theorem ProfileKey.text_mem (key : ProfileKey) :
    key.text ∈ ["thread-safe", "one-shot", "enabled", "debug", "null-policy"] := by
  cases key <;> decide

/-- The keys of a profile that mean nothing, in the order of its table. -/
def Toml.Item.strayKeys : Item → List String
  | .table entries =>
    (Named.names entries).filter
      (· ∉ ["thread-safe", "one-shot", "enabled", "debug", "null-policy"])
  | _ => []

theorem Toml.Item.Ascending.nodup_strayKeys {v : Item} (h : v.Ascending) : v.strayKeys.Nodup := by
  cases h with
  | table order => exact order.nodup_names.filter _
  | _ => exact List.nodup_nil

theorem keyWarnings_eq (name : String) (v : Item) :
    keyWarnings name v = v.strayKeys.map (.unknownKey name) := by
  have hknown (key : String) : (!ProfileKey.isKnown key) =
      decide (key ∉ ["thread-safe", "one-shot", "enabled", "debug", "null-policy"]) := by
    simp [ProfileKey.isKnown, ProfileKey.all, ProfileKey.text]
  cases v with
  | table entries => simp only [keyWarnings, Item.strayKeys, hknown]
  | _ => rfl

/-- What a document says about kinds of gates. -/
structure ProfileSet.ReadFrom (document : Table) (s : ProfileSet) : Prop where
  /-- What stands under `gate`, if anything does, is the table of the profiles. -/
  section_eq : ∀ v, (gateSection, v) ∈ document → v = .table (gatesOf document)
  absent : gateSection ∉ Named.names document → gatesOf document = []
  names : s.names = Named.names (gatesOf document)
  ascending : s.names.Pairwise (· < ·)
  /-- Each entry under `gate` is a table, and its profile is what the table says. -/
  profiles : ∀ e ∈ gatesOf document, ∃ entries p,
    e.2 = .table entries ∧ s.get? e.1 = some p ∧ p.ReadFrom entries
  /-- Warnings come in the order of the document. -/
  warnings : s.warnings =
    ((Named.names document).filter (· < gateSection)).map .unknownSection ++
      (gatesOf document).flatMap (fun e => e.2.strayKeys.map (.unknownKey e.1)) ++
      ((Named.names document).filter (gateSection < ·)).map .unknownSection
  /-- Nothing is warned of twice. -/
  once : s.warnings.Nodup

namespace ProfileSet

/-- What the entries of a table of gates add to a set: profiles behind those that are there, and
warnings behind those that were given. -/
theorem foldlM_addProfile {gates : Table} {s s' : ProfileSet}
    (hdistinct : (s.names ++ Named.names gates).Nodup) (h : gates.foldlM addProfile s = .ok s') :
    s'.names = s.names ++ Named.names gates ∧ (∀ e ∈ s.profiles, e ∈ s'.profiles) ∧
      (∀ e ∈ gates, ∃ p, Profile.ofItem e.2 = .ok p ∧ (e.1, p) ∈ s'.profiles) ∧
      s'.warnings = s.warnings ++ gates.flatMap fun e => e.2.strayKeys.map (.unknownKey e.1) := by
  induction gates generalizing s with
  | nil =>
    cases h
    simp [Named.names]
  | cons e rest ih =>
    obtain ⟨s₁, hadd, hrest⟩ := bind_eq_ok_iff.1 ((List.foldlM_cons ..).symm.trans h)
    unfold addProfile at hadd
    split at hadd
    · cases hadd
    · next p hp =>
      have hnew : e.1 ∉ s.names := fun hmem =>
        (List.nodup_append.1 hdistinct).2.2 _ hmem _ List.mem_cons_self rfl
      have hput : s₁.profiles = s.profiles ++ [(e.1, p)] := by
        cases hadd
        exact Named.put_of_not_mem hnew p
      have hwarned : s₁.warnings = s.warnings ++ e.2.strayKeys.map (.unknownKey e.1) := by
        cases hadd
        rw [← keyWarnings_eq]
      have hnames : s₁.names = s.names ++ [e.1] := by
        simp only [ProfileSet.names, hput, Named.names, List.map_append, List.map_cons, List.map_nil]
      obtain ⟨hnames', hkept, hread, hwarned'⟩ :=
        ih (by rwa [hnames, List.append_assoc]) hrest
      refine ⟨?_, fun x hx => hkept x ?_, ?_, ?_⟩
      · rw [hnames', hnames, List.append_assoc]
        rfl
      · rw [hput]
        exact List.mem_append_left _ hx
      · refine List.forall_mem_cons.2 ⟨⟨p, hp, hkept _ ?_⟩, hread⟩
        rw [hput]
        exact List.mem_append_right _ (List.mem_singleton_self _)
      · rw [hwarned', hwarned, List.flatMap_cons, List.append_assoc]

/-- The warnings of an ascending document are all different. -/
theorem nodup_warnings {document gates : Table} (hdoc : Named.Ascending document)
    (hgates : Named.Deep Item.Ascending gates) :
    (((Named.names document).filter (· < gateSection)).map Warning.unknownSection ++
      gates.flatMap (fun e => e.2.strayKeys.map (Warning.unknownKey e.1)) ++
      ((Named.names document).filter (gateSection < ·)).map Warning.unknownSection).Nodup := by
  have hsections (p : String → Bool) :
      (((Named.names document).filter p).map Warning.unknownSection).Nodup :=
    (hdoc.nodup_names.filter p).map fun _ _ h => Warning.unknownSection.inj h
  have hkeys : (gates.flatMap fun e => e.2.strayKeys.map (Warning.unknownKey e.1)).Nodup := by
    refine List.nodup_flatMap.2 ⟨fun e he => ?_, hgates.order.imp fun hlt => ?_⟩
    · exact (hgates.inside e he).nodup_strayKeys.map fun _ _ h => (Warning.unknownKey.inj h).2
    · intro w hw hw'
      obtain ⟨key, -, rfl⟩ := List.mem_map.1 hw
      obtain ⟨key', -, heq⟩ := List.mem_map.1 hw'
      exact ne_of_lt hlt (Warning.unknownKey.inj heq).1.symm
  refine List.nodup_append.2 ⟨List.nodup_append.2 ⟨hsections _, hkeys, ?_⟩, hsections _, ?_⟩
  · intro w hw w' hw' heq
    subst heq
    obtain ⟨name, -, rfl⟩ := List.mem_map.1 hw
    obtain ⟨e, -, he⟩ := List.mem_flatMap.1 hw'
    obtain ⟨key, -, heq⟩ := List.mem_map.1 he
    cases heq
  · intro w hw w' hw' heq
    subst heq
    obtain ⟨name, hname, rfl⟩ := List.mem_map.1 hw'
    rcases List.mem_append.1 hw with hw | hw
    · obtain ⟨name', hname', heq⟩ := List.mem_map.1 hw
      cases heq
      have hlt := of_decide_eq_true (List.mem_filter.1 hname).2
      have hlt' := of_decide_eq_true (List.mem_filter.1 hname').2
      exact lt_asymm hlt hlt'
    · obtain ⟨e, -, he⟩ := List.mem_flatMap.1 hw
      obtain ⟨key, -, heq⟩ := List.mem_map.1 he
      cases heq

theorem names_below (document : Table) :
    Named.names (Named.below gateSection document) =
      (Named.names document).filter (· < gateSection) := by
  unfold Named.names Named.below
  rw [List.filter_map]
  rfl

theorem names_above (document : Table) :
    Named.names (Named.above gateSection document) =
      (Named.names document).filter (gateSection < ·) := by
  unfold Named.names Named.above
  rw [List.filter_map]
  rfl

/-- What stands under `gate` in a document that is read without a fault. -/
theorem addGates_ok {document : Table} (h : document.Ascending) {s : ProfileSet} {sections : List String}
    (hs : addGates (warn {} sections) (List.lookup gateSection document) = .ok s) :
    (∀ v, (gateSection, v) ∈ document → v = .table (gatesOf document)) ∧
      (gatesOf document).foldlM addProfile (warn {} sections) = .ok s ∧
      Named.Deep Item.Ascending (gatesOf document) := by
  unfold gatesOf
  cases hv : List.lookup gateSection document with
  | none =>
    rw [hv] at hs
    refine ⟨fun v hmem => ?_, hs, .nil⟩
    exact absurd (Named.mem_names hmem) (Named.lookup_eq_none_iff_not_mem.1 hv)
  | some v =>
    rw [hv] at hs
    have hunique (w : Item) (hw : (gateSection, w) ∈ document) : w = v :=
      Option.some.inj ((h.order.lookup_eq_some_iff.2 hw).symm.trans hv)
    cases v with
    | table gates =>
      refine ⟨hunique, hs, ?_⟩
      cases h.inside _ (Named.mem_of_lookup hv) with
      | table order inside => exact ⟨order, inside⟩
    | _ => cases hs

theorem readFrom_of_ofTable {document : Table} (h : document.Ascending) {s : ProfileSet}
    (hs : ofTable document = .ok s) : s.ReadFrom document := by
  rw [ofTable_eq h.order] at hs
  obtain ⟨s₁, hs₁, rfl⟩ := map_eq_ok_iff.1 hs
  obtain ⟨hsection, hfold, hgates⟩ := addGates_ok h hs₁
  have hdistinct := hgates.order.nodup_names
  obtain ⟨hnames, -, hread, hwarned⟩ := foldlM_addProfile (s := warn {} _) hdistinct hfold
  have hwarnings : (s₁.warn (Named.names (Named.above gateSection document))).warnings =
      ((Named.names document).filter (· < gateSection)).map .unknownSection ++
        (gatesOf document).flatMap (fun e => e.2.strayKeys.map (.unknownKey e.1)) ++
        ((Named.names document).filter (gateSection < ·)).map .unknownSection := by
    rw [← names_below, ← names_above]
    change s₁.warnings ++ _ = _
    rw [hwarned]
    rfl
  have hnames' : s₁.names = Named.names (gatesOf document) := hnames
  have hascending : s₁.names.Pairwise (· < ·) := hnames' ▸ hgates.order.names_lt
  constructor
  case section_eq => exact hsection
  case absent =>
    intro hnone
    unfold gatesOf
    rw [Named.lookup_eq_none_iff_not_mem.2 hnone]
  case names => exact hnames'
  case ascending => exact hascending
  case profiles =>
    intro e he
    obtain ⟨p, hp, hmem⟩ := hread e he
    obtain ⟨entries, heq, hfrom⟩ := (Profile.ofItem_eq_ok_iff (hgates.inside e he) p).1 hp
    exact ⟨entries, p, heq, (Named.Ascending.of_names hascending).lookup_eq_some_iff.2 hmem, hfrom⟩
  case warnings => exact hwarnings
  case once =>
    rw [hwarnings]
    exact nodup_warnings h.order hgates

/-- Whatever is read without a fault, of any ascending table and so of any text, contains what the
document says. -/
theorem contents_of_parse :
    (∀ (document : Table) (s : ProfileSet), document.Ascending → ofTable document = .ok s →
      s.ReadFrom document) ∧
    ∀ (text : String) (s : ProfileSet), (parse text).result = .ok s →
      ∃ document, Table.read? text = some document ∧ document.Ascending ∧ s.ReadFrom document := by
  refine ⟨fun document s h hs => readFrom_of_ofTable h hs, fun text s hs => ?_⟩
  rw [parse_result] at hs
  cases hread : Table.read? text with
  | none =>
    rw [hread] at hs
    cases hs
  | some document =>
    rw [hread] at hs
    have hascending := Table.read?_ascending hread
    exact ⟨document, rfl, hascending, readFrom_of_ofTable hascending hs⟩

/-- One profile with a key that means nothing, between two sections that do neither. -/
theorem contents_of_parse_with_strays :
    let warnings : List Warning :=
      [.unknownSection "alerts", .unknownKey "render" "retries", .unknownSection "zone"]
    let document : Table := [("alerts", .table []),
      ("gate", .table [("render", .table [("debug", .boolean true), ("retries", .integer 3)])]),
      ("zone", .boolean true)]
    let text := "[zone]\n[gate.render.retries]\n[alerts]\n"
    (∃ s : ProfileSet, ofTable document = .ok s ∧ s.warnings = warnings ∧
      s.get? "render" = some { settings := { debug := true } } ∧ s.ReadFrom document) ∧
    ∃ (s : ProfileSet) (read : Table), (parse text).result = .ok s ∧ s.warnings = warnings ∧
      Table.read? text = some read ∧ s.ReadFrom read := by
  intro warnings document text
  constructor
  · let s : ProfileSet :=
      { profiles := [("render", { settings := { debug := true } })]
        warnings := warnings
        nodup_names := by decide }
    have hrender : Item.Ascending (.table [("debug", .boolean true), ("retries", .integer 3)]) :=
      .table (by unfold Named.Ascending; decide +kernel)
        (List.forall_mem_cons.2 ⟨.boolean true, List.forall_mem_singleton.2 (.integer 3)⟩)
    have hgate : Item.Ascending (.table [("render", _)]) :=
      .table (List.pairwise_singleton _ _) (List.forall_mem_singleton.2 hrender)
    have hascending : document.Ascending :=
      ⟨by unfold Named.Ascending; decide +kernel, List.forall_mem_cons.2 ⟨.table .nil (by simp),
        List.forall_mem_cons.2 ⟨hgate, List.forall_mem_singleton.2 (.boolean true)⟩⟩⟩
    exact ⟨s, rfl, rfl, rfl, contents_of_parse.1 document s hascending rfl⟩
  · have hwarnings : (parse text).result.toOption.map ProfileSet.warnings = some warnings := by
      decide +kernel
    cases hs : (parse text).result with
    | error e =>
      rw [hs] at hwarnings
      cases hwarnings
    | ok s =>
      rw [hs] at hwarnings
      obtain ⟨read, hread, -, hfrom⟩ := contents_of_parse.2 text s hs
      exact ⟨s, read, rfl, Option.some.inj hwarnings, hread, hfrom⟩

end ProfileSet

end SlotGate
