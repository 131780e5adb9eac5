import Mathlib.Data.String.Basic
import SlotGate.Toml.Document

/-!
# The order of tables

A table that was read is ascending by key, and so is every table inside it, however its keys came:
under headers, with dots, in braces or as elements of an array of tables. Names are compared by code
point, which is the order of their bytes.
-/
namespace SlotGate

namespace Named

variable {α : Type} {P : α → Prop} {l : Named α} {name : String} {x : α}

/-- The names ascend, so each of them is there once. -/
def Ascending (l : Named α) : Prop := List.Pairwise (fun e e' => e.1 < e'.1) l

/-- The names ascend, and the things under them are all of one kind. -/
structure Deep (P : α → Prop) (l : Named α) : Prop where
  order : l.Ascending
  inside : ∀ e ∈ l, P e.2

theorem Deep.nil : Deep P [] := ⟨.nil, by simp⟩

theorem Ascending.names_lt (h : l.Ascending) : l.names.Pairwise (· < ·) := List.pairwise_map.2 h

theorem Ascending.of_names (h : l.names.Pairwise (· < ·)) : l.Ascending := List.pairwise_map.1 h

theorem Ascending.nodup_names (h : l.Ascending) : l.names.Nodup := h.names_lt.imp ne_of_lt

theorem mem_insertSorted {e : String × α} (h : e ∈ insertSorted name x l) : e = (name, x) ∨ e ∈ l := by
  induction l with
  | nil => exact .inl (List.mem_singleton.1 h)
  | cons y rest ih =>
    unfold insertSorted at h
    split at h
    · exact List.mem_cons.1 h
    · split at h
      · exact (List.mem_cons.1 h).imp_right (List.mem_cons_of_mem _)
      · rcases List.mem_cons.1 h with rfl | h
        · exact .inr List.mem_cons_self
        · exact (ih h).imp_right (List.mem_cons_of_mem _)

theorem Ascending.insertSorted (h : l.Ascending) (name : String) (x : α) :
    (l.insertSorted name x).Ascending := by
  induction l with
  | nil => exact List.pairwise_singleton _ _
  | cons y rest ih =>
    obtain ⟨hy, hrest⟩ := List.pairwise_cons.1 h
    unfold Named.insertSorted
    split
    · next hlt =>
      refine List.pairwise_cons.2 ⟨fun e he => ?_, h⟩
      rcases List.mem_cons.1 he with rfl | he
      · exact hlt
      · exact lt_trans hlt (hy e he)
    · next hge =>
      split
      · next heq => exact List.pairwise_cons.2 ⟨fun e he => heq ▸ hy e he, hrest⟩
      · next hne =>
        refine List.pairwise_cons.2 ⟨fun e he => ?_, ih hrest⟩
        rcases mem_insertSorted he with rfl | he
        · exact lt_of_le_of_ne (not_lt.1 hge) (Ne.symm hne)
        · exact hy e he

theorem Deep.insertSorted (h : l.Deep P) (name : String) (hx : P x) :
    (l.insertSorted name x).Deep P := by
  refine ⟨h.order.insertSorted name x, fun e he => ?_⟩
  rcases mem_insertSorted he with rfl | he
  · exact hx
  · exact h.inside e he

theorem Deep.map {β : Type} {Q : β → Prop} {f : α → β} (h : l.Deep P) (hf : ∀ e ∈ l, Q (f e.2)) :
    Deep Q (l.map fun e => (e.1, f e.2)) := by
  refine ⟨List.pairwise_map.2 h.order, fun e he => ?_⟩
  obtain ⟨e', he', rfl⟩ := List.mem_map.1 he
  exact hf e' he'

end Named

namespace Toml

/-- Every table in a literal is ascending. -/
inductive Literal.Ascending : Literal → Prop where
  | text (s : String) : Ascending (.text s)
  | integer (n : Int) : Ascending (.integer n)
  | float (bits : Option (Value.FloatBits Decimal.binary64)) : Ascending (.float bits)
  | boolean (b : Bool) : Ascending (.boolean b)
  | dateTime (d : DateTime) : Ascending (.dateTime d)
  | array {ls : List Literal} (inside : ∀ l ∈ ls, Ascending l) : Ascending (.array ls)
  | table {entries : Named Literal} (order : entries.Ascending)
      (inside : ∀ e ∈ entries, Ascending e.2) : Ascending (.table entries)

/-- Every table in an item is ascending. -/
inductive Item.Ascending : Item → Prop where
  | text (s : String) : Ascending (.text s)
  | integer (n : Int) : Ascending (.integer n)
  | float (bits : Value.FloatBits Decimal.binary64) : Ascending (.float bits)
  | boolean (b : Bool) : Ascending (.boolean b)
  | dateTime (d : DateTime) : Ascending (.dateTime d)
  | array {items : List Item} (inside : ∀ v ∈ items, Ascending v) : Ascending (.array items)
  | table {entries : Table} (order : Named.Ascending entries)
      (inside : ∀ e ∈ entries, Ascending e.2) : Ascending (.table entries)

/-- Every table of a document is ascending, the document as well. -/
def Table.Ascending (t : Table) : Prop := Named.Deep Item.Ascending t

/-- Every table under construction is ascending. -/
inductive Draft.Ascending : Draft → Prop where
  | value {v : Literal} (inside : v.Ascending) : Ascending (.value v)
  | table (origin : Origin) {entries : Entries} (order : Named.Ascending entries)
      (inside : ∀ e ∈ entries, Ascending e.2) : Ascending (.table origin entries)
  | tables {done : List Entries} {last : Entries} (order : ∀ es ∈ done, Named.Ascending es)
      (inside : ∀ es ∈ done, ∀ e ∈ es, Ascending e.2) (orderLast : Named.Ascending last)
      (insideLast : ∀ e ∈ last, Ascending e.2) : Ascending (.tables done last)

theorem finished_eq (entries : Entries) :
    finished entries = entries.map fun e => (e.1, e.2.literal) := by
  induction entries with
  | nil => rfl
  | cons e rest ih => rw [finished, ih]; rfl

theorem finishedTables_eq (done : List Entries) :
    finishedTables done = done.map fun entries => .table (finished entries) := by
  induction done with
  | nil => rfl
  | cons entries rest ih => rw [finishedTables, ih]; rfl

theorem Draft.literal_ascending {d : Draft} (h : d.Ascending) : d.literal.Ascending := by
  induction h with
  | value inside => exact inside
  | table origin order inside ih =>
    rw [Draft.literal, finished_eq]
    have hdeep := Named.Deep.map ⟨order, inside⟩ ih
    exact .table hdeep.order hdeep.inside
  | @tables done last order inside orderLast insideLast ih ihLast =>
    rw [Draft.literal, finishedTables_eq]
    refine .array fun l hl => ?_
    rcases List.mem_append.1 hl with hl | hl
    · obtain ⟨es, hes, rfl⟩ := List.mem_map.1 hl
      have hdeep := Named.Deep.map ⟨order es hes, inside es hes⟩ (ih es hes)
      rw [finished_eq]
      exact .table hdeep.order hdeep.inside
    · have hdeep := Named.Deep.map ⟨orderLast, insideLast⟩ ihLast
      rw [List.mem_singleton.1 hl, finished_eq]
      exact .table hdeep.order hdeep.inside

theorem finished_ascending {entries : Entries} (h : entries.Deep Draft.Ascending) :
    Named.Deep Literal.Ascending (finished entries) := by
  rw [finished_eq]
  exact h.map fun e he => Draft.literal_ascending (h.inside e he)

namespace Entries

/-- A change that keeps tables ascending keeps them so at the end of any path. -/
theorem within_ascending {dotted : Bool} {change : Origin → Entries → Option Entries}
    (hchange : ∀ origin (es es' : Entries), es.Deep Draft.Ascending → change origin es = some es' →
      es'.Deep Draft.Ascending)
    {path : List String} {origin : Origin} {entries entries' : Entries}
    (h : entries.Deep Draft.Ascending)
    (he : within dotted change path origin entries = some entries') :
    entries'.Deep Draft.Ascending := by
  fun_induction within dotted change path origin entries generalizing entries' with
  | case1 origin entries => exact hchange _ _ _ h he
  | case2 key path _ entries hnone origin =>
    rename_i ih
    obtain ⟨es, hes, rfl⟩ := Option.map_eq_some_iff.1 he
    have hdeep := ih .nil hes
    exact h.insertSorted key (.table _ hdeep.order hdeep.inside)
  | case3 => cases he
  | case4 key path _ entries done last hlookup ih =>
    obtain ⟨es, hes, rfl⟩ := Option.map_eq_some_iff.1 he
    cases h.inside _ (Named.mem_of_lookup hlookup) with
    | tables order inside orderLast insideLast =>
      have hdeep := ih ⟨orderLast, insideLast⟩ hes
      exact h.insertSorted key (.tables order inside hdeep.order hdeep.inside)
  | case5 => cases he
  | case6 key path _ entries origin inner hlookup hnot origin' =>
    rename_i ih
    obtain ⟨es, hes, rfl⟩ := Option.map_eq_some_iff.1 he
    cases h.inside _ (Named.mem_of_lookup hlookup) with
    | table _ order inside =>
      have hdeep := ih ⟨order, inside⟩ hes
      exact h.insertSorted key (.table _ hdeep.order hdeep.inside)

theorem addValue_ascending {path : List String} {key : String} {v : Literal} {origin : Origin}
    {entries entries' : Entries} (h : entries.Deep Draft.Ascending) (hv : v.Ascending)
    (he : addValue path key v origin entries = some entries') : entries'.Deep Draft.Ascending := by
  refine within_ascending (fun origin es es' hes hadd => ?_) h he
  split at hadd
  · cases hadd
  · split at hadd
    · cases hadd
    · cases hadd
      exact hes.insertSorted key (.value hv)

theorem openTable_ascending {path : List String} {key : String} {entries entries' : Entries}
    (h : entries.Deep Draft.Ascending) (he : openTable path key entries = some entries') :
    entries'.Deep Draft.Ascending := by
  refine within_ascending (fun origin es es' hes hopen => ?_) h he
  split at hopen
  · cases hopen
    exact hes.insertSorted key (.table _ .nil (by simp))
  · next hlookup =>
    cases hopen
    cases hes.inside _ (Named.mem_of_lookup hlookup) with
    | table _ order inside => exact hes.insertSorted key (.table _ order inside)
  · cases hopen

theorem openElement_ascending {path : List String} {key : String} {entries entries' : Entries}
    (h : entries.Deep Draft.Ascending) (he : openElement path key entries = some entries') :
    entries'.Deep Draft.Ascending := by
  refine within_ascending (fun origin es es' hes hopen => ?_) h he
  split at hopen
  · cases hopen
    exact hes.insertSorted key (.tables (by simp) (by simp) .nil (by simp))
  · next done last hlookup =>
    cases hopen
    cases hes.inside _ (Named.mem_of_lookup hlookup) with
    | tables order inside orderLast insideLast =>
      refine hes.insertSorted key (.tables ?_ ?_ .nil (by simp))
      · exact List.forall_mem_append.2 ⟨order, List.forall_mem_singleton.2 orderLast⟩
      · exact List.forall_mem_append.2 ⟨inside, List.forall_mem_singleton.2 insideLast⟩
  · cases hopen

end Entries

theorem scalar?_ascending {s : List Char} {v : Literal} (h : scalar? s = some v) : v.Ascending := by
  unfold scalar? at h
  cases hb : boolean? s with
  | some b =>
    simp only [hb, Option.map_some] at h
    cases h
    exact .boolean b
  | none =>
    cases hi : integer? s with
    | some n =>
      simp only [hb, hi, Option.map_some] at h
      cases h
      exact .integer n
    | none =>
      cases hf : float? s with
      | some bits =>
        simp only [hb, hi, hf, Option.map_some] at h
        cases h
        exact .float bits
      | none =>
        simp only [hb, hi, hf, Option.map_none] at h
        obtain ⟨d, -, rfl⟩ := Option.map_eq_some_iff.1 h
        exact .dateTime d

theorem scalarValue_ascending {ts : List Token} {v : Literal} {u : Text.Rest ts}
    (h : scalarValue ts = some (v, u)) : v.Ascending := by
  unfold scalarValue at h
  simp only at h
  split at h
  · cases h
  · next w hw =>
    split at h
    · cases h
      exact scalar?_ascending hw
    · cases h

/-- What is read of lists of tokens with fewer than `n` of them is ascending. -/
structure ReadsAscending (n : Nat) : Prop where
  value : ∀ {ts : List Token} {depth : Nat} {v : Literal} {u : Text.Rest ts}, ts.length < n →
    value depth ts = some (v, u) → v.Ascending
  elements : ∀ {ts : List Token} {depth : Nat} {vs : List Literal} {u : Text.Rest ts},
    ts.length < n → elements depth ts = some (vs, u) → ∀ v ∈ vs, v.Ascending
  members : ∀ {ts : List Token} {depth : Nat} {es es' : Entries} {u : Text.Rest ts},
    ts.length < n → es.Deep Draft.Ascending → members depth es ts = some (es', u) →
    es'.Deep Draft.Ascending

namespace ReadsAscending

variable {n depth : Nat} {ts : List Token}

theorem of_value (h : ReadsAscending n) (hn : ts.length ≤ n) {v : Literal} {u : Text.Rest ts}
    (hv : Toml.value depth ts = some (v, u)) : v.Ascending := by
  unfold Toml.value at hv
  split at hv
  · cases hv
  · cases hv
    exact .text _
  · cases hv
    exact .text _
  · split at hv
    · cases hv
    · split at hv
      · cases hv
      · next vs w hvs =>
        cases hv
        exact .array (h.elements hn hvs)
  · split at hv
    · cases hv
    · split at hv
      · cases hv
      · next es w hes =>
        cases hv
        have hdeep := finished_ascending (h.members hn .nil hes)
        exact .table hdeep.order hdeep.inside
  · exact scalarValue_ascending hv

theorem of_elements (h : ReadsAscending n) (hn : ts.length ≤ n) {vs : List Literal}
    {u : Text.Rest ts} (hvs : Toml.elements depth ts = some (vs, u)) : ∀ v ∈ vs, v.Ascending := by
  unfold Toml.elements at hvs
  split at hvs
  · cases hvs
  · cases hvs
    simp
  · next t r hr _ _ =>
    split at hvs
    · cases hvs
    · next v w hv =>
      have hfirst : v.Ascending := h.of_value (Nat.le_trans hr hn) hv
      split at hvs
      · cases hvs
        simpa using hfirst
      · next s hs _ =>
        have hlt : s.length < n := by
          have hw := w.2
          simp only [List.length_cons] at hs hr hw
          omega
        simp only at hvs
        split at hvs
        · cases hvs
        · next ws x hws =>
          cases hvs
          exact List.forall_mem_cons.2 ⟨hfirst, h.elements hlt hws⟩
      · cases hvs

theorem of_members (h : ReadsAscending n) (hn : ts.length ≤ n) {es es' : Entries} {u : Text.Rest ts}
    (hes : es.Deep Draft.Ascending) (hm : Toml.members depth es ts = some (es', u)) :
    es'.Deep Draft.Ascending := by
  unfold Toml.members at hm
  split at hm
  · cases hm
  · cases hm
    exact hes
  · next t r hr _ _ =>
    split at hm
    · cases hm
    · next k w hk =>
      split at hm
      · cases hm
      · next m hequals =>
        have hlt : m.1.length < n := by
          have hw := w.2
          have hmark := m.2
          omega
        simp only at hm
        split at hm
        · cases hm
        · next v x hv =>
          have hvalue : v.Ascending := h.value hlt hv
          split at hm
          · cases hm
          · next es₁ hadd =>
            have hes₁ := Entries.addValue_ascending hes hvalue hadd
            split at hm
            · cases hm
              exact hes₁
            · next s hs _ =>
              have hlt' : s.length < n := by
                have hx := x.2
                simp only [List.length_cons] at hs
                omega
              split at hm
              · cases hm
              · next es₂ y hes₂ =>
                cases hm
                exact h.members hlt' hes₁ hes₂
            · cases hm

end ReadsAscending

theorem readsAscending (n : Nat) : ReadsAscending n := by
  induction n with
  | zero => exact ⟨fun h => absurd h (Nat.not_lt_zero _), fun h => absurd h (Nat.not_lt_zero _),
      fun h => absurd h (Nat.not_lt_zero _)⟩
  | succ n ih => exact ⟨fun h => ih.of_value (Nat.le_of_lt_succ h),
      fun h => ih.of_elements (Nat.le_of_lt_succ h), fun h => ih.of_members (Nat.le_of_lt_succ h)⟩

theorem value_ascending {ts : List Token} {depth : Nat} {v : Literal} {u : Text.Rest ts}
    (h : value depth ts = some (v, u)) : v.Ascending :=
  (readsAscending (ts.length + 1)).value (Nat.lt_succ_self _) h

/-- What a statement writes is ascending. -/
def Statement.Ascending : Statement → Prop
  | .entry _ v => v.Ascending
  | _ => True

theorem statement_ascending {ts : List Token} {s : Statement} {u : Text.Rest ts}
    (h : statement ts = some (s, u)) : s.Ascending := by
  unfold statement at h
  split at h
  · split at h
    · cases h
    · obtain ⟨_, -, he⟩ := Option.map_eq_some_iff.1 h
      cases he
      trivial
  · split at h
    · cases h
    · obtain ⟨_, -, he⟩ := Option.map_eq_some_iff.1 h
      cases he
      trivial
  · split at h
    · cases h
    · split at h
      · cases h
      · split at h
        · cases h
        · next v w hv =>
          obtain ⟨_, -, he⟩ := Option.map_eq_some_iff.1 h
          cases he
          exact value_ascending hv

theorem statements_ascending {ts : List Token} {ss : List Statement} (h : statements ts = some ss) :
    ∀ s ∈ ss, s.Ascending := by
  fun_induction statements ts generalizing ss with
  | case1 => cases h; simp
  | case2 => cases h
  | case3 ts t r hr hskip s u hs hu ih =>
    obtain ⟨rest, hrest, rfl⟩ := Option.map_eq_some_iff.1 h
    exact List.forall_mem_cons.2 ⟨statement_ascending hs, ih hrest⟩

theorem Reading.add_ascending {r r' : Reading} {s : Statement} (hr : r.entries.Deep Draft.Ascending)
    (hs : s.Ascending) (h : r.add s = some r') : r'.entries.Deep Draft.Ascending := by
  cases s with
  | header path key =>
    obtain ⟨es, hes, rfl⟩ := Option.map_eq_some_iff.1 h
    exact Entries.openTable_ascending hr hes
  | elementHeader path key =>
    obtain ⟨es, hes, rfl⟩ := Option.map_eq_some_iff.1 h
    exact Entries.openElement_ascending hr hes
  | entry k v =>
    obtain ⟨es, hes, rfl⟩ := Option.map_eq_some_iff.1 h
    exact Entries.within_ascending (fun _ _ _ hdeep => Entries.addValue_ascending hdeep hs) hr hes

theorem readTable?_ascending {text : String} {t : Named Literal} (h : readTable? text = some t) :
    t.Deep Literal.Ascending := by
  have hadd : ∀ (ss : List Statement) (r r' : Reading), (∀ s ∈ ss, s.Ascending) →
      r.entries.Deep Draft.Ascending → ss.foldlM Reading.add r = some r' →
      r'.entries.Deep Draft.Ascending := by
    intro ss
    induction ss with
    | nil => intro r r' _ hr he; cases he; exact hr
    | cons s rest ih =>
      intro r r' hss hr he
      obtain ⟨hs, hrest⟩ := List.forall_mem_cons.1 hss
      obtain ⟨r₁, hr₁, he⟩ := Option.bind_eq_some_iff.1 he
      exact ih r₁ r' hrest (Reading.add_ascending hr hs hr₁) he
  unfold readTable? at h
  obtain ⟨ts, -, h⟩ := Option.bind_eq_some_iff.1 h
  obtain ⟨ss, hss, h⟩ := Option.bind_eq_some_iff.1 h
  obtain ⟨r, hr, h⟩ := Option.bind_eq_some_iff.1 h
  cases h
  exact finished_ascending (hadd ss _ r (statements_ascending hss) .nil hr)

namespace Intake

variable (i : Intake)

theorem items?_mem {ls : List Literal} {vs : List Item} (h : i.items? ls = some vs) :
    ∀ v ∈ vs, ∃ l ∈ ls, i.item? l = some v := by
  induction ls generalizing vs with
  | nil =>
    rw [items?] at h
    cases h
    simp
  | cons l rest ih =>
    rw [items?] at h
    obtain ⟨v, hv, h⟩ := Option.bind_eq_some_iff.1 h
    obtain ⟨ws, hws, h⟩ := Option.bind_eq_some_iff.1 h
    cases h
    refine List.forall_mem_cons.2 ⟨⟨l, List.mem_cons_self, hv⟩, fun w hw => ?_⟩
    obtain ⟨k, hk, hkw⟩ := ih hws w hw
    exact ⟨k, List.mem_cons_of_mem _ hk, hkw⟩

/-- An entry of a table of items is an entry of the literals, with the item of its literal. -/
theorem table?_mem {entries : Named Literal} {t : Table} (h : i.table? entries = some t) :
    ∀ e ∈ t, ∃ l, (e.1, l) ∈ entries ∧ i.item? l = some e.2 := by
  induction entries generalizing t with
  | nil =>
    rw [table?] at h
    cases h
    simp
  | cons e rest ih =>
    rw [table?] at h
    obtain ⟨v, hv, h⟩ := Option.bind_eq_some_iff.1 h
    obtain ⟨t', ht', h⟩ := Option.bind_eq_some_iff.1 h
    cases h
    refine List.forall_mem_cons.2 ⟨⟨e.2, List.mem_cons_self, hv⟩, fun x hx => ?_⟩
    obtain ⟨l, hl, hlx⟩ := ih ht' x hx
    exact ⟨l, List.mem_cons_of_mem _ hl, hlx⟩

theorem item?_table {entries : Named Literal} {v : Item} (h : i.item? (.table entries) = some v) :
    (∃ d, v = .dateTime d) ∨ ∃ t : Table, v = .table t ∧ i.table? entries = some t := by
  cases entries with
  | nil =>
    rw [item?] at h
    cases h
    exact .inr ⟨[], rfl, by rw [table?]⟩
  | cons e rest =>
    rw [item?] at h
    split at h
    · obtain ⟨d, -, rfl⟩ := Option.map_eq_some_iff.1 h
      exact .inl ⟨d, rfl⟩
    · obtain ⟨w, hw, h⟩ := Option.bind_eq_some_iff.1 h
      obtain ⟨t, ht, h⟩ := Option.bind_eq_some_iff.1 h
      cases h
      exact .inr ⟨(e.1, w) :: t, rfl, by rw [table?, hw, ht]; rfl⟩

theorem table?_order {entries : Named Literal} {t : Table} (order : entries.Ascending)
    (h : i.table? entries = some t) : Named.Ascending t := by
  induction entries generalizing t with
  | nil =>
    rw [table?] at h
    cases h
    exact .nil
  | cons e rest ih =>
    obtain ⟨hfirst, hlater⟩ := List.pairwise_cons.1 order
    rw [table?] at h
    obtain ⟨v, -, h⟩ := Option.bind_eq_some_iff.1 h
    obtain ⟨t', ht', h⟩ := Option.bind_eq_some_iff.1 h
    cases h
    refine List.pairwise_cons.2 ⟨fun x hx => ?_, ih hlater ht'⟩
    obtain ⟨l, hl, -⟩ := i.table?_mem ht' x hx
    exact hfirst _ hl

theorem table?_deep {entries : Named Literal} {t : Table} (order : entries.Ascending)
    (inside : ∀ e ∈ entries, ∀ v, i.item? e.2 = some v → v.Ascending)
    (h : i.table? entries = some t) : t.Ascending := by
  refine ⟨i.table?_order order h, fun e he => ?_⟩
  obtain ⟨l, hl, hle⟩ := i.table?_mem h e he
  exact inside _ hl _ hle

theorem item?_ascending {l : Literal} (hl : l.Ascending) {v : Item} (h : i.item? l = some v) :
    v.Ascending := by
  induction hl generalizing v with
  | text s => rw [item?] at h; cases h; exact .text s
  | integer n =>
    rw [item?] at h
    split at h
    · cases h; exact .integer n
    · cases h
  | float bits =>
    rw [item?] at h
    obtain ⟨b, -, rfl⟩ := Option.map_eq_some_iff.1 h
    exact .float b
  | boolean b => rw [item?] at h; cases h; exact .boolean b
  | dateTime d => rw [item?] at h; cases h; exact .dateTime d
  | array inside ih =>
    rw [item?] at h
    obtain ⟨vs, hvs, rfl⟩ := Option.map_eq_some_iff.1 h
    refine .array fun w hw => ?_
    obtain ⟨l, hl, hlw⟩ := i.items?_mem hvs w hw
    exact ih l hl hlw
  | table order inside ih =>
    rcases i.item?_table h with ⟨d, rfl⟩ | ⟨t, rfl, ht⟩
    · exact .dateTime d
    · have hdeep := i.table?_deep order (fun e he _ => ih e he) ht
      exact .table hdeep.order hdeep.inside

end Intake

/-- What is read of a text is ascending at every depth. -/
theorem Table.read?_ascending {text : String} {t : Table} (h : Table.read? text = some t) :
    t.Ascending := by
  obtain ⟨entries, hentries, ht⟩ := Option.bind_eq_some_iff.1 h
  have hdeep := readTable?_ascending hentries
  exact Intake.ofItems.table?_deep hdeep.order
    (fun e he _ => Intake.ofItems.item?_ascending (hdeep.inside e he)) ht

end Toml

end SlotGate
