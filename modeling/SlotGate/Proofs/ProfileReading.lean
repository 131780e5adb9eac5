import SlotGate.Profile.Parse
import SlotGate.Proofs.TableOrder

/-!
# What a profile is

A profile is a table whose known keys, where they are there, hold what they should. The readers are
compared with that: what they give is what the table says, and they fail exactly where it says
something else, with the first fault in the order in which the keys are read.
-/
namespace SlotGate

open SlotGate.Toml (Item Table DateTime)

/-- A reader gives exactly the values of `P`, and fails exactly with the faults of `Q`. -/
structure Reads {ε α : Type} (x : Except ε α) (P : α → Prop) (Q : ε → Prop) : Prop where
  ok : ∀ a, x = .ok a ↔ P a
  error : ∀ e, x = .error e ↔ Q e

theorem Reads.of_total {ε α : Type} {x : Except ε α} {P : α → Prop} {Q : ε → Prop}
    (hok : ∀ a, P a → x = .ok a) (herror : ∀ e, Q e → x = .error e)
    (htotal : (∃ a, P a) ∨ ∃ e, Q e) : Reads x P Q := by
  constructor
  case ok =>
    refine fun a => ⟨fun h => ?_, hok a⟩
    rcases htotal with ⟨a', ha⟩ | ⟨e, he⟩
    · cases (hok a' ha).symm.trans h
      exact ha
    · cases (herror e he).symm.trans h
  case error =>
    refine fun e => ⟨fun h => ?_, herror e⟩
    rcases htotal with ⟨a, ha⟩ | ⟨e', he⟩
    · cases (hok a ha).symm.trans h
    · cases (herror e' he).symm.trans h
      exact he

theorem bind_eq_ok_iff {ε α β : Type} {x : Except ε α} {f : α → Except ε β} {b : β} :
    x >>= f = .ok b ↔ ∃ a, x = .ok a ∧ f a = .ok b := by
  cases x with
  | error e => exact ⟨nofun, fun ⟨_, h, _⟩ => nomatch h⟩
  | ok a => exact ⟨fun h => ⟨a, rfl, h⟩, fun ⟨_, h, hf⟩ => by cases h; exact hf⟩

theorem bind_eq_error_iff {ε α β : Type} {x : Except ε α} {f : α → Except ε β} {e : ε} :
    x >>= f = .error e ↔ x = .error e ∨ ∃ a, x = .ok a ∧ f a = .error e := by
  cases x with
  | error e' =>
    refine ⟨fun h => .inl (by cases h; rfl), fun h => ?_⟩
    rcases h with h | ⟨_, h, -⟩
    · cases h; rfl
    · cases h
  | ok a =>
    refine ⟨fun h => .inr ⟨a, rfl, h⟩, fun h => ?_⟩
    rcases h with h | ⟨_, h, hf⟩
    · cases h
    · cases h; exact hf

theorem map_eq_ok_iff {ε α β : Type} {x : Except ε α} {f : α → β} {b : β} :
    x.map f = .ok b ↔ ∃ a, x = .ok a ∧ f a = b := by
  cases x <;> simp [Except.map]

theorem map_eq_error_iff {ε α β : Type} {x : Except ε α} {f : α → β} {e : ε} :
    x.map f = .error e ↔ x = .error e := by
  cases x <;> simp [Except.map]

namespace Named

variable {α : Type} {l : Named α} {name : String}

theorem Ascending.lookup_eq_some_iff (h : l.Ascending) {x : α} :
    l.lookup name = some x ↔ (name, x) ∈ l :=
  ⟨mem_of_lookup, fun hx => lookup_of_mem h.nodup_names hx⟩

end Named

/-! ## Policies -/

def StartsWithDigit (s : String) : Prop := ∃ c rest, s.toList = c :: rest ∧ c.isDigit = true

theorem StartsWithDigit.append {s : String} (h : StartsWithDigit s) (t : String) :
    StartsWithDigit (s ++ t) := by
  obtain ⟨c, rest, hs, hc⟩ := h
  exact ⟨c, rest ++ t.toList, by rw [String.toList_append, hs, List.cons_append], hc⟩

namespace Toml

theorem paddedNumber_startsWithDigit (width n : Nat) : StartsWithDigit (paddedNumber width n) := by
  unfold paddedNumber StartsWithDigit
  rw [String.toList_ofList]
  cases width - (Nat.toDigits 10 n).length with
  | zero =>
    obtain ⟨c, rest, hds⟩ := List.exists_cons_of_ne_nil (Nat.toDigits_ne_nil (n := n) (b := 10))
    have hc : c ∈ Nat.toDigits 10 n := hds ▸ List.mem_cons_self
    exact ⟨c, rest, hds, Nat.isDigit_of_mem_toDigits (by decide) (by decide) hc⟩
  | succ k => exact ⟨'0', _, rfl, by decide⟩

/-- A date or a time is written with a digit first, so no policy has its name. -/
theorem DateTime.write_startsWithDigit (d : DateTime) : StartsWithDigit d.write := by
  have hdate (d : Date) : StartsWithDigit d.write :=
    ((((paddedNumber_startsWithDigit 4 d.year).append _).append _).append _).append _
  cases d with
  | date d => exact hdate d
  | time t => exact (((paddedNumber_startsWithDigit 2 t.hour).append _).append _).append _
  | dateTime d t offset =>
    cases offset with
    | none => exact ((hdate d).append _).append _
    | some offset => exact (((hdate d).append _).append _).append _

end Toml

namespace NullPolicy

/-- A policy is written as its name, or as a table with its name over an empty table. -/
inductive WrittenAs (p : NullPolicy) : Item → Prop where
  | text : WrittenAs p (.text p.text)
  | table : WrittenAs p (.table [(p.text, .table [])])

/-- Why something is not taken for a policy. -/
inductive Refused : Item → PolicyFault → Prop where
  | unknown {name : String} (h : ∀ p : NullPolicy, p.text ≠ name) :
      Refused (.text name) (.unknown name)
  | dateTime (d : DateTime) : Refused (.dateTime d) (.unknown d.write)
  | unknownKey {name : String} (v : Item) (h : ∀ p : NullPolicy, p.text ≠ name) :
      Refused (.table [(name, v)]) (.unknown name)
  | payload (p : NullPolicy) {v : Item} (h : v ≠ .table []) : Refused (.table [(p.text, v)]) (.payload v)
  | notSingle {entries : Table} (h : entries.length ≠ 1) : Refused (.table entries) .notSingle
  | notPolicy {v : Item} (ht : ∀ s, v ≠ .text s) (hd : ∀ d, v ≠ .dateTime d)
      (htable : ∀ entries, v ≠ .table entries) : Refused v (.notPolicy v)

theorem named_text (p : NullPolicy) : named p.text = .ok p := by
  cases p <;> rfl

theorem named_unknown {name : String} (h : ∀ p : NullPolicy, p.text ≠ name) :
    named name = .error (.unknown name) := by
  simp [named, ofText?, (h suppress).symm, (h fire).symm]

theorem isEmptyTable_iff {v : Item} : isEmptyTable v = true ↔ v = .table [] := by
  unfold isEmptyTable
  split
  · simp
  · next h => simpa using h

theorem ofItem_of_writtenAs {p : NullPolicy} {v : Item} (h : p.WrittenAs v) :
    ofItem isEmptyTable v = .ok p := by
  cases h with
  | text => exact named_text p
  | table => simp only [ofItem, named_text]; rfl

theorem text_ne_dateTime (d : DateTime) (p : NullPolicy) : p.text ≠ d.write := by
  intro hp
  obtain ⟨c, rest, hc, hdigit⟩ := d.write_startsWithDigit
  rw [← hp] at hc
  cases p <;> cases hc <;> exact absurd hdigit (by decide)

theorem ofItem_of_refused {v : Item} {fault : PolicyFault} (h : Refused v fault) :
    ofItem isEmptyTable v = .error fault := by
  cases h with
  | unknown h => exact named_unknown h
  | dateTime d => exact named_unknown (text_ne_dateTime d)
  | unknownKey v h => simp only [ofItem, named_unknown h]; rfl
  | payload p h =>
    have hempty : isEmptyTable _ = false := Bool.eq_false_iff.2 fun he => h (isEmptyTable_iff.1 he)
    simp only [ofItem, named_text, hempty]
    rfl
  | @notSingle entries h =>
    match entries with
    | [] => rfl
    | [_] => exact absurd rfl h
    | _ :: _ :: _ => rfl
  | notPolicy ht hd htable =>
    unfold ofItem
    split
    · exact absurd rfl (ht _)
    · exact absurd rfl (hd _)
    · exact absurd rfl (htable _)
    · exact absurd rfl (htable _)
    · rfl

/-- An item is a policy, or there is a reason why it is none. -/
theorem writtenAs_or_refused (v : Item) :
    (∃ p : NullPolicy, p.WrittenAs v) ∨ ∃ fault, Refused v fault := by
  cases v with
  | text s =>
    by_cases h : ∃ p : NullPolicy, p.text = s
    · obtain ⟨p, rfl⟩ := h
      exact .inl ⟨p, .text⟩
    · exact .inr ⟨_, .unknown (not_exists.1 h)⟩
  | dateTime d => exact .inr ⟨_, .dateTime d⟩
  | table entries =>
    match entries with
    | [] => exact .inr ⟨_, .notSingle (by simp)⟩
    | [(name, w)] =>
      by_cases h : ∃ p : NullPolicy, p.text = name
      · obtain ⟨p, rfl⟩ := h
        by_cases hw : w = .table []
        · exact .inl ⟨p, hw ▸ .table⟩
        · exact .inr ⟨_, .payload p hw⟩
      · exact .inr ⟨_, .unknownKey w (not_exists.1 h)⟩
    | _ :: _ :: _ => exact .inr ⟨_, .notSingle (by simp)⟩
  | _ => exact .inr ⟨_, .notPolicy (by simp) (by simp) (by simp)⟩

end NullPolicy

/-! ## Profiles -/

/-- The value of a key that holds a flag: `missing` where the key is not there. -/
inductive FlagUnder (entries : Table) (key : String) (missing : Bool) : Bool → Prop where
  | present {b : Bool} (h : (key, .boolean b) ∈ entries) : FlagUnder entries key missing b
  | absent (h : key ∉ Named.names entries) : FlagUnder entries key missing missing

/-- The value of a key that holds a policy. -/
inductive PolicyUnder (entries : Table) (key : String) (missing : NullPolicy) : NullPolicy → Prop where
  | present {p : NullPolicy} {v : Item} (h : (key, v) ∈ entries) (hp : p.WrittenAs v) :
      PolicyUnder entries key missing p
  | absent (h : key ∉ Named.names entries) : PolicyUnder entries key missing missing

/-- What a table says about a kind of gate: the value of each key, or its default. -/
structure Profile.ReadFrom (entries : Table) (p : Profile) : Prop where
  threadSafe : FlagUnder entries "thread-safe" false p.threadSafe
  oneShot : FlagUnder entries "one-shot" false p.settings.oneShot
  enabled : FlagUnder entries "enabled" true p.settings.enabled
  debug : FlagUnder entries "debug" false p.settings.debug
  nullPolicy : PolicyUnder entries "null-policy" .suppress p.settings.nullPolicy

/-- What is wrong with the value of one key. A key that is not there has no fault. -/
inductive FaultUnder (entries : Table) : ProfileKey → ProfileFault → Prop where
  | flag {key : ProfileKey} {v : Item} (hkey : key ≠ .nullPolicy) (h : (key.text, v) ∈ entries)
      (hv : ∀ b, v ≠ .boolean b) : FaultUnder entries key (.notBoolean key v)
  | policy {v : Item} {fault : PolicyFault} (h : (ProfileKey.nullPolicy.text, v) ∈ entries)
      (hv : NullPolicy.Refused v fault) : FaultUnder entries .nullPolicy (.policy fault)

/-- The first fault of a table in some order of its keys. -/
inductive FirstFault (entries : Table) : List ProfileKey → ProfileFault → Prop where
  | here {key : ProfileKey} {later : List ProfileKey} {fault : ProfileFault}
      (h : FaultUnder entries key fault) : FirstFault entries (key :: later) fault
  | later {key : ProfileKey} {later : List ProfileKey} {fault : ProfileFault}
      (hkey : ∀ f, ¬ FaultUnder entries key f) (h : FirstFault entries later fault) :
      FirstFault entries (key :: later) fault

/-- The order in which the keys of a profile are read. -/
def ProfileKey.readingOrder : List ProfileKey := [.threadSafe, .debug, .enabled, .nullPolicy, .oneShot]

variable {entries : Table}

theorem reads_flagOfTable (h : Named.Ascending entries) {key : ProfileKey} (hkey : key ≠ .nullPolicy)
    (missing : Bool) :
    Reads (flagOfTable entries key missing) (FlagUnder entries key.text missing)
      (FaultUnder entries key) := by
  unfold flagOfTable
  refine .of_total (fun b hb => ?_) (fun fault hfault => ?_) ?_
  · cases hb with
    | present hb => rw [h.lookup_eq_some_iff.2 hb]
    | absent habsent => rw [Named.lookup_eq_none_iff_not_mem.2 habsent]
  · cases hfault with
    | flag _ hv hb =>
      rw [h.lookup_eq_some_iff.2 hv]
      split
      · next heq => cases heq
      · next heq => exact absurd (Option.some.inj heq) (hb _)
      · next heq => cases heq; rfl
    | policy => exact absurd rfl hkey
  · cases hlookup : List.lookup key.text entries with
    | none => exact .inl ⟨missing, .absent (Named.lookup_eq_none_iff_not_mem.1 hlookup)⟩
    | some v =>
      have hv := Named.mem_of_lookup hlookup
      by_cases hb : ∃ b, v = .boolean b
      · obtain ⟨b, rfl⟩ := hb
        exact .inl ⟨b, .present hv⟩
      · exact .inr ⟨_, .flag hkey hv (not_exists.1 hb)⟩

theorem reads_policyOfTable (h : Named.Ascending entries) (missing : NullPolicy) :
    Reads (policyOfTable NullPolicy.isEmptyTable entries missing)
      (PolicyUnder entries "null-policy" missing) (FaultUnder entries .nullPolicy) := by
  unfold policyOfTable
  refine .of_total (fun p hp => ?_) (fun fault hfault => ?_) ?_
  · cases hp with
    | present hv hp =>
      have hsome : List.lookup ProfileKey.nullPolicy.text entries = some _ :=
        h.lookup_eq_some_iff.2 hv
      simp only [hsome, NullPolicy.ofItem_of_writtenAs hp]
      rfl
    | absent habsent =>
      have hnone : List.lookup ProfileKey.nullPolicy.text entries = none :=
        Named.lookup_eq_none_iff_not_mem.2 habsent
      rw [hnone]
  · cases hfault with
    | flag hkey => exact absurd rfl hkey
    | policy hv hrefused =>
      rw [h.lookup_eq_some_iff.2 hv]
      simp only [NullPolicy.ofItem_of_refused hrefused]
      rfl
  · cases hlookup : List.lookup ProfileKey.nullPolicy.text entries with
    | none => exact .inl ⟨missing, .absent (Named.lookup_eq_none_iff_not_mem.1 hlookup)⟩
    | some v =>
      have hv := Named.mem_of_lookup hlookup
      rcases NullPolicy.writtenAs_or_refused v with ⟨p, hp⟩ | ⟨fault, hfault⟩
      · exact .inl ⟨p, .present hv hp⟩
      · exact .inr ⟨_, .policy hv hfault⟩

/-- A reader that goes on with the keys behind one that it has read fails with the first fault. -/
theorem Reads.bind_error {α β : Type} {x : Except ProfileFault α} {P : α → Prop} {key : ProfileKey}
    (hx : Reads x P (FaultUnder entries key)) {f : α → Except ProfileFault β}
    {later : List ProfileKey} (hf : ∀ a fault, f a = .error fault ↔ FirstFault entries later fault)
    (fault : ProfileFault) :
    x >>= f = .error fault ↔ FirstFault entries (key :: later) fault := by
  rw [bind_eq_error_iff]
  constructor
  · rintro (h | ⟨a, ha, h⟩)
    · exact .here ((hx.error _).1 h)
    · refine .later (fun fault' hfault' => ?_) ((hf a _).1 h)
      cases ha.symm.trans ((hx.error _).2 hfault')
  · intro h
    cases h with
    | here h => exact .inl ((hx.error _).2 h)
    | later hkey h =>
      cases hx' : x with
      | error fault' => exact absurd ((hx.error _).1 hx') (hkey fault')
      | ok a => exact .inr ⟨a, rfl, (hf a _).2 h⟩

theorem Settings.ofTable_eq_error_iff (h : Named.Ascending entries) (fault : ProfileFault) :
    Settings.ofTable NullPolicy.isEmptyTable entries = .error fault ↔
      FirstFault entries [.debug, .enabled, .nullPolicy, .oneShot] fault := by
  unfold Settings.ofTable
  refine (reads_flagOfTable h (by decide) _).bind_error (fun debug => ?_) fault
  refine (reads_flagOfTable h (by decide) _).bind_error (fun enabled => ?_)
  refine (reads_policyOfTable h _).bind_error (fun nullPolicy => ?_)
  refine (reads_flagOfTable h (by decide) _).bind_error (fun oneShot => ?_)
  exact fun fault => ⟨nofun, nofun⟩

namespace Profile

theorem ofTable_eq_error_iff (h : Named.Ascending entries) (fault : ProfileFault) :
    ofTable entries = .error fault ↔ FirstFault entries ProfileKey.readingOrder fault := by
  unfold ofTable
  refine (reads_flagOfTable h (by decide) _).bind_error (fun threadSafe fault => ?_) fault
  rw [← Settings.ofTable_eq_error_iff h, bind_eq_error_iff]
  exact or_iff_left nofun

theorem ofTable_eq_ok_iff (h : Named.Ascending entries) (p : Profile) :
    ofTable entries = .ok p ↔ p.ReadFrom entries := by
  unfold ofTable Settings.ofTable
  simp only [bind_eq_ok_iff]
  constructor
  · rintro ⟨threadSafe, ht, s, ⟨debug, hd, enabled, he, policy, hp, oneShot, ho, hs⟩, hprofile⟩
    cases hs
    cases hprofile
    exact ⟨(reads_flagOfTable h (by decide) _).ok _ |>.1 ht,
      (reads_flagOfTable h (by decide) _).ok _ |>.1 ho,
      (reads_flagOfTable h (by decide) _).ok _ |>.1 he,
      (reads_flagOfTable h (by decide) _).ok _ |>.1 hd, (reads_policyOfTable h _).ok _ |>.1 hp⟩
  · intro hp
    exact ⟨_, (reads_flagOfTable h (by decide) _).ok _ |>.2 hp.threadSafe, _,
      ⟨_, (reads_flagOfTable h (by decide) _).ok _ |>.2 hp.debug, _,
        (reads_flagOfTable h (by decide) _).ok _ |>.2 hp.enabled, _,
        (reads_policyOfTable h _).ok _ |>.2 hp.nullPolicy, _,
        (reads_flagOfTable h (by decide) _).ok _ |>.2 hp.oneShot, rfl⟩, rfl⟩

theorem ofItem_eq_ok_iff {v : Item} (h : v.Ascending) (p : Profile) :
    ofItem v = .ok p ↔ ∃ entries, v = .table entries ∧ p.ReadFrom entries := by
  cases h with
  | @table entries order =>
    refine (ofTable_eq_ok_iff order p).trans ⟨fun hp => ⟨entries, rfl, hp⟩, ?_⟩
    rintro ⟨entries', heq, hp⟩
    cases heq
    exact hp
  | _ => exact ⟨nofun, fun ⟨_, heq, _⟩ => nomatch heq⟩

end Profile

/-! ## Documents -/

namespace Named

variable {α : Type} {l : Named α}

/-- The entries with names below or above a name. -/
def below (name : String) (l : Named α) : Named α := l.filter fun e => e.1 < name

def above (name : String) (l : Named α) : Named α := l.filter fun e => name < e.1

theorem mem_below {e : String × α} {name : String} : e ∈ l.below name ↔ e ∈ l ∧ e.1 < name := by
  rw [below, List.mem_filter, decide_eq_true_iff]

theorem mem_above {e : String × α} {name : String} : e ∈ l.above name ↔ e ∈ l ∧ name < e.1 := by
  rw [above, List.mem_filter, decide_eq_true_iff]

theorem below_eq_nil {name : String} (h : ∀ e ∈ l, ¬ e.1 < name) : l.below name = [] :=
  List.eq_nil_iff_forall_not_mem.2 fun e he => h e (mem_below.1 he).1 (mem_below.1 he).2

theorem above_eq_self {name : String} (h : ∀ e ∈ l, name < e.1) : l.above name = l :=
  List.filter_eq_self.2 fun e he => decide_eq_true (h e he)

/-- An ascending list falls in two at a name, and the entry of the name stands between them. -/
theorem Ascending.split (h : l.Ascending) (name : String) :
    l = l.below name ++ ((l.lookup name).elim [] fun x => [(name, x)]) ++ l.above name := by
  induction l with
  | nil => rfl
  | cons e rest ih =>
    obtain ⟨hfirst, hrest⟩ := List.pairwise_cons.1 h
    rcases lt_trichotomy e.1 name with hlt | heq | hgt
    · have hbelow : Named.below name (e :: rest) = e :: Named.below name rest :=
        List.filter_cons_of_pos (decide_eq_true hlt)
      have habove : Named.above name (e :: rest) = Named.above name rest :=
        List.filter_cons_of_neg (by rw [decide_eq_true_iff]; exact lt_asymm hlt)
      rw [hbelow, habove, lookup_cons_of_ne (ne_of_lt hlt), List.cons_append, List.cons_append,
        ← ih hrest]
    · subst heq
      have hbelow : Named.below e.1 (e :: rest) = [] :=
        below_eq_nil (List.forall_mem_cons.2 ⟨lt_irrefl _, fun x hx => lt_asymm (hfirst x hx)⟩)
      have habove : Named.above e.1 (e :: rest) = Named.above e.1 rest :=
        List.filter_cons_of_neg (by rw [decide_eq_true_iff]; exact lt_irrefl _)
      rw [hbelow, habove, above_eq_self hfirst, List.lookup_cons_self]
      simp only [Option.elim, List.nil_append, List.cons_append]
    · have hall : ∀ x ∈ e :: rest, name < x.1 :=
        List.forall_mem_cons.2 ⟨hgt, fun x hx => lt_trans hgt (hfirst x hx)⟩
      have hnone : List.lookup name (e :: rest) = none := by
        refine lookup_eq_none_iff_not_mem.2 fun hmem => ?_
        obtain ⟨x, hx, hname⟩ := List.mem_map.1 hmem
        exact lt_irrefl _ (hname ▸ hall x hx)
      rw [below_eq_nil fun x hx => lt_asymm (hall x hx), above_eq_self hall, hnone]
      rfl

end Named

/-- The profiles of a document: the entries under `gate`. -/
def gatesOf (document : Table) : Table :=
  match List.lookup gateSection document with
  | some (.table gates) => gates
  | _ => []

namespace ProfileSet

/-- The set with a warning for each of some sections. -/
def warn (s : ProfileSet) (sections : List String) : ProfileSet :=
  { s with warnings := s.warnings ++ sections.map .unknownSection }

/-- Sections with other names only give warnings. -/
theorem foldlM_others (s : ProfileSet) (sections : Table)
    (h : ∀ e ∈ sections, e.1 ≠ gateSection) :
    sections.foldlM addSection s = .ok (s.warn (Named.names sections)) := by
  induction sections generalizing s with
  | nil =>
    change Except.ok s = _
    simp [warn, Named.names]
  | cons e rest ih =>
    obtain ⟨he, hrest⟩ := List.forall_mem_cons.1 h
    have hadd : s.addSection e = .ok (s.warn [e.1]) := by
      unfold addSection
      rw [if_pos he]
      rfl
    rw [List.foldlM_cons, hadd]
    refine (ih _ hrest).trans ?_
    simp [warn, Named.names, List.append_assoc]

/-- What is read of what stands under `gate`, if anything does. -/
def addGates (s : ProfileSet) : Option Item → Except ProfileError ProfileSet
  | none => .ok s
  | some (.table gates) => gates.foldlM addProfile s
  | some _ => .error .invalidSection

theorem addSection_gate (s : ProfileSet) (v : Item) :
    s.addSection (gateSection, v) = s.addGates (some v) := by
  unfold addSection
  rw [if_neg (not_not_intro rfl)]
  cases v <;> rfl

/-- What is read of an ascending document: warnings of the sections below `gate`, its profiles, and
warnings of the sections above. -/
theorem ofTable_eq {document : Table} (h : Named.Ascending document) :
    ofTable document =
      (addGates (warn {} (Named.names (Named.below gateSection document)))
        (List.lookup gateSection document)).map
        (warn · (Named.names (Named.above gateSection document))) := by
  have hbelow := foldlM_others {} (Named.below gateSection document)
    fun e he => ne_of_lt (Named.mem_below.1 he).2
  have habove (s : ProfileSet) := foldlM_others s (Named.above gateSection document)
    fun e he => (ne_of_lt (Named.mem_above.1 he).2).symm
  unfold ofTable
  conv_lhs => rw [h.split gateSection]
  rw [List.append_assoc, List.foldlM_append, hbelow]
  change List.foldlM addSection _ _ = _
  cases List.lookup gateSection document with
  | none => exact habove _
  | some v =>
    change List.foldlM addSection _ ((gateSection, v) :: _) = _
    rw [List.foldlM_cons, addSection_gate]
    cases addGates _ (some v) with
    | error e => rfl
    | ok s => exact habove s

theorem parse_result (text : String) :
    (parse text).result =
      match Table.read? text with
      | none => .error .notDocument
      | some document => ofTable document := by
  unfold parse
  cases Table.read? text with
  | none => rfl
  | some document => simp only; cases ofTable document <;> rfl

end ProfileSet

end SlotGate
