/-!
# Lists of named things

Association lists under names, in the two orders that matter here: ascending by name, and by the
moment a name was first put. Nothing in the type keeps names apart; the operations do, and what
relies on it carries the proof. Of two things under one name the first is found.
-/
namespace SlotGate

/-- Things under names, in order. -/
abbrev Named (α : Type) : Type := List (String × α)

namespace Named

variable {α : Type}

def names (l : Named α) : List String := l.map Prod.fst

/-- Puts an entry in front of the first greater name; an equal name gets the new thing. -/
def insertSorted (name : String) (x : α) : Named α → Named α
  | [] => [(name, x)]
  | e :: rest =>
    if name < e.1 then (name, x) :: e :: rest
    else if name = e.1 then (name, x) :: rest
    else e :: insertSorted name x rest

/-- Replaces the thing of a name where it stands; a new name goes to the end. -/
def put (name : String) (x : α) : Named α → Named α
  | [] => [(name, x)]
  | e :: rest => if e.1 = name then (name, x) :: rest else e :: put name x rest

/-- Puts all entries of a list, one after the other. -/
def putAll (l entries : Named α) : Named α := entries.foldl (fun m e => put e.1 e.2 m) l

theorem mem_names {l : Named α} {e : String × α} (h : e ∈ l) : e.1 ∈ l.names :=
  List.mem_map_of_mem h

theorem lookup_cons_of_ne {e : String × α} {name : String} (h : e.1 ≠ name) (rest : Named α) :
    List.lookup name (e :: rest) = rest.lookup name := by
  rw [List.lookup_cons, beq_eq_false_iff_ne.2 h.symm]

theorem lookup_eq_none_iff_not_mem {l : Named α} {name : String} :
    l.lookup name = none ↔ name ∉ l.names := by
  rw [List.lookup_eq_none_iff]
  refine ⟨fun h hmem => ?_, fun h e he => bne_iff_ne.2 fun heq => h (heq ▸ mem_names he)⟩
  obtain ⟨e, he, rfl⟩ := List.mem_map.1 hmem
  exact bne_iff_ne.1 (h e he) rfl

theorem mem_of_lookup {l : Named α} {name : String} {x : α} (h : l.lookup name = some x) :
    (name, x) ∈ l := by
  obtain ⟨before, after, rfl, -⟩ := List.lookup_eq_some_iff.1 h
  exact List.mem_append_right before List.mem_cons_self

theorem lookup_of_mem {l : Named α} (h : l.names.Nodup) {e : String × α} (he : e ∈ l) :
    l.lookup e.1 = some e.2 := by
  induction l with
  | nil => cases he
  | cons first rest ih =>
    obtain ⟨hnew, hrest⟩ := List.nodup_cons.1 h
    rcases List.mem_cons.1 he with rfl | he
    · exact List.lookup_cons_self
    · have hne : first.1 ≠ e.1 := fun heq => hnew (heq ▸ mem_names he)
      rw [lookup_cons_of_ne hne, ih hrest he]

theorem mem_names_put {l : Named α} {name n : String} {x : α} :
    n ∈ names (put name x l) ↔ n = name ∨ n ∈ names l := by
  induction l with
  | nil => simp [put, names]
  | cons e rest ih =>
    unfold put
    split
    · next h => simp [names, h]
    · simp only [names, List.map_cons, List.mem_cons] at ih ⊢
      rw [ih, or_left_comm]

theorem nodup_put {l : Named α} (h : (names l).Nodup) (name : String) (x : α) :
    (names (put name x l)).Nodup := by
  induction l with
  | nil => simp [put, names]
  | cons e rest ih =>
    obtain ⟨hn, hr⟩ := List.nodup_cons.1 h
    unfold put
    split
    · next he => exact List.nodup_cons.2 ⟨he ▸ hn, hr⟩
    · next he =>
      refine List.nodup_cons.2 ⟨fun hm => ?_, ih hr⟩
      rcases mem_names_put.1 hm with heq | hm
      · exact he heq
      · exact hn hm

theorem nodup_putAll {l : Named α} (h : (names l).Nodup) (entries : Named α) :
    (names (putAll l entries)).Nodup := by
  induction entries generalizing l with
  | nil => exact h
  | cons e rest ih => exact ih (nodup_put h e.1 e.2)

end Named

end SlotGate
