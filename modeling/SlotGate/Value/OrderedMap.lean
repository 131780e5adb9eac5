/-!
# Maps in ascending order of keys

A map is its list of entries, ascending by a comparison of keys. Insertion keeps the order whatever
the comparison is; no law of the comparison is assumed. A set is a map without values.
-/
namespace SlotGate.Value

/-- `a` stands before `b`: one of the two ways round of comparing them says so. -/
def Before {κ : Type} (compare : κ → κ → Ordering) (a b : κ) : Prop :=
  compare a b = .lt ∨ compare b a = .gt

/-- Each key stands before the next one. -/
inductive Ascending {κ β : Type} (compare : κ → κ → Ordering) : List (κ × β) → Prop where
  | nil : Ascending compare []
  | single (e : κ × β) : Ascending compare [e]
  | cons {a b : κ × β} {rest : List (κ × β)} (first : Before compare a.1 b.1)
      (tail : Ascending compare (b :: rest)) : Ascending compare (a :: b :: rest)

structure OrderedMap (κ β : Type) (compare : κ → κ → Ordering) where
  entries : List (κ × β)
  ascending : Ascending compare entries

namespace OrderedMap

variable {κ β : Type} {compare : κ → κ → Ordering}

def empty : OrderedMap κ β compare := ⟨[], .nil⟩

/-- Puts an entry at its place. An equal key stays as it is and takes the new value. -/
def insertEntry (compare : κ → κ → Ordering) (key : κ) (value : β) : List (κ × β) → List (κ × β)
  | [] => [(key, value)]
  | e :: rest =>
    match compare key e.1 with
    | .lt => (key, value) :: e :: rest
    | .eq => (e.1, value) :: rest
    | .gt => e :: insertEntry compare key value rest

/-- Insertion behind an entry that stands before the new key and before the rest. -/
private theorem ascending_cons_insertEntry {e : κ × β} {l : List (κ × β)} {key : κ} {value : β}
    (h : Ascending compare (e :: l)) (hk : Before compare e.1 key) :
    Ascending compare (e :: insertEntry compare key value l) := by
  induction l generalizing e with
  | nil => exact .cons hk (.single _)
  | cons d rest ih =>
    cases h with
    | cons first tail =>
      unfold insertEntry
      split
      · next hc => exact .cons hk (.cons (.inl hc) tail)
      · next hc =>
        refine .cons first ?_
        cases tail with
        | single => exact .single _
        | cons f t => exact .cons f t
      · next hc => exact .cons first (ih tail (.inr hc))

theorem ascending_insertEntry {l : List (κ × β)} (key : κ) (value : β)
    (h : Ascending compare l) : Ascending compare (insertEntry compare key value l) := by
  cases l with
  | nil => exact .single _
  | cons e rest =>
    unfold insertEntry
    split
    · next hc => exact .cons (.inl hc) h
    · next hc =>
      cases h with
      | single => exact .single _
      | cons f t => exact .cons f t
    · next hc => exact ascending_cons_insertEntry h (.inr hc)

def insert (m : OrderedMap κ β compare) (key : κ) (value : β) : OrderedMap κ β compare :=
  ⟨insertEntry compare key value m.entries, ascending_insertEntry key value m.ascending⟩

/-- The map with these entries; of two values for one key the later one counts. -/
def ofList (entries : List (κ × β)) : OrderedMap κ β compare :=
  entries.foldl (fun m e => m.insert e.1 e.2) empty

def keys (m : OrderedMap κ β compare) : List κ := m.entries.map Prod.fst

end OrderedMap

end SlotGate.Value
