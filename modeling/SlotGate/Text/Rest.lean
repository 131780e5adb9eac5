/-!
# What is left of a text

A reader of a part of a text or of a list of tokens gives back what is left, with the proof that it
is shorter; that proof is what lets readers call each other.
-/
namespace SlotGate.Text

/-- What is left of `s` after something was read. -/
abbrev Rest {α : Type} (s : List α) : Type := { r : List α // r.length < s.length }

/-- What is left of `s`, all of it perhaps. -/
abbrev Remaining {α : Type} (s : List α) : Type := { r : List α // r.length ≤ s.length }

theorem dropWhile_length {α : Type} (p : α → Bool) (s : List α) :
    (s.dropWhile p).length ≤ s.length := (List.dropWhile_sublist p).length_le

/-- What is left behind the first elements that have a property. -/
def skip {α : Type} (p : α → Bool) (s : List α) : Remaining s :=
  ⟨s.dropWhile p, dropWhile_length p s⟩

end SlotGate.Text
