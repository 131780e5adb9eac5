/-!
# Which events reach the subscriber

Between a gate and its subscriber stands whatever carries events from one to the other, and a run takes
it as it finds it: results about runs hold for every way of delivering events. The one thing asked of it
is that nothing is kept from a subscriber that was free whenever something came about. What becomes of
events while the subscriber acts is left open, and there the ways differ.
-/
namespace SlotGate

/-- An event that comes about, and in how many reactions the subscriber is at that moment. -/
structure Encounter where
  message : String
  reacting : Nat

/-- Decides whether an event reaches the subscriber, given those that came about before it, the latest
first. -/
structure Dispatch where
  delivers : List Encounter → Encounter → Bool
  /-- A subscriber that was never acting when an event came about has heard them all. -/
  attentive : ∀ (earlier : List Encounter) (message : String),
    (∀ x ∈ earlier, x.reacting = 0) → delivers earlier ⟨message, 0⟩ = true

namespace Dispatch

/-- Nothing reaches a subscriber that acts. What is more, it takes up a message when it first comes
about, and a message that first comes about while it acts is not taken up at all: events with it stay
unheard to the end of the run. The messages `known` came about before the run and are taken up at once. -/
def registering (known : List String) : Dispatch where
  delivers earlier x :=
    x.reacting == 0 && (known.contains x.message ||
      (earlier.reverse.find? fun y => y.message == x.message).all fun y => y.reacting == 0)
  attentive earlier message h := by
    have hfirst : (earlier.reverse.find? fun y => y.message == message).all
        fun y => y.reacting == 0 := by
      cases hfind : earlier.reverse.find? fun y => y.message == message with
      | none => rfl
      | some y => simpa using h y (List.mem_reverse.1 (List.mem_of_find?_eq_some hfind))
    simp [hfirst]

/-- A subscriber can also be told of everything, so that its reactions nest. -/
example : Dispatch := ⟨fun _ _ => true, fun _ _ _ => rfl⟩

end Dispatch

end SlotGate
