/-!
# Sets of code points

A property of characters is held as the ascending list of its closed ranges, as property tables
are published. The tables themselves stand in one module each; nothing is claimed about them here.
-/
namespace SlotGate.Text

/-- A set of code points, as closed ranges in ascending order. -/
structure CodePoints where
  ranges : List (Nat × Nat)

namespace CodePoints

def contains (s : CodePoints) (c : Char) : Bool :=
  s.ranges.any fun r => r.1 ≤ c.toNat && c.toNat ≤ r.2

end CodePoints

end SlotGate.Text
