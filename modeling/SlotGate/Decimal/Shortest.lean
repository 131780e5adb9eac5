import SlotGate.Decimal.Binary

/-!
# The shortest decimal that reads back

A decimal reads back as a binary number when it lies in the interval of reals that round to that
number; the ends belong to it when the significand is even. The shortest such decimal is found on
the coarsest decimal grid that has a point in the interval. All of it is exact arithmetic on
natural numbers.
-/
namespace SlotGate

/-- The number `coefficient * 10 ^ exponent`. -/
structure Decimal where
  coefficient : Nat
  exponent : Int
  deriving DecidableEq, Repr

namespace Decimal

/-- The reals that round to a positive binary number, all in units of `2 ^ scale`. -/
structure RoundingInterval where
  low : Nat
  value : Nat
  high : Nat
  scale : Int
  closed : Bool
  deriving Repr

namespace RoundingInterval

def ofFinite (significand : Nat) (exponent : Int) (isBoundary : Bool) : RoundingInterval where
  low := 4 * significand - (if isBoundary then 1 else 2)
  value := 4 * significand
  high := 4 * significand + 2
  scale := exponent - 2
  closed := significand % 2 = 0

/-- The number `x * 2 ^ scale` over `10 ^ grid`, as a numerator over `gridUnit`. -/
def overGrid (i : RoundingInterval) (grid : Int) (x : Nat) : Nat :=
  x * Nat.pow 2 i.scale.toNat * Nat.pow 10 (-grid).toNat

def gridUnit (i : RoundingInterval) (grid : Int) : Nat :=
  Nat.pow 2 (-i.scale).toNat * Nat.pow 10 grid.toNat

/-- Whether `g * 10 ^ grid` lies in the interval. -/
def containsPoint (i : RoundingInterval) (grid : Int) (g : Nat) : Bool :=
  let point := g * i.gridUnit grid
  if i.closed then i.overGrid grid i.low ≤ point && point ≤ i.overGrid grid i.high
  else i.overGrid grid i.low < point && point < i.overGrid grid i.high

/-- Of the grid's two points around the value, the one in the interval; of two the nearer, and of
two equally near the larger. -/
def hit? (i : RoundingInterval) (grid : Int) : Option Decimal :=
  let v := i.overGrid grid i.value
  let unit := i.gridUnit grid
  let below := v / unit
  match i.containsPoint grid below, i.containsPoint grid (below + 1) with
  | true, true => some ⟨if 2 * (v % unit) < unit then below else below + 1, grid⟩
  | true, false => some ⟨below, grid⟩
  | false, true => some ⟨below + 1, grid⟩
  | false, false => none

/-- The grids to look at, from one that is coarser than the value to one that the value is on. -/
def grids (i : RoundingInterval) : List Int :=
  let coarsest := (((i.high.log2 : Int) + i.scale) / 3).toNat + 1
  (List.range (coarsest + (-i.scale).toNat + 1)).map fun (k : Nat) => (coarsest : Int) - k

/-- The value itself, which every interval holds. -/
def exact (i : RoundingInterval) : Decimal :=
  ⟨i.value * Nat.pow 2 i.scale.toNat * Nat.pow 5 (-i.scale).toNat, min i.scale 0⟩

def shortest (i : RoundingInterval) : Decimal :=
  (i.grids.findSome? i.hit?).getD i.exact

end RoundingInterval

end Decimal

end SlotGate
