import SlotGate.Decimal.Shortest

/-!
# How a floating-point number is written

The digits are the shortest that read back; a style decides which powers of ten are written out in
places. Every finite number has a point or an exponent, so none is taken for an integer.
-/
namespace SlotGate.Decimal

/-- For which powers of ten of the leading digit a number is written in places. -/
structure Style where
  inPlaces : Int → Bool

/-- The digits of the coefficient, most significant first. -/
def digits (d : Decimal) : List Char := Nat.toDigits 10 d.coefficient

/-- The power of ten of the leading digit. -/
def magnitude (d : Decimal) : Int := d.exponent + (d.digits.length : Int) - 1

/-- The digits with a point at their place, and zeros up to it. -/
def inPlaces (d : Decimal) : List Char :=
  let ds := d.digits
  if 0 ≤ d.exponent then ds ++ List.replicate d.exponent.toNat '0' ++ ['.', '0']
  else
    let places := (-d.exponent).toNat
    let padded := List.replicate (places + 1 - ds.length) '0' ++ ds
    padded.take (padded.length - places) ++ '.' :: padded.drop (padded.length - places)

/-- One digit before the point, the point only if digits follow, then the power of ten. -/
def withExponent (d : Decimal) : List Char :=
  let power := (toString d.magnitude).toList
  match d.digits with
  | [] => 'e' :: power
  | [c] => c :: 'e' :: power
  | c :: cs => c :: '.' :: cs ++ 'e' :: power

/-- No zero at the end of the coefficient. -/
def trimmed (d : Decimal) : Decimal :=
  if h : d.coefficient ≠ 0 ∧ d.coefficient % 10 = 0 then
    trimmed ⟨d.coefficient / 10, d.exponent + 1⟩
  else d
termination_by d.coefficient
decreasing_by exact Nat.div_lt_self (Nat.pos_of_ne_zero h.1) (by decide)

def Style.writeDecimal (s : Style) (d : Decimal) : List Char :=
  let d := d.trimmed
  if s.inPlaces d.magnitude then d.inPlaces else d.withExponent

def Style.write (s : Style) : Binary → String
  | .nan => "NaN"
  | .infinite negative => if negative then "-inf" else "inf"
  | .finite negative significand exponent isBoundary =>
    let body :=
      if significand = 0 then ['0', '.', '0']
      else s.writeDecimal (RoundingInterval.ofFinite significand exponent isBoundary).shortest
    String.ofList (if negative then '-' :: body else body)

end SlotGate.Decimal
