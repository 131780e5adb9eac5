/-!
# Binary floating-point numbers

A floating-point number is held by its bits. Decoding gives the integer significand and the power
of two whose product is its value; encoding rounds a quotient of natural numbers to the nearest
number of the format. No arithmetic on such numbers is defined here.
-/
namespace SlotGate.Decimal

/-- An interchange format: one sign bit, then the exponent, then the fraction. -/
structure BinaryFormat where
  exponentBits : Nat
  fractionBits : Nat
  deriving DecidableEq, Repr

def binary32 : BinaryFormat := ⟨8, 23⟩

def binary64 : BinaryFormat := ⟨11, 52⟩

/-- A decoded number. A finite one is `significand * 2 ^ exponent`; `isBoundary` tells that the next
number towards zero is half as far away as the next one away from zero. -/
inductive Binary where
  | nan
  | infinite (negative : Bool)
  | finite (negative : Bool) (significand : Nat) (exponent : Int) (isBoundary : Bool)
  deriving DecidableEq, Repr

namespace BinaryFormat

def exponentBias (f : BinaryFormat) : Nat := Nat.pow 2 (f.exponentBits - 1) - 1

/-- The power of two of the least significant fraction bit of a subnormal number. -/
def leastExponent (f : BinaryFormat) : Int := 1 - (f.exponentBias : Int) - (f.fractionBits : Int)

/-- The exponent field that infinities and NaNs carry. -/
def specialField (f : BinaryFormat) : Nat := Nat.pow 2 f.exponentBits - 1

def decode (f : BinaryFormat) (bits : Nat) : Binary :=
  let fraction := bits % Nat.pow 2 f.fractionBits
  let field := bits / Nat.pow 2 f.fractionBits % Nat.pow 2 f.exponentBits
  let negative := bits / Nat.pow 2 (f.fractionBits + f.exponentBits) % 2 = 1
  if field = f.specialField then
    if fraction = 0 then .infinite negative else .nan
  else if field = 0 then .finite negative fraction f.leastExponent false
  else
    .finite negative (Nat.pow 2 f.fractionBits + fraction) (f.leastExponent + (field - 1 : Nat))
      (fraction = 0 && 1 < field)

def infinityBits (f : BinaryFormat) : Nat := f.specialField * Nat.pow 2 f.fractionBits

/-- The quotient rounded to the nearest natural number, a half to the even one. -/
def roundDiv (num den : Nat) : Nat :=
  let q := num / den
  let r := num % den
  if 2 * r < den then q
  else if den < 2 * r then q + 1
  else if q % 2 = 0 then q else q + 1

/-- The number of the format that is nearest to a natural number, if the exponent had no limit. -/
def roundNat (f : BinaryFormat) (n : Nat) : Nat :=
  let unit := Nat.pow 2 (n.log2 - f.fractionBits)
  roundDiv n unit * unit

/-- The least power of two that is past all finite numbers. -/
def bound (f : BinaryFormat) : Nat := Nat.pow 2 (f.exponentBias + 1)

/-- The bits of the number nearest to `num / den`, without a sign. Rounding can carry into the
exponent field, which is then the right one; past the largest finite number it gives infinity. -/
def encodeQuotient (f : BinaryFormat) (num den : Nat) : Nat :=
  if num = 0 || den = 0 then 0
  else
    let magnitude : Int := (num.log2 : Int) - (den.log2 : Int)
    -- the quotient lies strictly between two powers of two around `magnitude`
    let floorLog : Int :=
      if den * Nat.pow 2 magnitude.toNat ≤ num * Nat.pow 2 (-magnitude).toNat then magnitude
      else magnitude - 1
    let exponent : Int := max f.leastExponent (floorLog - (f.fractionBits : Int))
    let significand :=
      roundDiv (num * Nat.pow 2 (-exponent).toNat) (den * Nat.pow 2 exponent.toNat)
    let field := (exponent - f.leastExponent).toNat
    min (field * Nat.pow 2 f.fractionBits + significand) f.infinityBits

/-- The bits of the NaN that has no payload. -/
def nanBits (f : BinaryFormat) : Nat := f.infinityBits + Nat.pow 2 (f.fractionBits - 1)

/-- The bits of the number nearest to `coefficient * 10 ^ exponent`. Numbers far outside of the
format are settled by the length of the coefficient, without computing the power. -/
def encodeDecimal (f : BinaryFormat) (coefficient : Nat) (exponent : Int) : Nat :=
  let magnitude : Int := exponent + (Nat.toDigits 10 coefficient).length
  if coefficient = 0 || magnitude < f.leastExponent then 0
  else if (f.exponentBias : Int) + 2 < magnitude then f.infinityBits
  else f.encodeQuotient (coefficient * Nat.pow 10 exponent.toNat) (Nat.pow 10 (-exponent).toNat)

/-- The sign bit of the format. -/
def signBit (f : BinaryFormat) : Nat := Nat.pow 2 (f.fractionBits + f.exponentBits)

end BinaryFormat

end SlotGate.Decimal
