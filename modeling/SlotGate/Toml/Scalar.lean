import SlotGate.Toml.Literal

/-!
# Scalars without quotes

Truth values, numbers, dates and times. Digits may be grouped by single underscores between them; a
decimal number has no zero in front of other digits; only decimal numbers have a sign. Whether a
number fits a width is not asked here.
-/
namespace SlotGate.Toml

open SlotGate.Decimal (binary64)
open SlotGate.Text (decimalValue digitIn? numeral?)

/-- Digits without the underscores that group them: each stands between two digits. -/
def ungrouped? (isDigit : Char → Bool) : List Char → Option (List Char)
  | [] => none
  | [c] => if isDigit c then some [c] else none
  | c :: '_' :: rest => if isDigit c then (ungrouped? isDigit rest).map (c :: ·) else none
  | c :: rest => if isDigit c then (ungrouped? isDigit rest).map (c :: ·) else none

/-- The digits of a decimal integer: a lone zero, or no zero in front. -/
def decimalDigits? (s : List Char) : Option (List Char) :=
  match ungrouped? Char.isDigit s with
  | some ('0' :: _ :: _) => none
  | ds => ds

/-- A sign, and what it stands before. -/
def splitSign : List Char → Bool × List Char
  | '-' :: s => (true, s)
  | '+' :: s => (false, s)
  | s => (false, s)

/-- An integer in a base that is not ten. -/
def baseInteger? (base : Nat) (s : List Char) : Option Int := do
  let ds ← ungrouped? (fun c => (digitIn? base c).isSome) s
  return (← numeral? base ds : Nat)

def integer? (s : List Char) : Option Int :=
  match s with
  | '0' :: 'x' :: ds => baseInteger? 16 ds
  | '0' :: 'o' :: ds => baseInteger? 8 ds
  | '0' :: 'b' :: ds => baseInteger? 2 ds
  | _ =>
    let (negative, ds) := splitSign s
    (decimalDigits? ds).map fun ds =>
      let n : Int := decimalValue ds
      if negative then -n else n

/-- What stands before the first such character, and what stands behind it if there is one. -/
def splitAtFirst (p : Char → Bool) (s : List Char) : List Char × Option (List Char) :=
  match s.dropWhile (!p ·) with
  | [] => (s, none)
  | _ :: rest => (s.takeWhile (!p ·), some rest)

/-- The fraction digits of a mantissa: none without a point, some behind one. -/
def fractionDigits? : Option (List Char) → Option (List Char)
  | none => some []
  | some s => ungrouped? Char.isDigit s

def exponent? : Option (List Char) → Option Int
  | none => some 0
  | some s =>
    let (negative, ds) := splitSign s
    (ungrouped? Char.isDigit ds).map fun ds =>
      let n : Int := decimalValue ds
      if negative then -n else n

def signedBits (negative : Bool) (bits : Nat) : Value.FloatBits binary64 :=
  BitVec.ofNat _ (if negative then binary64.signBit + bits else bits)

/-- A number with a point or an exponent; the bits are missing if it is past the largest one. -/
def finiteFloat? (negative : Bool) (s : List Char) :
    Option (Option (Value.FloatBits binary64)) := do
  let (mantissa, power) := splitAtFirst (fun c => c = 'e' || c = 'E') s
  let (whole, fraction) := splitAtFirst (· = '.') mantissa
  if power.isNone && fraction.isNone then none
  else
    let whole ← decimalDigits? whole
    let fraction ← fractionDigits? fraction
    let power ← exponent? power
    let bits := binary64.encodeDecimal (decimalValue (whole ++ fraction)) (power - fraction.length)
    return if bits = binary64.infinityBits then none else some (signedBits negative bits)

def float? (s : List Char) : Option (Option (Value.FloatBits binary64)) :=
  let (negative, s) := splitSign s
  if s = ['i', 'n', 'f'] then some (signedBits negative binary64.infinityBits)
  else if s = ['n', 'a', 'n'] then some (signedBits negative binary64.nanBits)
  else finiteFloat? negative s

def boolean? (s : List Char) : Option Bool :=
  if s = ['t', 'r', 'u', 'e'] then some true
  else if s = ['f', 'a', 'l', 's', 'e'] then some false
  else none

def scalar? (s : List Char) : Option Literal :=
  (boolean? s).map .boolean <|> (integer? s).map .integer <|> (float? s).map .float <|>
    (DateTime.read? s).map .dateTime

end SlotGate.Toml
