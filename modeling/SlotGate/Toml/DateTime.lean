import SlotGate.Text.Digits
import SlotGate.Toml.Item

/-!
# Dates and times

The written forms of dates, times of day and both together, as they are read and in the one normal
form in which they are shown. A sixtieth second is admitted at any minute.
-/
namespace SlotGate.Toml

open SlotGate.Text (decimalValue)

/-- A number of exactly `n` digits, and the rest. -/
def fixedNumber? (n : Nat) (s : List Char) : Option (Nat × List Char) :=
  let ds := s.take n
  if ds.length = n && ds.all Char.isDigit then some (decimalValue ds, s.drop n) else none

/-- The rest behind a character that has to be there. -/
def expect? (p : Char → Bool) : List Char → Option (List Char)
  | [] => none
  | c :: rest => if p c then some rest else none

namespace Date

def isLeap (year : Nat) : Bool := year % 4 = 0 && (year % 100 ≠ 0 || year % 400 = 0)

def daysIn (year month : Nat) : Nat :=
  if month = 2 then (if isLeap year then 29 else 28)
  else if month = 4 || month = 6 || month = 9 || month = 11 then 30
  else 31

def IsValid (d : Date) : Prop :=
  1 ≤ d.month ∧ d.month ≤ 12 ∧ 1 ≤ d.day ∧ d.day ≤ daysIn d.year d.month

instance (d : Date) : Decidable d.IsValid :=
  inferInstanceAs (Decidable (_ ∧ _ ∧ _ ∧ _))

def read? (s : List Char) : Option (Date × List Char) := do
  let (year, s) ← fixedNumber? 4 s
  let (month, s) ← fixedNumber? 2 (← expect? (· = '-') s)
  let (day, s) ← fixedNumber? 2 (← expect? (· = '-') s)
  let d : Date := ⟨year, month, day⟩
  if d.IsValid then some (d, s) else none

end Date

namespace Time

/-- Nanoseconds of a fraction; digits beyond the ninth are dropped. -/
def nanoseconds (ds : List Char) : Nat :=
  let kept := ds.take 9
  decimalValue kept * Nat.pow 10 (9 - kept.length)

/-- The fraction of a second behind a point, if there is a point. -/
def readFraction? : List Char → Option (Option Nat × List Char)
  | '.' :: s =>
    let ds := s.takeWhile Char.isDigit
    if ds.isEmpty then none else some (some (nanoseconds ds), s.dropWhile Char.isDigit)
  | s => some (none, s)

def readSecond? : List Char → Option (Option (Nat × Option Nat) × List Char)
  | ':' :: s => do
    let (second, s) ← fixedNumber? 2 s
    let (fraction, s) ← readFraction? s
    if second ≤ 60 then some (some (second, fraction), s) else none
  | s => some (none, s)

def read? (s : List Char) : Option (Time × List Char) := do
  let (hour, s) ← fixedNumber? 2 s
  let (minute, s) ← fixedNumber? 2 (← expect? (· = ':') s)
  let (second, s) ← readSecond? s
  if hour ≤ 23 && minute ≤ 59 then some (⟨hour, minute, second⟩, s) else none

end Time

namespace Offset

def read? : List Char → Option (Option Offset × List Char)
  | [] => some (none, [])
  | c :: s =>
    if c = 'Z' || c = 'z' then some (some .zero, s)
    else if c = '+' || c = '-' then do
      let (hours, s) ← fixedNumber? 2 s
      let (rest, s) ← fixedNumber? 2 (← expect? (· = ':') s)
      let n : Int := 60 * hours + rest
      if hours ≤ 23 && rest ≤ 59 then some (some (.minutes (if c = '-' then -n else n)), s)
      else none
    else none

end Offset

namespace DateTime

def isSeparator (c : Char) : Bool := c = 'T' || c = 't' || c = ' '

def readDated? (s : List Char) : Option DateTime := do
  let (d, s) ← Date.read? s
  match s with
  | [] => some (.date d)
  | c :: s =>
    if isSeparator c then do
      let (t, s) ← Time.read? s
      let (offset, s) ← Offset.read? s
      if s.isEmpty then some (.dateTime d t offset) else none
    else none

def readTime? (s : List Char) : Option DateTime := do
  let (t, s) ← Time.read? s
  if s.isEmpty then some (.time t) else none

/-- Reads the whole of a text. -/
def read? (s : List Char) : Option DateTime := readDated? s <|> readTime? s

end DateTime

/-- The digits of a number, with zeros in front up to a width. -/
def paddedNumber (width n : Nat) : String :=
  let ds := Nat.toDigits 10 n
  String.ofList (List.replicate (width - ds.length) '0' ++ ds)

/-- A fraction of a second without zeros at its end, but with one digit at least. -/
def fractionText (nanoseconds : Nat) : String :=
  let ds := ((paddedNumber 9 nanoseconds).toList.reverse.dropWhile (· = '0')).reverse
  String.ofList (if ds.isEmpty then ['0'] else ds)

def Date.write (d : Date) : String :=
  paddedNumber 4 d.year ++ "-" ++ paddedNumber 2 d.month ++ "-" ++ paddedNumber 2 d.day

def Time.write (t : Time) : String :=
  paddedNumber 2 t.hour ++ ":" ++ paddedNumber 2 t.minute ++
    match t.second with
    | none => ""
    | some (second, none) => ":" ++ paddedNumber 2 second
    | some (second, some fraction) => ":" ++ paddedNumber 2 second ++ "." ++ fractionText fraction

def Offset.write : Offset → String
  | zero => "Z"
  | minutes n =>
    (if n < 0 then "-" else "+") ++ paddedNumber 2 (n.natAbs / 60) ++ ":" ++
      paddedNumber 2 (n.natAbs % 60)

def DateTime.write : DateTime → String
  | date d => d.write
  | time t => t.write
  | dateTime d t none => d.write ++ "T" ++ t.write
  | dateTime d t (some offset) => d.write ++ "T" ++ t.write ++ offset.write

end SlotGate.Toml
