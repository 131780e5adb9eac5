import SlotGate.Decimal.Binary
import SlotGate.Json.Value
import SlotGate.Text.Digits
import SlotGate.Text.Rest

/-!
# Reading JSON texts

The grammar of JSON, with nothing added: no comments, no trailing commas, white space of four kinds.
Nesting is not limited here; that a reader of the data sets a limit is its own affair.
-/
namespace SlotGate.Json

open SlotGate.Text (Rest Remaining skip decimalValue numeral?)

def isSpace (c : Char) : Bool := c = ' ' || c = '\t' || c = '\n' || c = '\r'

/-- Digits, at least one. -/
def digits (s : List Char) : Option (List Char × Rest s) :=
  let r := skip Char.isDigit s
  if h : r.1.length < s.length then some (s.takeWhile Char.isDigit, ⟨r.1, h⟩) else none

/-- The digits before the point: a lone zero, or no zero in front. -/
def wholeDigits (s : List Char) : Option (List Char × Rest s) :=
  match digits s with
  | some ('0' :: _ :: _, _) => none
  | r => r

/-- The digits behind a point, none if there is no point. -/
def fractionDigits (s : List Char) : Option (List Char × Remaining s) :=
  match s with
  | '.' :: r => (digits r).map fun p => (p.1, ⟨p.2.1, Nat.le_succ_of_le (Nat.le_of_lt p.2.2)⟩)
  | s => some ([], ⟨s, Nat.le_refl _⟩)

/-- A signed number behind the letter of the exponent. -/
def signedDigits (s : List Char) : Option (Int × Rest s) :=
  match s with
  | '-' :: r =>
    (digits r).map fun p => (-(decimalValue p.1 : Int), ⟨p.2.1, Nat.lt_succ_of_lt p.2.2⟩)
  | '+' :: r => (digits r).map fun p => (decimalValue p.1, ⟨p.2.1, Nat.lt_succ_of_lt p.2.2⟩)
  | s => (digits s).map fun p => (decimalValue p.1, p.2)

def exponent (s : List Char) : Option (Int × Remaining s) :=
  match s with
  | [] => some (0, ⟨[], Nat.le_refl _⟩)
  | c :: r =>
    if c = 'e' || c = 'E' then
      (signedDigits r).map fun p => (p.1, ⟨p.2.1, Nat.le_succ_of_le (Nat.le_of_lt p.2.2)⟩)
    else some (0, ⟨c :: r, Nat.le_refl _⟩)

/-- The leading digits of a numeral that 64 bits can hold behind the number `n`, and the rest. -/
def leadingDigits (n : Nat) : List Char → Nat × List Char
  | [] => (n, [])
  | c :: rest =>
    let next := 10 * n + decimalValue [c]
    if next < Nat.pow 2 64 then leadingDigits next rest else (n, c :: rest)

/-- Whether a number lies in the range of floating-point numbers, as it is approximated: the leading
digits times a power of ten, both rounded, and the product rounded again. -/
def numberInRange (whole fraction : List Char) (power : Int) : Bool :=
  let (n, beyond) := leadingDigits 0 whole
  let (n, dropped) := leadingDigits n fraction
  let exponent : Int := power + beyond.length - (fraction.length - dropped.length : Nat)
  let format := Decimal.binary64
  n = 0 || exponent < 0 ||
    (exponent ≤ 308 &&
      format.roundNat (format.roundNat n * format.roundNat (Nat.pow 10 exponent.toNat)) <
        format.bound)

/-- A number without its sign. -/
def number (s : List Char) : Option (Value × Rest s) :=
  match wholeDigits s with
  | none => none
  | some (whole, r) =>
    match fractionDigits r.1 with
    | none => none
    | some (fraction, u) =>
      match exponent u.1 with
      | none => none
      | some (power, w) =>
        some (.number (numberInRange whole fraction power),
          ⟨w.1, Nat.lt_of_le_of_lt (Nat.le_trans w.2 u.2) r.2⟩)

/-- The code unit that four hexadecimal digits give. -/
def codeUnit? (a b c d : Char) : Option Nat := numeral? 16 [a, b, c, d]

def isLeading (n : Nat) : Bool := 0xD800 ≤ n && n ≤ 0xDBFF

def isTrailing (n : Nat) : Bool := 0xDC00 ≤ n && n ≤ 0xDFFF

/-- The character of a leading unit with the trailing unit that follows it, if one does. -/
def pairedChar? (lead : Nat) (s : List Char) : Option (Char × Remaining s) :=
  match s with
  | '\\' :: 'u' :: a :: b :: c :: d :: r =>
    match codeUnit? a b c d with
    | some n =>
      if isTrailing n then
        some (Char.ofNat (0x10000 + 1024 * (lead - 0xD800) + (n - 0xDC00)),
          ⟨r, by simp only [List.length_cons]; omega⟩)
      else none
    | none => none
  | _ => none

def plainEscape? (c : Char) : Option Char :=
  [('"', '"'), ('\\', '\\'), ('/', '/'), ('b', '\x08'), ('f', '\x0c'), ('n', '\n'), ('r', '\r'),
    ('t', '\t')].lookup c

/-- What stands behind a backslash: a character, or half a pair. -/
def escape? (s : List Char) : Option (Option Char × Rest s) :=
  match s with
  | 'u' :: a :: b :: c :: d :: r =>
    match codeUnit? a b c d with
    | none => none
    | some n =>
      if isLeading n then
        match pairedChar? n r with
        | some (e, u) =>
          some (some e, ⟨u.1, by have := u.2; simp only [List.length_cons]; omega⟩)
        | none => some (none, ⟨r, by simp only [List.length_cons]; omega⟩)
      else if isTrailing n then some (none, ⟨r, by simp only [List.length_cons]; omega⟩)
      else some (some (Char.ofNat n), ⟨r, by simp only [List.length_cons]; omega⟩)
  | c :: r => (plainEscape? c).map fun e => (some e, ⟨r, by simp⟩)
  | [] => none

/-- A text behind its opening quote. -/
def textBody (s : List Char) : Option (Option (List Char) × Rest s) :=
  match s with
  | [] => none
  | c :: r =>
    if c = '"' then some (some [], ⟨r, by simp⟩)
    else if c = '\\' then
      match escape? r with
      | none => none
      | some (e, u) =>
        match textBody u.1 with
        | none => none
        | some (cs, w) =>
          some ((do return (← e) :: (← cs)), ⟨w.1, Nat.lt_succ_of_lt (Nat.lt_trans w.2 u.2)⟩)
    else if c.toNat < 0x20 then none
    else
      match textBody r with
      | none => none
      | some (cs, w) => some (cs.map (c :: ·), ⟨w.1, Nat.lt_succ_of_lt w.2⟩)
termination_by s.length
decreasing_by
  · exact Nat.lt_succ_of_lt u.2
  · simp

/-- A word that stands for a value. -/
def word (w : String) (v : Value) (s : List Char) : Option (Value × Rest s) :=
  let r := s.drop w.length
  if h : r.length < s.length then
    if s.take w.length = w.toList then some (v, ⟨r, h⟩) else none
  else none

/-- A value that is no text and has no parts. -/
def scalar (s : List Char) : Option (Value × Rest s) :=
  match s with
  | [] => none
  | c :: r =>
    if c = '-' then (number r).map fun p => (p.1, ⟨p.2.1, Nat.lt_succ_of_lt p.2.2⟩)
    else if c.isDigit then number (c :: r)
    else
      word "null" .null (c :: r) <|> word "true" (.bool true) (c :: r) <|>
        word "false" (.bool false) (c :: r)

/-- The rest behind a mark, white space before it. -/
def behind? (mark : Char) (s : List Char) : Option (Rest s) :=
  match skip isSpace s with
  | ⟨[], _⟩ => none
  | ⟨c :: r, h⟩ => if c = mark then some ⟨r, h⟩ else none

/-- A text behind its opening quote, white space and then the quote before it. -/
def key (s : List Char) : Option (Option String × Rest s) :=
  match behind? '"' s with
  | none => none
  | some r =>
    match textBody r.1 with
    | none => none
    | some (cs, u) => some (cs.map String.ofList, ⟨u.1, Nat.lt_trans u.2 r.2⟩)

mutual

/-- A value at the front of a text, white space before it. -/
def value (s : List Char) : Option (Value × Rest s) :=
  match skip isSpace s with
  | ⟨[], _⟩ => none
  | ⟨c :: r, h⟩ =>
    if c = '"' then
      match textBody r with
      | none => none
      | some (cs, u) => some (.text (cs.map String.ofList), ⟨u.1, Nat.lt_trans u.2 h⟩)
    else if c = '[' then
      match behind? ']' r with
      | some u => some (.array [], ⟨u.1, Nat.lt_trans u.2 h⟩)
      | none =>
        match items r with
        | none => none
        | some (vs, u) => some (.array vs, ⟨u.1, Nat.lt_trans u.2 h⟩)
    else if c = '\x7b' then
      match behind? '\x7d' r with
      | some u => some (.object [], ⟨u.1, Nat.lt_trans u.2 h⟩)
      | none =>
        match members r with
        | none => none
        | some (ms, u) => some (.object ms, ⟨u.1, Nat.lt_trans u.2 h⟩)
    else
      match scalar (c :: r) with
      | none => none
      | some (v, u) => some (v, ⟨u.1, Nat.lt_of_lt_of_le u.2 h⟩)
termination_by (s.length, 0)
decreasing_by
  · exact Prod.Lex.left _ _ h
  · exact Prod.Lex.left _ _ h

/-- One or more values with commas between them, up to the closing bracket. -/
def items (s : List Char) : Option (List Value × Rest s) :=
  match value s with
  | none => none
  | some (v, u) =>
    match behind? ',' u.1 with
    | some r =>
      match items r.1 with
      | none => none
      | some (vs, w) => some (v :: vs, ⟨w.1, Nat.lt_trans w.2 (Nat.lt_trans r.2 u.2)⟩)
    | none => (behind? ']' u.1).map fun r => ([v], ⟨r.1, Nat.lt_trans r.2 u.2⟩)
termination_by (s.length, 1)
decreasing_by
  · exact Prod.Lex.right _ (by decide)
  · exact Prod.Lex.left _ _ (Nat.lt_trans r.2 u.2)

/-- One or more members with commas between them, up to the closing brace. -/
def members (s : List Char) : Option (List (Option String × Value) × Rest s) :=
  match key s with
  | none => none
  | some (name, t) =>
    match behind? ':' t.1 with
    | none => none
    | some m =>
      have hm : m.1.length < s.length := Nat.lt_trans m.2 t.2
      match value m.1 with
      | none => none
      | some (v, u) =>
        have hu : u.1.length < s.length := Nat.lt_trans u.2 hm
        match behind? ',' u.1 with
        | some r =>
          match members r.1 with
          | none => none
          | some (ms, w) => some ((name, v) :: ms, ⟨w.1, Nat.lt_trans w.2 (Nat.lt_trans r.2 hu)⟩)
        | none => (behind? '\x7d' u.1).map fun r => ([(name, v)], ⟨r.1, Nat.lt_trans r.2 hu⟩)
termination_by (s.length, 1)
decreasing_by
  · exact Prod.Lex.left _ _ hm
  · exact Prod.Lex.left _ _ (Nat.lt_trans r.2 hu)

end

/-- The value of a whole text. -/
def read? (text : String) : Option Value :=
  match value text.toList with
  | none => none
  | some (v, r) => if r.1.all isSpace then some v else none

end SlotGate.Json
