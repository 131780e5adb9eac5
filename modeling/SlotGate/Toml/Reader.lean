import SlotGate.Toml.Draft
import SlotGate.Toml.Token

/-!
# Values in a document

Values are read from tokens: quoted texts, scalars, arrays and tables in braces. Inside brackets and
braces, blanks, line ends and comments may stand around every value, key and mark, though not inside
a key, and a comma may stand behind the last part. Nesting is limited; every reader leaves fewer
tokens than it was given.
-/
namespace SlotGate.Toml

open SlotGate.Text (Rest Remaining skip)

/-- How deep arrays and tables in braces may be nested, and how many parts a key may have. -/
def nestingLimit : Nat := 80

def isBlankToken (t : Token) : Bool := t = .space || t = .blank

def isFillerToken (t : Token) : Bool := isBlankToken t || t = .newline || t = .comment

/-- Passes over blanks on a line. -/
def skipBlanks (ts : List Token) : Remaining ts :=
  skip isBlankToken ts

/-- Passes over blanks, line ends and comments. -/
def skipFiller (ts : List Token) : Remaining ts :=
  skip isFillerToken ts

/-- A mark, with such tokens around it. -/
def mark (isAround : Token → Bool) (t : Token) (ts : List Token) : Option (Rest ts) :=
  match skip isAround ts with
  | ⟨[], _⟩ => none
  | ⟨u :: r, hr⟩ =>
    if u = t then
      let s := skip isAround r
      some ⟨s.1, by have := s.2; simp only [List.length_cons] at hr; omega⟩
    else none

def isBareKeyChar (c : Char) : Bool := c.isAlphanum || c = '_' || c = '-'

/-- One part of a key. -/
def keyPart (ts : List Token) : Option (String × Rest ts) :=
  match ts with
  | .quoted s :: r => some (String.ofList s, ⟨r, by simp⟩)
  | .atom s :: r => if s.all isBareKeyChar then some (String.ofList s, ⟨r, by simp⟩) else none
  | _ => none

/-- A key: its parts but the last, and the last one. -/
structure Key where
  path : List String
  last : String

/-- A key of any number of parts with dots between them. -/
def dottedKey (ts : List Token) : Option (Key × Rest ts) :=
  match keyPart ts with
  | none => none
  | some (part, r) =>
    match mark isBlankToken .dot r.1 with
    | none => some (⟨[], part⟩, r)
    | some s =>
      match dottedKey s.1 with
      | none => none
      | some (k, u) =>
        some (⟨part :: k.path, k.last⟩,
          ⟨u.1, Nat.lt_trans u.2 (Nat.lt_trans s.2 r.2)⟩)
termination_by ts.length
decreasing_by exact Nat.lt_trans s.2 r.2

/-- A key with as many parts as are allowed. -/
def key (ts : List Token) : Option (Key × Rest ts) :=
  (dottedKey ts).filter fun p => p.1.path.length < nestingLimit

/-- The text of the atoms and dots at the front. -/
def scalarText (ts : List Token) : List Char × Remaining ts :=
  match ts with
  | .atom s :: r =>
    let (t, u) := scalarText r
    (s ++ t, ⟨u.1, Nat.le_succ_of_le u.2⟩)
  | .dot :: r =>
    let (t, u) := scalarText r
    ('.' :: t, ⟨u.1, Nat.le_succ_of_le u.2⟩)
  | ts => ([], ⟨ts, Nat.le_refl _⟩)

/-- Whether a text is a date to which a time can be joined by a space. -/
def isDateText (s : List Char) : Bool :=
  match Date.read? s with
  | some (_, []) => true
  | _ => false

/-- The text of a scalar: a date takes a time behind a single space with it. -/
def scalarSpan (ts : List Token) : List Char × Remaining ts :=
  let (s, r) := scalarText ts
  if isDateText s then
    match _h : r.1 with
    | .space :: .atom (c :: cs) :: rest =>
      if c.isDigit then
        let (t, u) := scalarText (.atom (c :: cs) :: rest)
        (s ++ ' ' :: t,
          ⟨u.1, by have h1 := u.2; have h2 := r.2; rw [_h] at h2; simp at h1 h2; omega⟩)
      else (s, r)
    | _ => (s, r)
  else (s, r)

/-- A scalar without quotes. -/
def scalarValue (ts : List Token) : Option (Literal × Rest ts) :=
  let (s, r) := scalarSpan ts
  match scalar? s with
  | none => none
  | some v => if h : r.1.length < ts.length then some (v, ⟨r.1, h⟩) else none

mutual

/-- A value, with at most `depth` levels of brackets and braces. -/
def value (depth : Nat) (ts : List Token) : Option (Literal × Rest ts) :=
  match ts with
  | [] => none
  | .quoted s :: r => some (.text (String.ofList s), ⟨r, by simp⟩)
  | .quotedLines s :: r => some (.text (String.ofList s), ⟨r, by simp⟩)
  | .openBracket :: r =>
    if depth = 0 then none
    else
      match elements (depth - 1) r with
      | none => none
      | some (vs, u) => some (.array vs, ⟨u.1, Nat.lt_succ_of_lt u.2⟩)
  | .openBrace :: r =>
    if depth = 0 then none
    else
      match members (depth - 1) [] r with
      | none => none
      | some (es, u) => some (.table (finished es), ⟨u.1, Nat.lt_succ_of_lt u.2⟩)
  | t :: r => scalarValue (t :: r)
termination_by (ts.length, 0)

/-- The elements of an array up to its closing bracket. -/
def elements (depth : Nat) (ts : List Token) : Option (List Literal × Rest ts) :=
  match skipFiller ts with
  | ⟨[], _⟩ => none
  | ⟨.closeBracket :: r, h⟩ => some ([], ⟨r, h⟩)
  | ⟨t :: r, h⟩ =>
    match value depth (t :: r) with
    | none => none
    | some (v, u) =>
      have hu := Nat.lt_of_lt_of_le u.2 h
      match skipFiller u.1 with
      | ⟨.closeBracket :: s, hs⟩ =>
        some ([v], ⟨s, Nat.lt_of_lt_of_le hs (Nat.le_of_lt hu)⟩)
      | ⟨.comma :: s, hs⟩ =>
        have hl : s.length < ts.length := Nat.lt_of_lt_of_le hs (Nat.le_of_lt hu)
        match elements depth s with
        | none => none
        | some (vs, w) => some (v :: vs, ⟨w.1, Nat.lt_trans w.2 hl⟩)
      | _ => none
termination_by (ts.length, 1)
decreasing_by
  · rcases Nat.lt_or_eq_of_le h with hlt | heq
    · exact Prod.Lex.left _ _ hlt
    · rw [← heq]; exact Prod.Lex.right _ (by decide)
  · exact Prod.Lex.left _ _ hl

/-- The entries of a table in braces up to its closing brace, after the entries `es`. -/
def members (depth : Nat) (es : Entries) (ts : List Token) : Option (Entries × Rest ts) :=
  match skipFiller ts with
  | ⟨[], _⟩ => none
  | ⟨.closeBrace :: r, h⟩ => some (es, ⟨r, h⟩)
  | ⟨t :: r, h⟩ =>
    match key (t :: r) with
    | none => none
    | some (k, u) =>
      match mark isFillerToken .equals u.1 with
      | none => none
      | some m =>
        have hm : m.1.length < ts.length := Nat.lt_trans m.2 (Nat.lt_of_lt_of_le u.2 h)
        match value depth m.1 with
        | none => none
        | some (v, w) =>
          have hw : w.1.length < ts.length := Nat.lt_trans w.2 hm
          match Entries.addValue k.path k.last v .opened es with
          | none => none
          | some es =>
            match skipFiller w.1 with
            | ⟨.closeBrace :: s, hs⟩ =>
              some (es, ⟨s, Nat.lt_of_lt_of_le hs (Nat.le_of_lt hw)⟩)
            | ⟨.comma :: s, hs⟩ =>
              have hl : s.length < ts.length := Nat.lt_of_lt_of_le hs (Nat.le_of_lt hw)
              match members depth es s with
              | none => none
              | some (es, x) => some (es, ⟨x.1, Nat.lt_trans x.2 hl⟩)
            | _ => none
termination_by (ts.length, 1)
decreasing_by
  · exact Prod.Lex.left _ _ hm
  · exact Prod.Lex.left _ _ hl

end

end SlotGate.Toml
