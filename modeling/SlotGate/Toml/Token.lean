import SlotGate.Text.Rest
import SlotGate.Toml.Scalar

/-!
# Tokens of a document

A text is cut into tokens without regard to where they stand: quoted texts with their escapes
resolved, marks, blanks, and atoms, which are everything else. Control characters other than the tab
belong to no token but an atom, and no atom that holds one means anything. Each reader of a part of
the text leaves a shorter rest; the length lemmas say so and carry the recursion.
-/
namespace SlotGate.Toml

open SlotGate.Text (dropWhile_length numeral?)

inductive Token where
  | dot
  | equals
  | comma
  | openBracket
  | closeBracket
  | openBrace
  | closeBrace
  | blank
  /-- A single space, which can stand inside a date with a time. -/
  | space
  | newline
  | comment
  /-- A quoted text of one line. -/
  | quoted (s : List Char)
  /-- A quoted text that can span lines. -/
  | quotedLines (s : List Char)
  | atom (s : List Char)
  deriving DecidableEq, Repr

/-- Characters that a line can hold. -/
def isLineChar (c : Char) : Bool := c = '\t' || (0x20 ≤ c.toNat && c.toNat ≠ 0x7F)

def isBlankChar (c : Char) : Bool := c = ' ' || c = '\t'

def simpleEscape? (c : Char) : Option Char :=
  [('b', '\x08'), ('t', '\t'), ('n', '\n'), ('f', '\x0c'), ('r', '\r'), ('e', '\x1b'),
    ('"', '"'), ('\\', '\\')].lookup c

/-- The character whose code point these hexadecimal digits give. -/
def codePoint? (ds : List Char) : Option Char := do
  let n ← numeral? 16 ds
  if h : n.isValidChar then some (Char.ofNatAux n h) else none

/-- What stands for a character behind a backslash, and the rest. -/
def escape? : List Char → Option (Char × List Char)
  | 'x' :: a :: b :: r => (codePoint? [a, b]).map (·, r)
  | 'u' :: a :: b :: c :: d :: r => (codePoint? [a, b, c, d]).map (·, r)
  | 'U' :: a :: b :: c :: d :: e :: f :: g :: h :: r =>
    (codePoint? [a, b, c, d, e, f, g, h]).map (·, r)
  | c :: r => (simpleEscape? c).map (·, r)
  | [] => none

theorem escape?_length {s r : List Char} {c : Char} (h : escape? s = some (c, r)) :
    r.length < s.length := by
  unfold escape? at h
  split at h <;> simp only [Option.map_eq_some_iff, Prod.mk.injEq, reduceCtorEq] at h
  all_goals
    obtain ⟨_, _, _, rfl⟩ := h
    simp only [List.length_cons]
    omega

private def consFst (c : Char) (p : List Char × List Char) : List Char × List Char :=
  (c :: p.1, p.2)

/-- A text in double quotes on one line, behind its opening quote. -/
def basicText? (s : List Char) : Option (List Char × List Char) :=
  match s with
  | [] => none
  | c :: r =>
    if c = '"' then some ([], r)
    else if c = '\\' then
      match _h : escape? r with
      | some (e, r') => (basicText? r').map (consFst e)
      | none => none
    else if isLineChar c then (basicText? r).map (consFst c)
    else none
termination_by s.length
decreasing_by
  · have := escape?_length _h
    simp only [List.length_cons]
    omega
  · simp

theorem basicText?_length {s t r : List Char} (h : basicText? s = some (t, r)) :
    r.length < s.length := by
  fun_induction basicText? s generalizing t r with
  | case1 => simp at h
  | case2 => cases h; simp
  | case3 rest e r' he _ ih =>
    obtain ⟨p, hp, hq⟩ := Option.map_eq_some_iff.1 h
    have h1 := ih hp
    have h2 := escape?_length he
    cases hq
    simp only [List.length_cons]
    omega
  | case4 => simp at h
  | case5 c rest _ _ _ ih =>
    obtain ⟨p, hp, hq⟩ := Option.map_eq_some_iff.1 h
    have h1 := ih hp
    cases hq
    simp only [List.length_cons]
    omega
  | case6 => simp at h

/-- A text in single quotes on one line, behind its opening quote. -/
def literalText? : List Char → Option (List Char × List Char)
  | [] => none
  | c :: r =>
    if c = '\x27' then some ([], r)
    else if isLineChar c then (literalText? r).map (consFst c)
    else none

theorem literalText?_length {s t r : List Char} (h : literalText? s = some (t, r)) :
    r.length < s.length := by
  fun_induction literalText? s generalizing t r with
  | case1 => simp at h
  | case2 => cases h; simp
  | case3 c rest _ _ ih =>
    obtain ⟨p, hp, hq⟩ := Option.map_eq_some_iff.1 h
    have h1 := ih hp
    cases hq
    simp only [List.length_cons]
    omega
  | case4 => simp at h

/-- What follows blanks and ends of lines. -/
def skipLines : List Char → List Char
  | '\r' :: '\n' :: r => skipLines r
  | c :: r => if c = ' ' || c = '\t' || c = '\n' then skipLines r else c :: r
  | [] => []

theorem skipLines_length (s : List Char) : (skipLines s).length ≤ s.length := by
  fun_induction skipLines s with
  | case1 r ih => simp only [List.length_cons]; omega
  | case2 c r _ _ ih => simp only [List.length_cons]; omega
  | case3 => exact Nat.le_refl _
  | case4 => exact Nat.le_refl _

/-- Whether a line ends here, blanks apart. -/
def endsLine (s : List Char) : Bool :=
  match s.dropWhile isBlankChar with
  | '\n' :: _ => true
  | '\r' :: '\n' :: _ => true
  | _ => false

/-- The end of a text in three quotes, behind these: up to two more of them belong to the text. -/
def closingQuotes (q : Char) : List Char → List Char × List Char
  | a :: b :: r => if a = q then if b = q then ([q, q], r) else ([q], b :: r) else ([], a :: b :: r)
  | [a] => if a = q then ([q], []) else ([], [a])
  | [] => ([], [])

theorem closingQuotes_length (q : Char) (s : List Char) :
    (closingQuotes q s).2.length ≤ s.length := by
  unfold closingQuotes
  repeat' split
  all_goals simp only [List.length_cons, List.length_nil]
  all_goals omega

/-- A text in three quotes, behind the opening ones. In double quotes, a backslash resolves an
escape or takes away the blanks and line ends that follow. -/
def linesText? (q : Char) (s : List Char) : Option (List Char × List Char) :=
  match s with
  | [] => none
  | '\r' :: '\n' :: r => (linesText? q r).map fun p => ('\r' :: '\n' :: p.1, p.2)
  | c :: r =>
    if c = q && r.take 2 = [q, q] then some (closingQuotes q (r.drop 2))
    else if c = '\\' && q = '"' then
      if endsLine r then linesText? q (skipLines r)
      else
        match _h : escape? r with
        | some (e, r') => (linesText? q r').map (consFst e)
        | none => none
    else if c = '\n' || isLineChar c then (linesText? q r).map (consFst c)
    else none
termination_by s.length
decreasing_by
  · simp only [List.length_cons]; omega
  · have := skipLines_length r
    simp only [List.length_cons]
    omega
  · have := escape?_length _h
    simp only [List.length_cons]
    omega
  · simp

theorem linesText?_length {q : Char} {s t r : List Char} (h : linesText? q s = some (t, r)) :
    r.length < s.length := by
  fun_induction linesText? q s generalizing t r with
  | case1 => simp at h
  | case2 rest ih =>
    obtain ⟨p, hp, hq⟩ := Option.map_eq_some_iff.1 h
    have h1 := ih hp
    cases hq
    simp only [List.length_cons]
    omega
  | case3 c rest _ _ =>
    have h1 := closingQuotes_length q (rest.drop 2)
    have h2 : (rest.drop 2).length ≤ rest.length := by simp
    rw [Option.some.injEq] at h
    rw [h] at h1
    simp only [List.length_cons] at h1 ⊢
    omega
  | case4 c rest _ _ _ _ ih =>
    have h1 := ih h
    have h2 := skipLines_length rest
    simp only [List.length_cons]
    omega
  | case5 c rest _ _ _ _ e r' he ih =>
    obtain ⟨p, hp, hq⟩ := Option.map_eq_some_iff.1 h
    have h1 := ih hp
    have h2 := escape?_length he
    cases hq
    simp only [List.length_cons]
    omega
  | case6 => simp at h
  | case7 c rest _ _ _ _ ih =>
    obtain ⟨p, hp, hq⟩ := Option.map_eq_some_iff.1 h
    have h1 := ih hp
    cases hq
    simp only [List.length_cons]
    omega
  | case8 => simp at h

/-- A line end right behind the opening quotes is not part of the text. -/
def dropFirstLineEnd : List Char → List Char
  | '\n' :: r => r
  | '\r' :: '\n' :: r => r
  | s => s

theorem dropFirstLineEnd_length (s : List Char) : (dropFirstLineEnd s).length ≤ s.length := by
  unfold dropFirstLineEnd
  split
  · simp
  · simp only [List.length_cons]; omega
  · exact Nat.le_refl _

def mark? (c : Char) : Option Token :=
  [('.', Token.dot), ('=', .equals), (',', .comma), ('[', .openBracket), (']', .closeBracket),
    ('\x7b', .openBrace), ('\x7d', .closeBrace)].lookup c

/-- Characters at which an atom ends. -/
def endsAtom (c : Char) : Bool :=
  (mark? c).isSome || isBlankChar c || c = '\n' || c = '\r' || c = '#' || c = '"' || c = '\x27'

def isQuoteChar (c : Char) : Bool := c = '"' || c = '\x27'

/-- The quoted text behind an opening quote `q`, and the rest. -/
def quotedToken? (q : Char) (r : List Char) : Option (Token × List Char) :=
  if r.take 2 = [q, q] then
    (linesText? q (dropFirstLineEnd (r.drop 2))).map fun p => (.quotedLines p.1, p.2)
  else
    (if q = '"' then basicText? r else literalText? r).map fun p => (.quoted p.1, p.2)

theorem quotedToken?_length {q : Char} {s r : List Char} {t : Token}
    (h : quotedToken? q s = some (t, r)) : r.length < s.length := by
  unfold quotedToken? at h
  split at h
  · obtain ⟨p, hp, hq⟩ := Option.map_eq_some_iff.1 h
    have h1 := linesText?_length hp
    have h2 := dropFirstLineEnd_length (s.drop 2)
    have h3 : (s.drop 2).length ≤ s.length := by simp
    cases hq
    omega
  · obtain ⟨p, hp, hq⟩ := Option.map_eq_some_iff.1 h
    split at hp
    · have h1 := basicText?_length hp
      cases hq
      omega
    · have h1 := literalText?_length hp
      cases hq
      omega

/-- The first token of a text and the rest of it. A carriage return that ends no line is none. -/
def token? : List Char → Option (Token × List Char)
  | [] => none
  | '\r' :: '\n' :: r => some (.newline, r)
  | c :: r =>
    match mark? c with
    | some t => some (t, r)
    | none =>
      if isQuoteChar c then quotedToken? c r
      else if c = '\n' then some (.newline, r)
      else if c = '\r' then none
      else if c = '#' then some (.comment, r.dropWhile isLineChar)
      else if isBlankChar c then
        let rest := r.dropWhile isBlankChar
        some (if c = ' ' && rest.length = r.length then .space else .blank, rest)
      else some (.atom (c :: r.takeWhile (!endsAtom ·)), r.dropWhile (!endsAtom ·))

theorem token?_length {s r : List Char} {t : Token} (h : token? s = some (t, r)) :
    r.length < s.length := by
  unfold token? at h
  split at h
  · simp at h
  · cases h
    simp only [List.length_cons]
    omega
  · next c rest _ =>
    split at h
    · cases h; simp
    · split at h
      · have := quotedToken?_length h
        simp only [List.length_cons]
        omega
      · split at h
        · cases h; simp
        · split at h
          · simp at h
          · split at h
            · cases h
              have := dropWhile_length isLineChar rest
              simp only [List.length_cons]
              omega
            · split at h
              · cases h
                have := dropWhile_length isBlankChar rest
                simp only [List.length_cons]
                omega
              · cases h
                have := dropWhile_length (fun x => !endsAtom x) rest
                simp only [List.length_cons]
                omega

/-- All tokens of a text. -/
def tokens? (s : List Char) : Option (List Token) :=
  match s with
  | [] => some []
  | c :: r =>
    match _h : token? (c :: r) with
    | none => none
    | some (t, rest) => (tokens? rest).map (t :: ·)
termination_by s.length
decreasing_by exact token?_length _h

end SlotGate.Toml
