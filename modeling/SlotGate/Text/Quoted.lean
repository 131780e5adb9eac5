import SlotGate.Text.GraphemeExtend
import SlotGate.Text.Unprintable

/-!
# Quoted texts

A quoted text can be read back by eye: its own quotation mark, the backslash, the four named
controls and every character without a visible form of its own are written as escapes. The other
quotation mark stands as it is. That the form is unambiguous is not used and not proved here.
-/
namespace SlotGate.Text

/-- The mark around a quoted text: single for one character, double for a string. -/
inductive Quotation where
  | single
  | double
  deriving DecidableEq, Repr

namespace Quotation

def mark : Quotation → Char
  | single => '\x27'
  | double => '\x22'

end Quotation

/-- The halfwidth sound marks are letters of a width of their own, although they extend a
grapheme. -/
def halfwidthSoundMarks : CodePoints := ⟨[(0xFF9E, 0xFF9F)]⟩

/-- The Hangul fillers are letters without a visible form. -/
def hangulFillers : CodePoints := ⟨[(0x115F, 0x1160), (0x3164, 0x3164), (0xFFA0, 0xFFA0)]⟩

/-- Characters that cannot be seen where they stand: what has no visible form, and what joins the
character before it. -/
def isHidden (c : Char) : Bool :=
  (unprintable.contains c && c ≠ ' ') || hangulFillers.contains c ||
    (graphemeExtend.contains c && !halfwidthSoundMarks.contains c)

/-- The escape by code point, in the fewest hexadecimal digits. -/
def codePointEscape (c : Char) : List Char :=
  ['\\', 'u', '\x7b'] ++ Nat.toDigits 16 c.toNat ++ ['\x7d']

/-- The text of one character inside the quotation `q`. -/
def escaped (q : Quotation) (c : Char) : List Char :=
  if c = '\x00' then ['\\', '0']
  else if c = '\t' then ['\\', 't']
  else if c = '\n' then ['\\', 'n']
  else if c = '\r' then ['\\', 'r']
  else if c = '\\' || c = q.mark then ['\\', c]
  else if isHidden c then codePointEscape c
  else [c]

def quotedChars (q : Quotation) (cs : List Char) : List Char :=
  q.mark :: (cs.flatMap (escaped q) ++ [q.mark])

def quoted (s : String) : String := String.ofList (quotedChars .double s.toList)

def quotedChar (c : Char) : String := String.ofList (quotedChars .single [c])

end SlotGate.Text
