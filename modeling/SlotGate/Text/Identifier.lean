import SlotGate.Text.Alphabetic
import SlotGate.Text.Numeric

/-!
# Identifiers

An underscore or an alphabetic character, then any number of these and of numeric characters.
Nothing is normalized, and case counts.
-/
namespace SlotGate.Text

def startsIdentifier (c : Char) : Bool := c = '_' || alphabetic.contains c

def continuesIdentifier (c : Char) : Bool := startsIdentifier c || numeric.contains c

def isIdentifier (s : String) : Bool :=
  match s.toList with
  | [] => false
  | c :: cs => startsIdentifier c && cs.all continuesIdentifier

end SlotGate.Text
