/-!
# Data in JSON texts

What a JSON text holds, as far as anyone asks. A number is kept as whether it lies in the range of
floating-point numbers, and a text whose escapes name half a surrogate pair is kept as no text. Both
are well-formed, so both may stand where data is ignored.
-/
namespace SlotGate.Json

inductive Value where
  | null
  | bool (b : Bool)
  | number (inRange : Bool)
  | text (s : Option String)
  | array (items : List Value)
  | object (members : List (Option String × Value))

mutual

/-- Whether every number is in range and every text is one. -/
def Value.isRepresentable : Value → Bool
  | .null => true
  | .bool _ => true
  | .number inRange => inRange
  | .text s => s.isSome
  | .array items => itemsRepresentable items
  | .object members => membersRepresentable members

def itemsRepresentable : List Value → Bool
  | [] => true
  | v :: rest => v.isRepresentable && itemsRepresentable rest

def membersRepresentable : List (Option String × Value) → Bool
  | [] => true
  | (key, v) :: rest => key.isSome && v.isRepresentable && membersRepresentable rest

end

mutual

/-- How deep arrays and objects are nested. -/
def Value.depth : Value → Nat
  | .array items => itemsDepth items + 1
  | .object members => membersDepth members + 1
  | _ => 0

def itemsDepth : List Value → Nat
  | [] => 0
  | v :: rest => max v.depth (itemsDepth rest)

def membersDepth : List (Option String × Value) → Nat
  | [] => 0
  | (_, v) :: rest => max v.depth (membersDepth rest)

end

end SlotGate.Json
