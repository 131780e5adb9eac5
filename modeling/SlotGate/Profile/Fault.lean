import SlotGate.Profile.Basic
import SlotGate.Text.Quoted
import SlotGate.Toml.DateTime

/-!
# Faults of profiles

Why an item of a document is no profile, and how that is said. A fault names the item that was found
and what should have stood there; the document as a whole is not shown.
-/
namespace SlotGate

open SlotGate.Toml (Item)

/-- In messages, every finite number is written in places. -/
def messageFloatStyle : Decimal.Style := ⟨fun _ => true⟩

/-- What an item is, in a message. Dates and times pass for the text that writes them. -/
def Toml.Item.describe : Item → String
  | .text s => "string " ++ Text.quoted s
  | .integer n => "integer `" ++ toString n ++ "`"
  | .float bits =>
    "floating point `" ++ messageFloatStyle.write (Decimal.binary64.decode bits.toNat) ++ "`"
  | .boolean b => "boolean `" ++ (if b then "true" else "false") ++ "`"
  | .dateTime d => "string " ++ Text.quoted d.write
  | .array _ => "sequence"
  | .table _ => "map"

inductive PolicyFault where
  /-- A text or a table names a policy that there is not. -/
  | unknown (name : String)
  /-- A table has no key or several. -/
  | notSingle
  /-- Something stands under the name of a policy. -/
  | payload (found : Item)
  | notPolicy (found : Item)

inductive ProfileFault where
  | notTable (found : Item)
  | notBoolean (key : ProfileKey) (found : Item)
  | policy (fault : PolicyFault)

def wrongType (found : Item) (expected : String) : String :=
  "invalid type: " ++ found.describe ++ ", expected " ++ expected

def PolicyFault.message : PolicyFault → String
  | unknown name => "unknown variant `" ++ name ++ "`, expected `suppress` or `fire`"
  | notSingle => "invalid value: map, expected map with a single key"
  | payload found => wrongType found "unit"
  | notPolicy found => wrongType found "string or map"

/-- The message of a fault; of the keys, the one that is no setting of the gate is named. -/
def ProfileFault.message : ProfileFault → String
  | notTable found => wrongType found "struct GateProfile"
  | notBoolean key found =>
    wrongType found "a boolean" ++
      (if key = .threadSafe then "\nin `" ++ key.text ++ "`" else "")
  | policy fault => fault.message

end SlotGate
