import SlotGate.Json.Reader
import SlotGate.Profile.Item
import SlotGate.Toml.Document

/-!
# Settings, profiles and policies as texts

The written forms that stand alone, apart from a document of profiles. Reading a profile holds on to
what it does not know before it passes it over, so that has to be data that can be held; settings
pass over whatever is well-formed. A key that is known may stand once.
-/
namespace SlotGate

/-- How deep the data that a profile holds on to may be nested, the profile itself counted. -/
def heldDepth : Nat := 127

/-- Integers of a width, with a sign or without. -/
def intakeOfWidth (bits : Nat) : Toml.Intake :=
  let signed : Value.IntegerKind := ⟨true, bits⟩
  let unsigned : Value.IntegerKind := ⟨false, bits⟩
  ⟨signed.least, unsigned.greatest, false⟩

/-- What a document of settings may hold, also where it is passed over. -/
def settingsIntake : Toml.Intake := intakeOfWidth 128

/-- What a document of a profile may hold, also where it is passed over. -/
def profileIntake : Toml.Intake := intakeOfWidth 64

namespace NullPolicy

/-- A policy is written as its name, or as an object with its name over a null. -/
def ofJson? : Json.Value → Option NullPolicy
  | .text s => s.bind ofText?
  | .object [(name, .null)] => name.bind ofText?
  | _ => none

/-- Data that is held first may have an empty object in place of the null. -/
def ofHeldJson? : Json.Value → Option NullPolicy
  | .object [(name, .object [])] => name.bind ofText?
  | v => ofJson? v

def json (p : NullPolicy) : String := "\"" ++ p.text ++ "\""

/-- The policy that a document describes. -/
def ofToml? (text : String) : Option NullPolicy := do
  let t ← Toml.readTable? text
  (ofItem isEmptyItem (.table (← settingsIntake.table? t))).toOption

end NullPolicy

/-- All values under a key. -/
def jsonValues (key : ProfileKey) (members : List (Option String × Json.Value)) :
    List Json.Value :=
  (members.filter fun m => m.1 = some key.text).map Prod.snd

/-- The one value under a key, or the default if there is none. -/
def jsonMember? {α : Type} (members : List (Option String × Json.Value)) (key : ProfileKey)
    (missing : α) (read? : Json.Value → Option α) : Option α :=
  match jsonValues key members with
  | [] => some missing
  | [v] => read? v
  | _ => none

def jsonFlag? : Json.Value → Option Bool
  | .bool b => some b
  | _ => none

/-- The value at a place of an array, or the default if it ends before. -/
def jsonItem? {α : Type} (items : List Json.Value) (place : Nat) (missing : α)
    (read? : Json.Value → Option α) : Option α :=
  match items[place]? with
  | none => some missing
  | some v => read? v

namespace Settings

def ofMembers? (members : List (Option String × Json.Value))
    (policy? : Json.Value → Option NullPolicy) : Option Settings := do
  let missing : Settings := {}
  if members.any fun m => m.1.isNone then none
  let oneShot ← jsonMember? members .oneShot missing.oneShot jsonFlag?
  let enabled ← jsonMember? members .enabled missing.enabled jsonFlag?
  let debug ← jsonMember? members .debug missing.debug jsonFlag?
  let nullPolicy ← jsonMember? members .nullPolicy missing.nullPolicy policy?
  return { oneShot, enabled, debug, nullPolicy }

/-- Settings are an object, or an array of their values in order that may end early. -/
def ofJson? : Json.Value → Option Settings
  | .object members => ofMembers? members NullPolicy.ofJson?
  | .array items => do
    let missing : Settings := {}
    if 4 < items.length then none
    let oneShot ← jsonItem? items 0 missing.oneShot jsonFlag?
    let enabled ← jsonItem? items 1 missing.enabled jsonFlag?
    let debug ← jsonItem? items 2 missing.debug jsonFlag?
    let nullPolicy ← jsonItem? items 3 missing.nullPolicy NullPolicy.ofJson?
    return { oneShot, enabled, debug, nullPolicy }
  | _ => none

/-- The settings that a document describes. -/
def ofToml? (text : String) : Option Settings := do
  let t ← Toml.readTable? text
  (ofTable NullPolicy.isEmptyItem (← settingsIntake.table? t)).toOption

end Settings

namespace Profile

def ofJson? : Json.Value → Option Profile
  | .object members => do
    let missing : Profile := {}
    let v : Json.Value := .object members
    if !v.isRepresentable || heldDepth < v.depth then none
    let threadSafe ← jsonMember? members .threadSafe missing.threadSafe jsonFlag?
    let settings ← Settings.ofMembers? members NullPolicy.ofHeldJson?
    return { threadSafe, settings }
  | _ => none

/-- The profile that a document describes. -/
def ofToml? (text : String) : Option Profile := do
  let t ← Toml.readTable? text
  (ofTable (← profileIntake.table? t)).toOption

end Profile

/-- The keys of the settings in the order in which they are written. -/
def Settings.keys : List ProfileKey := [.oneShot, .enabled, .debug, .nullPolicy]

/-- What is written under a key. Truth values and names of policies look alike in both formats. -/
def Profile.writtenValue (p : Profile) : ProfileKey → String
  | .threadSafe => flag p.threadSafe
  | .oneShot => flag p.settings.oneShot
  | .enabled => flag p.settings.enabled
  | .debug => flag p.settings.debug
  | .nullPolicy => p.settings.nullPolicy.json
where
  flag (b : Bool) : String := if b then "true" else "false"

def Profile.jsonOf (p : Profile) (keys : List ProfileKey) : String :=
  let members := keys.map fun k => "\"" ++ k.text ++ "\":" ++ p.writtenValue k
  "\x7b" ++ String.intercalate "," members ++ "\x7d"

def Profile.tomlOf (p : Profile) (keys : List ProfileKey) : String :=
  String.join (keys.map fun k => k.text ++ " = " ++ p.writtenValue k ++ "\n")

def Profile.json (p : Profile) : String := p.jsonOf ProfileKey.all

def Profile.toml (p : Profile) : String := p.tomlOf ProfileKey.all

def Settings.json (s : Settings) : String := Profile.jsonOf ⟨false, s⟩ Settings.keys

def Settings.toml (s : Settings) : String := Profile.tomlOf ⟨false, s⟩ Settings.keys

end SlotGate
