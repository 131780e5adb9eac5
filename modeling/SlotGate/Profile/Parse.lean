import SlotGate.Profile.Set
import SlotGate.Toml.Document

/-!
# Reading sets of profiles

The profiles of a document are the tables in its table of gates. Sections and keys that mean nothing
are warned of and passed over; the first profile that is none ends the reading. Everything is
visited in the order of the document's tables, which is ascending.
-/
namespace SlotGate

open SlotGate.Toml (Item Table)

/-- The section that holds the profiles. -/
def gateSection : String := "gate"

/-- The warnings that the entry of a profile gives. -/
def keyWarnings (name : String) : Item → List Warning
  | .table entries =>
    ((Named.names entries).filter fun key => !ProfileKey.isKnown key).map (.unknownKey name)
  | _ => []

namespace ProfileSet

def addProfile (s : ProfileSet) (entry : String × Item) : Except ProfileError ProfileSet :=
  match Profile.ofItem entry.2 with
  | .error fault => .error (.invalidProfile entry.1 fault)
  | .ok p => .ok {
      profiles := s.profiles.put entry.1 p
      warnings := s.warnings ++ keyWarnings entry.1 entry.2
      nodup_names := Named.nodup_put s.nodup_names entry.1 p }

def addSection (s : ProfileSet) (entry : String × Item) : Except ProfileError ProfileSet :=
  if entry.1 ≠ gateSection then
    .ok { s with warnings := s.warnings ++ [.unknownSection entry.1] }
  else
    match entry.2 with
    | .table gates => gates.foldlM addProfile s
    | _ => .error .invalidSection

/-- The profiles of the table of a document. -/
def ofTable (document : Table) : Except ProfileError ProfileSet := document.foldlM addSection {}

/-- The record of a reading that succeeded. -/
def parsedRecord (s : ProfileSet) : TraceRecord where
  message := "profiles.parse"
  level := .debug
  target := "quorum_config::profile"
  fields := [("profiles", .count s.size), ("warnings", .count s.warnings.length)]

def parse (text : String) : Reported (Except ProfileError ProfileSet) :=
  match Table.read? text with
  | none => ⟨.error .notDocument, []⟩
  | some document =>
    match ofTable document with
    | .error e => ⟨.error e, []⟩
    | .ok s => ⟨.ok s, [s.parsedRecord]⟩

/-- The profiles of a file, given its bytes if there is one. -/
def ofFile (bytes : Option ByteArray) : Reported (Except ProfileError ProfileSet) :=
  match bytes with
  | none => ⟨.error (.file .missing), []⟩
  | some bytes =>
    match String.fromUTF8? bytes with
    | none => ⟨.error (.file .notText), []⟩
    | some text => parse text

end ProfileSet

end SlotGate
