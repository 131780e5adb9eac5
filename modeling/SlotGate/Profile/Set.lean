import SlotGate.Gate.Builder
import SlotGate.Profile.Item

/-!
# Sets of profiles

Named profiles in the order in which their names were first defined, with the warnings that reading
them gave. A later definition of a name replaces the whole profile and leaves its place; warnings
are only ever added at the end.
-/
namespace SlotGate

inductive Warning where
  | unknownSection (name : String)
  | unknownKey (profile key : String)
  deriving DecidableEq, Repr

namespace Warning

def message : Warning → String
  | unknownSection name => "'" ++ name ++ "' is not a known section and will be ignored"
  | unknownKey profile key => "'" ++ key ++ "' in profile '" ++ profile ++ "' will be ignored"

end Warning

/-- Why the text of a file could not be had. -/
inductive FileFault where
  | missing
  /-- The bytes of the file are no text. -/
  | notText
  deriving DecidableEq, Repr

inductive ProfileError where
  | file (fault : FileFault)
  /-- The text is no document. -/
  | notDocument
  /-- What stands where the profiles should is no table. -/
  | invalidSection
  | invalidProfile (name : String) (fault : ProfileFault)
  | unknownProfile (name : String)
  | lockMode (mismatch : LockModeMismatch)
  | names (fault : BindError)

namespace LockModeMismatch

def message (m : LockModeMismatch) : String :=
  let flag (b : Bool) := if b then "true" else "false"
  "profile declares thread-safe = " ++ flag m.declared ++
    ", but the gate's lock mode is thread-safe = " ++ flag m.actual

end LockModeMismatch

namespace ProfileError

/-- The message of an error. What the system says of a file and what is wrong with a text that is no
document are not part of it. -/
def message : ProfileError → String
  | file .missing => "the file is missing"
  | file .notText => "the file is not text"
  | notDocument => "the text is not a document"
  | invalidSection => "`gate` must be a table of profiles"
  | invalidProfile name fault => "invalid profile `" ++ name ++ "`: " ++ fault.message ++ "\n"
  | unknownProfile name => "unknown gate profile: " ++ name
  | lockMode mismatch => mismatch.message
  | names fault => fault.message

end ProfileError

structure ProfileSet where
  profiles : Named Profile := []
  warnings : List Warning := []
  /-- No two profiles have the same name. -/
  nodup_names : (Named.names profiles).Nodup := by exact List.nodup_nil

namespace ProfileSet

def get? (s : ProfileSet) (name : String) : Option Profile := s.profiles.lookup name

/-- The profile of a name that has to be there. -/
def profile (s : ProfileSet) (name : String) : Except ProfileError Profile :=
  match s.get? name with
  | some p => .ok p
  | none => .error (.unknownProfile name)

def names (s : ProfileSet) : List String := s.profiles.names

def size (s : ProfileSet) : Nat := s.profiles.length

def isEmpty (s : ProfileSet) : Bool := s.profiles.isEmpty

/-- The set with a profile, and the profile that it replaced. -/
def insert (s : ProfileSet) (name : String) (p : Profile) : ProfileSet × Option Profile :=
  ({ s with
      profiles := s.profiles.put name p
      nodup_names := Named.nodup_put s.nodup_names name p },
    s.get? name)

/-- The profiles of `t` go into `s`, and its warnings behind those of `s`. -/
def merge (s t : ProfileSet) : ProfileSet where
  profiles := s.profiles.putAll t.profiles
  warnings := s.warnings ++ t.warnings
  nodup_names := Named.nodup_putAll s.nodup_names t.profiles

end ProfileSet

end SlotGate
