import SlotGate.Profile.Fault

/-!
# Profiles as items of a document

Reading a profile from an item, and the table that writes it. A missing key has its default and an
unknown key is passed over. The lock mode is read before the settings, and these in ascending order
of their keys; the first fault is the one that is reported. Settings that stand alone are read like
those of a profile, but for what may stand under the name of a policy.
-/
namespace SlotGate

open SlotGate.Toml (Item Table)

namespace NullPolicy

def named (name : String) : Except PolicyFault NullPolicy :=
  match ofText? name with
  | some p => .ok p
  | none => .error (.unknown name)

/-- What may stand under the name of a policy in a profile. -/
def isEmptyTable : Item → Bool
  | .table [] => true
  | _ => false

/-- What may stand under the name of a policy outside of a profile. -/
def isEmptyItem : Item → Bool
  | .array [] => true
  | v => isEmptyTable v

/-- A policy is written as its name, or as a table with its name over something empty. -/
def ofItem (isEmpty : Item → Bool) : Item → Except PolicyFault NullPolicy
  | .text s => named s
  | .dateTime d => named d.write
  | .table [(name, v)] => do
    let p ← named name
    if isEmpty v then return p else throw (.payload v)
  | .table _ => .error .notSingle
  | v => .error (.notPolicy v)

end NullPolicy

/-- The truth value under a key, or its default. -/
def flagOfTable (entries : Table) (key : ProfileKey) (missing : Bool) : Except ProfileFault Bool :=
  match List.lookup key.text entries with
  | none => .ok missing
  | some (.boolean b) => .ok b
  | some v => .error (.notBoolean key v)

def policyOfTable (isEmpty : Item → Bool) (entries : Table) (missing : NullPolicy) :
    Except ProfileFault NullPolicy :=
  match List.lookup ProfileKey.nullPolicy.text entries with
  | none => .ok missing
  | some v => (NullPolicy.ofItem isEmpty v).mapError .policy

namespace Settings

def ofTable (isEmpty : Item → Bool) (entries : Table) : Except ProfileFault Settings := do
  let missing : Settings := {}
  let debug ← flagOfTable entries .debug missing.debug
  let enabled ← flagOfTable entries .enabled missing.enabled
  let nullPolicy ← policyOfTable isEmpty entries missing.nullPolicy
  let oneShot ← flagOfTable entries .oneShot missing.oneShot
  return { oneShot, enabled, debug, nullPolicy }

end Settings

namespace Profile

def ofTable (entries : Table) : Except ProfileFault Profile := do
  let missing : Profile := {}
  let threadSafe ← flagOfTable entries .threadSafe missing.threadSafe
  let settings ← Settings.ofTable NullPolicy.isEmptyTable entries
  return { threadSafe, settings }

def ofItem : Item → Except ProfileFault Profile
  | .table entries => ofTable entries
  | v => .error (.notTable v)

/-- What a profile says under a key. -/
def valueOf (p : Profile) : ProfileKey → Item
  | .threadSafe => .boolean p.threadSafe
  | .oneShot => .boolean p.settings.oneShot
  | .enabled => .boolean p.settings.enabled
  | .debug => .boolean p.settings.debug
  | .nullPolicy => .text p.settings.nullPolicy.text

/-- The entries of a profile under some keys, in ascending order. -/
def tableOf (p : Profile) (keys : List ProfileKey) : Table :=
  keys.foldl (fun t k => Named.insertSorted k.text (p.valueOf k) t) []

end Profile

end SlotGate
