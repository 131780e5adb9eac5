/-!
# Trace records

What a subscriber to trace events is given: a message, a level, the source and named fields. Fields
are few and their order is kept.
-/
namespace SlotGate

inductive TraceLevel where
  | debug
  | trace
  deriving DecidableEq, Repr

inductive FieldValue where
  | text (s : String)
  | flag (b : Bool)
  | count (n : Nat)
  deriving DecidableEq, Repr

structure TraceRecord where
  message : String
  level : TraceLevel
  target : String
  fields : List (String × FieldValue)
  deriving DecidableEq, Repr

/-- A result together with the records that were emitted on the way to it, in order. -/
structure Reported (α : Type) where
  result : α
  records : List TraceRecord

end SlotGate
