/-! # Events

What compiling and evaluating report on their way, in order: a level, a message and named fields.
-/

namespace Exclusion

inductive Severity where
  | trace
  | debug
  | warn
  deriving DecidableEq, Repr

def Severity.name : Severity → String
  | trace => "TRACE"
  | debug => "DEBUG"
  | warn => "WARN"

inductive FieldValue where
  | text (s : String)
  | number (n : Nat)
  | flag (b : Bool)
  deriving DecidableEq, Repr

structure Event where
  severity : Severity
  message : String
  fields : List (String × FieldValue)
  deriving DecidableEq, Repr

abbrev Log := List Event

def Log.warnings (log : Log) : List String :=
  (log.filter (·.severity == .warn)).map (·.message)

end Exclusion
