/-! # Mismatches

How a document differs from what is wanted at some place, and how that is worded.
-/

namespace Exclusion

inductive MismatchReason where
  /-- A value of one kind stands where another is wanted. -/
  | wrongType (found wanted : String)
  | unknownField (name : String) (known : List String)
  | unknownVariant (name : String) (known : List String)
  | invalidLength (found : Nat) (wanted : String)
  | told (message : String)
  deriving DecidableEq, Repr

/-- The reason, with the names that lead to the place from the top. -/
structure Mismatch where
  reason : MismatchReason
  path : List String
  deriving DecidableEq, Repr

def quoted (s : String) : String := "`" ++ s ++ "`"

def MismatchReason.message : MismatchReason → String
  | wrongType found wanted => "invalid type: " ++ found ++ ", expected " ++ wanted
  | unknownField name known =>
    "unknown field " ++ quoted name ++ ", expected one of " ++ ", ".intercalate (known.map quoted)
  | unknownVariant name known =>
    "unknown variant " ++ quoted name ++ ", expected one of " ++ ", ".intercalate (known.map quoted)
  | invalidLength found wanted =>
    "invalid length " ++ toString found ++ ", expected " ++ wanted
  | told message => message

def Mismatch.message (m : Mismatch) : String :=
  m.reason.message ++ "\n"
    ++ if m.path.isEmpty then "" else "in " ++ quoted (".".intercalate m.path) ++ "\n"

end Exclusion
