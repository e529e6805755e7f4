import Exclusion.Dialect

/-! # Verdicts

The answer to whether a path is excluded, with the dialect that excludes it and the text that does.
-/

namespace Exclusion

inductive Verdict where
  | unmatched
  | matched (dialect : Dialect) (source : String)
  deriving DecidableEq, Repr

namespace Verdict

def isMatch : Verdict → Bool
  | unmatched => false
  | matched _ _ => true

def dialect : Verdict → Dialect
  | unmatched => .unknown
  | matched d _ => d

def source : Verdict → String
  | unmatched => ""
  | matched _ s => s

def text (v : Verdict) : String := v.dialect.name ++ ":" ++ v.source

end Verdict

end Exclusion
