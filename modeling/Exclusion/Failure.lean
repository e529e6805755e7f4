import Exclusion.Dialect
import Exclusion.Expr.Fault
import Exclusion.Glob.Read
import Exclusion.Scope
import Exclusion.Document.Mismatch

/-! # Failures

Why compiling, configuring, reading a file or evaluating fails, and how each failure is worded.
-/

namespace Exclusion

inductive Cause where
  | expr (f : Expr.Fault)
  | glob (f : Glob.Fault)
  | told (message : String)
  deriving DecidableEq, Repr

/-- The diagnostic of an expression is for its reader to find; only that it has one is recorded. -/
def Cause.message : Cause → String
  | expr _ => ""
  | glob f => f.message
  | told message => message

inductive Problem where
  | noExpressions
  | noLines
  | noMatchers
  | unknownInOrder
  | repeatedInOrder (d : Dialect)
  | missingFromOrder (ds : List Dialect)
  | noDocument
  | mismatch (m : Mismatch)
  | told (message : String)
  deriving DecidableEq, Repr

def Problem.message : Problem → String
  | noExpressions => "at least one pattern required for regex matcher"
  | noLines => "at least one gitignore source required: file or lines"
  | noMatchers => "at least one matcher required"
  | unknownInOrder => "order: unknown dialect"
  | repeatedInOrder d => "order: duplicate dialect " ++ d.name
  | missingFromOrder ds =>
    "configured dialects missing from order: " ++ ", ".intercalate (ds.map (·.name))
  | noDocument => "TOML parse error"
  | mismatch m => m.message
  | told message => message

inductive FileFault where
  | notFound
  | isDirectory
  | notDirectory
  | invalidData
  deriving DecidableEq, Repr

def FileFault.message : FileFault → String
  | notFound => "No such file or directory (os error 2)"
  | isDirectory => "Is a directory (os error 21)"
  | notDirectory => "Not a directory (os error 20)"
  | invalidData => "stream did not contain valid UTF-8"

inductive Failure where
  | compile (dialect : Dialect) (pattern : String) (cause : Cause)
  | config (path : Option String) (problem : Problem)
  | file (path : String) (fault : FileFault)
  | cancelled (reason : Reason)
  /-- The program ends: the glob of this pattern is one, but too large to be compiled. -/
  | aborted (pattern : String)
  deriving DecidableEq, Repr

namespace Failure

def message : Failure → String
  | compile d p c => d.name ++ " pattern `" ++ p ++ "` failed to compile: " ++ c.message
  | config _ p => "config error: " ++ p.message
  | file path f => "io error: " ++ path ++ ": " ++ f.message
  | cancelled r => "cancelled: " ++ r.text
  | aborted _ => "regex compilation shouldn't fail"

def isCancelled : Failure → Bool
  | cancelled _ => true
  | _ => false

def pattern? : Failure → Option String
  | compile _ p _ => some p
  | _ => none

end Failure

end Exclusion
