/-! # Dialects

The three ways of writing which paths to exclude, and the absence of any.
-/

namespace Exclusion

inductive Dialect where
  | unknown
  | gitignore
  | glob
  | regex
  deriving DecidableEq, Repr

namespace Dialect

def name : Dialect → String
  | unknown => "unknown"
  | gitignore => "gitignore"
  | glob => "glob"
  | regex => "regex"

def title : Dialect → String
  | unknown => "Unknown"
  | gitignore => "GitIgnore"
  | glob => "Glob"
  | regex => "Regex"

def ofName? (s : String) : Option Dialect :=
  [unknown, gitignore, glob, regex].find? (·.name == s)

end Dialect

end Exclusion
