/-! # Quoting text for a glob

`Glob.quote` puts a backslash before each character that the glob syntax gives a meaning to, so that
the quoted text is a glob for that text alone.
-/

namespace Exclusion.Glob

def isMeta (c : Char) : Bool :=
  c ∈ ['*', '?', '[', ']', '\x7b', '\x7d', '\\']

def quote (raw : List Char) : List Char :=
  raw.flatMap fun c => if isMeta c then ['\\', c] else [c]

end Exclusion.Glob
