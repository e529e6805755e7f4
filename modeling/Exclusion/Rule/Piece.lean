import Exclusion.Rule.Bracket

/-! # Pieces of a rule pattern

A pattern is read left to right into pieces: wildcards, bracket classes, the three forms of `**`
that a slash makes special, and single characters. Each piece has a fixed text in expression
syntax, and the text of a pattern is that of its pieces in order.
-/

namespace Exclusion.Rule

inductive Piece where
  /-- A character that stands for itself. -/
  | literal (c : Char)
  /-- A character behind a backslash. -/
  | quoted (c : Char)
  /-- A backslash with nothing behind it. -/
  | backslash
  /-- `*`: any run without a slash. -/
  | star
  /-- `?`: one character other than a slash. -/
  | question
  | bracket (b : Bracket)
  /-- `[` that no `]` closes. -/
  | openBracket
  /-- `**/` in front: any directories, or none. -/
  | deepStart
  /-- `/**/`: zero or more directories in between. -/
  | deepMiddle
  /-- `/**` at the end: everything below. -/
  | deepEnd
  deriving DecidableEq, Repr

namespace Piece

def needsQuote (c : Char) : Bool :=
  c ∈ ['.', '+', '(', ')', '|', '\x7b', '\x7d', '^', '$', ']']

def text : Piece → List Char
  | literal c => if needsQuote c then ['\\', c] else [c]
  | quoted c => Expr.quoteChar c
  | backslash => ['\\', '\\']
  | star => "[^/]*".toList
  | question => "[^/]".toList
  | bracket b => b.text
  | openBracket => ['\\', '[']
  | deepStart => "(?:|.*/)".toList
  | deepMiddle => "(?:/|/.+/)".toList
  | deepEnd => "/.*".toList

/-- The pieces of a pattern; `first` says that no piece precedes. -/
def ofPattern (first : Bool) : List Char → List Piece
  | [] => []
  | ['\\'] => [backslash]
  | '\\' :: c :: rest => quoted c :: ofPattern false rest
  | ['/', '*', '*'] => [deepEnd]
  | '/' :: '*' :: '*' :: '/' :: rest => deepMiddle :: ofPattern false rest
  | '*' :: rest =>
    match first, rest with
    | true, '*' :: '/' :: rest => deepStart :: ofPattern false rest
    | _, rest => star :: ofPattern false rest
  | '?' :: rest => question :: ofPattern false rest
  | '[' :: rest =>
    match _h : Bracket.close? rest with
    | some (slice, after) => bracket (.ofSlice slice) :: ofPattern false after
    | none => openBracket :: ofPattern false rest
  | c :: rest => literal c :: ofPattern false rest
termination_by s => s.length
decreasing_by
  all_goals grind [→ Bracket.close?_length]

end Piece

end Exclusion.Rule
