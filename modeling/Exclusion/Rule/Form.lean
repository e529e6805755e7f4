import Exclusion.Rule.Piece

/-! # The form of a rule line

A line that is neither blank nor a comment says which paths it selects, as an anchored expression,
and whether it selects or releases them. A slash inside the line binds it to the root, a slash at
its end to directories, and a selected directory always takes its contents with it.
-/

namespace Exclusion.Rule

structure Form where
  /-- The anchored expression. -/
  text : List Char
  negated : Bool
  deriving DecidableEq, Repr

namespace Form

/-- The line without carriage returns at its end and then without spaces at both ends. -/
def trim (line : List Char) : List Char :=
  let noReturns := (line.reverse.dropWhile (· == '\r')).reverse
  ((noReturns.dropWhile (· == ' ')).reverse.dropWhile (· == ' ')).reverse

def dropEndSlash (s : List Char) : List Char :=
  if s.getLast? = some '/' then s.dropLast else s

def dropStartSlash : List Char → List Char
  | '/' :: rest => rest
  | s => s

def starDot : List Char → Bool
  | '*' :: '.' :: _ => true
  | c :: rest => c != '\n' && starDot rest
  | [] => false

/-- Whether a slash behind a character other than `/` and `+` has `*.` to its right. -/
def rootless : List Char → Bool
  | [] => false
  | c :: rest =>
    match rest with
    | '/' :: r => (c != '/' && c != '+' && starDot r) || rootless rest
    | _ => rootless rest

/-- Puts a slash before a pattern of the form `directory/….extension` that has none. -/
def insertSlash (pattern : List Char) : List Char :=
  if pattern.head? != some '/' && rootless pattern then '/' :: pattern else pattern

/-- A leading `/**/` means the same as a leading `**/`. -/
def dropDeepSlash : List Char → List Char
  | '/' :: '*' :: '*' :: '/' :: rest => '*' :: '*' :: '/' :: rest
  | s => s

def body (pattern : List Char) : List Char :=
  (Piece.ofPattern true (dropDeepSlash (insertSlash pattern))).flatMap Piece.text

def head (anchored : Bool) : List Char :=
  if anchored then "^(?:|/)".toList else "^(?:|.*/)".toList

def tail (directory : Bool) : List Char :=
  if directory then "(?:|.*)$".toList else "(?:|/.*)$".toList

def assemble (anchored directory : Bool) (body : List Char) : List Char :=
  head anchored ++ (if anchored then dropStartSlash body else body) ++ tail directory

def ofLine? (line : List Char) : Option Form :=
  let line := trim line
  if line.isEmpty || line.head? == some '#' then none
  else
    let directory := line.getLast? == some '/'
    let anchored := '/' ∈ dropEndSlash line
    let (negated, pattern) :=
      match line with
      | '!' :: rest => (true, rest)
      | _ => (false, line)
    if pattern.isEmpty then none
    else some ⟨assemble anchored directory (body pattern), negated⟩

end Form

end Exclusion.Rule
