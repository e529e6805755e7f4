import Exclusion.Unicode.Property

/-! # Expressions

An expression describes texts over code units: it reads units of a set, looks at the two units
around a position, and combines expressions by sequence, choice and repetition. Groups leave no
trace, since only whether a text has a match is of interest.
-/

namespace Exclusion

inductive WordEdge where
  | boundary
  | noBoundary
  | start
  | finish
  | startHalf
  | finishHalf
  deriving DecidableEq, Repr

/-- A condition on a position that reads nothing. -/
inductive Look where
  | textStart
  | textEnd
  | lineStart
  | lineEnd
  /-- The start of a line when carriage returns end lines too. -/
  | crlfStart
  | crlfEnd
  | word (edge : WordEdge) (unicode : Bool)
  deriving DecidableEq, Repr

inductive Expr where
  | empty
  | atom (set : Charset)
  | look (l : Look)
  | seq (a b : Expr)
  | alt (a b : Expr)
  /-- At least `least` and, when given, at most `most` times. -/
  | loop (a : Expr) (least : Nat) (most : Option Nat)
  deriving DecidableEq, Repr

namespace WordEdge

def holds (before after : Bool) : WordEdge → Bool
  | boundary => before != after
  | noBoundary => before == after
  | start => !before && after
  | finish => before && !after
  | startHalf => !before
  | finishHalf => !after

end WordEdge

namespace Look

def newline : Nat := 0x0A
def carriageReturn : Nat := 0x0D

def asciiWord : Charset := .ranges [(0x30, 0x39), (0x41, 0x5A), (0x5F, 0x5F), (0x61, 0x7A)]

def isWord (unicode : Bool) : Option Nat → Bool
  | none => false
  | some c => (if unicode then Unicode.word else asciiWord).mem c

def holds (before after : Option Nat) : Look → Bool
  | textStart => before.isNone
  | textEnd => after.isNone
  | lineStart => before.isNone || before == some newline
  | lineEnd => after.isNone || after == some newline
  | crlfStart =>
    before.isNone || before == some newline
      || (before == some carriageReturn && after != some newline)
  | crlfEnd =>
    after.isNone || after == some carriageReturn
      || (after == some newline && before != some carriageReturn)
  | word edge unicode => edge.holds (isWord unicode before) (isWord unicode after)

end Look

namespace Expr

def char (c : Char) : Expr := .atom (.single c.toNat)

def optional (a : Expr) : Expr := .loop a 0 (some 1)

def star (a : Expr) : Expr := .loop a 0 none

def plus (a : Expr) : Expr := .loop a 1 none

def seqs : List Expr → Expr
  | [] => .empty
  | [a] => a
  | a :: rest => .seq a (seqs rest)

def alts : List Expr → Expr
  | [] => .empty
  | [a] => a
  | a :: rest => .alt a (alts rest)

end Expr

end Exclusion
