import Exclusion.Expr.Compile

/-! # Pattern sets

Several expressions tried together, of which the first in order of declaration counts. A set is
compiled as a whole: a text that does not compile on its own is to blame, and otherwise, when only
their joint size is too much, the last one is.
-/

namespace Exclusion

structure PatternSet where
  sources : List String
  exprs : List Expr
  deriving Repr

namespace PatternSet

structure Blame where
  index : Nat
  pattern : String
  fault : Expr.Fault
  deriving DecidableEq, Repr

/-- The diagnostic of the expression is for its reader to find. -/
def Blame.message (b : Blame) : String :=
  "pattern #" ++ toString b.index ++ " `" ++ b.pattern ++ "`: "

/-- The first pattern from position `index` on that does not compile on its own. -/
def firstBad (index : Nat) : List String → Option Blame
  | [] => none
  | p :: rest =>
    match Expr.compile p.toList with
    | .error e => some ⟨index, p, e⟩
    | .ok _ => firstBad (index + 1) rest

/-- The expressions of all patterns, within the limit on their joint size. -/
def compileAll (patterns : List String) : Except Expr.Fault (List Expr) := do
  let exprs ← patterns.mapM fun p => Expr.parse p.toList
  if Expr.maxWeight < Expr.jointWeight exprs then .error .tooLarge else return exprs

def ofPatterns (patterns : List String) : Except Blame PatternSet :=
  match compileAll patterns with
  | .ok exprs => .ok ⟨patterns, exprs⟩
  | .error e =>
    match firstBad 0 patterns with
    | some blame => .error blame
    | none => .error ⟨patterns.length - 1, patterns.getLast?.getD "", e⟩

def length (s : PatternSet) : Nat := s.sources.length

def isEmpty (s : PatternSet) : Bool := s.sources.isEmpty

def source? (s : PatternSet) (index : Nat) : Option String := s.sources[index]?

def find? (s : PatternSet) (input : String) : Option Nat :=
  s.exprs.findIdx? (·.matchesText input)

def isMatch (s : PatternSet) (input : String) : Bool :=
  s.exprs.any (·.matchesText input)

end PatternSet

end Exclusion
