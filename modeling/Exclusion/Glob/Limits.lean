import Exclusion.Expr.Compile
import Exclusion.Glob.Token

/-! # How large a glob may be

The expression of a glob is written as a text, and that text is compiled under the limits of any other
expression. How deep it nests, and an estimate of the bytes that it takes once compiled, are added up
token by token.
-/

namespace Exclusion.Glob

/-- A stretch of text: how many parts it has, how deep these nest, and what they weigh. -/
structure Bulk where
  parts : Nat
  depth : Nat
  weight : Nat
  deriving DecidableEq, Repr

namespace Bulk

def empty : Bulk := ⟨0, 0, 0⟩

/-- The text around that of the tokens: a flag, and an anchor at either end. -/
def frame : Bulk := ⟨3, 0, 64⟩

def add (b c : Bulk) : Bulk := ⟨b.parts + c.parts, max b.depth c.depth, b.weight + c.weight⟩

/-- Several parts nest one level deeper than each by itself. -/
def nesting (b : Bulk) : Nat := if b.parts ≤ 1 then b.depth else b.depth + 1

def single (b : Bulk) : Bulk := ⟨1, b.nesting, b.weight⟩

/-- A group of branches, which is not written if there are none. -/
def group (branches : Bulk) : Bulk :=
  match branches.parts with
  | 0 => empty
  | 1 => ⟨1, branches.nesting + 1, branches.weight⟩
  | n => ⟨1, branches.nesting + 1, branches.weight + 64 + 4 * n⟩

def fits (b : Bulk) : Bool := b.nesting ≤ Expr.maxDepth && b.weight ≤ Expr.maxWeight

end Bulk

def rangeMembers (low high : Char) : Nat :=
  if low = high then (charBytes low).length else (charBytes low).length + (charBytes high).length - 1

def setBulk (ranges : List (Char × Char)) : Bulk :=
  let members := ranges.foldl (fun n (a, b) => n + rangeMembers a b) 0
  ⟨1, if members ≤ 1 then 1 else 2, 64 + 8 * members⟩

mutual

def Token.bulk : Token → Bulk
  | .literal c => ⟨(charBytes c).length, 0, 32 * (charBytes c).length⟩
  | .any => ⟨1, 0, 72⟩
  | .star => ⟨1, 1, 112⟩
  | .deepPrefix => ⟨1, 4, 320⟩
  | .deepSuffix => ⟨2, 1, 144⟩
  | .deepMiddle => ⟨1, 4, 280⟩
  | .set _ ranges => setBulk ranges
  | .choice branches => (branchesBulk .empty branches).group

def bulkOf (b : Bulk) : List Token → Bulk
  | [] => b
  | t :: rest => bulkOf (b.add t.bulk) rest

def branchesBulk (b : Bulk) : List (List Token) → Bulk
  | [] => b
  | s :: rest => if isBlank s then branchesBulk b rest else branchesBulk (b.add (bulkOf .empty s).single) rest

end

def wholeBulk : List Token → Bulk
  | [.deepPrefix] => Bulk.frame.add Token.star.bulk
  | ts => bulkOf .frame ts

def compile? (ts : List Token) : Option Expr :=
  if (wholeBulk ts).fits then some (wholeExpr ts) else none

end Exclusion.Glob
