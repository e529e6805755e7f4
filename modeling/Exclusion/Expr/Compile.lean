import Exclusion.Expr.Read
import Exclusion.Expr.Weight
import Exclusion.Expr.Image

/-! # Compiling an expression text

A text compiles if it is an expression, does not nest too deep, and is not too large. Several texts
compile together under one limit for their joint size.
-/

namespace Exclusion.Expr

/-- How deep groups, classes, repetitions, branches and sequences may nest. -/
def maxDepth : Nat := 250

/-- How many bytes a compiled expression may take. -/
def maxWeight : Nat := 10 <<< 20

def parse (text : List Char) : Except Fault Expr := do
  let item ← read text
  if maxDepth < item.depth then .error .tooDeep else return item.expr

def compile (text : List Char) : Except Fault Expr := do
  let e ← parse text
  if maxWeight < e.weight then .error .tooLarge else return e

def units (s : String) : List Nat :=
  s.toList.map Char.toNat

def matchesText (e : Expr) (s : String) : Bool :=
  e.found (units s)

end Exclusion.Expr
