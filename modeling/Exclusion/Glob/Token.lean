import Exclusion.Expr.Image

/-! # Glob tokens

A glob is a list of tokens. It is matched against the bytes of a whole path, so `?` and a class read
one byte, and `*` reads any bytes, slashes among them. `**` next to slashes stands for directories.
-/

namespace Exclusion.Glob

inductive Token where
  | literal (c : Char)
  /-- `?`: any byte. -/
  | any
  /-- `*`: any bytes. -/
  | star
  /-- `**/` at the start: any directories, or none. -/
  | deepPrefix
  /-- `/**` at the end: everything below. -/
  | deepSuffix
  /-- `/**/`: zero or more directories in between. -/
  | deepMiddle
  | set (negated : Bool) (ranges : List (Char × Char))
  /-- `{a,b}`: any of the branches. -/
  | choice (branches : List (List Token))
  deriving Repr

def charBytes (c : Char) : List Nat :=
  (String.utf8EncodeChar c).map UInt8.toNat

def pathBytes (path : String) : List Nat :=
  path.toList.flatMap charBytes

def slash : Expr := .char '/'

def anyByte : Expr := .atom (.range 0 0xFF)

def anyBytes : Expr := .star anyByte

/-- The bytes of a class member. A range runs from the last byte of its lower end to the first byte
of its upper end, and the other bytes of both are members by themselves. -/
def rangeSet (low high : Char) : Charset :=
  if low = high then .unions ((charBytes low).map .single)
  else
    let a := charBytes low
    let b := charBytes high
    .unions (a.dropLast.map .single ++ [.range (a.getLast?.getD 0) (b.head?.getD 0)]
      ++ (b.drop 1).map .single)

def setOf (negated : Bool) (ranges : List (Char × Char)) : Charset :=
  let members := Charset.unions (ranges.map fun (a, b) => rangeSet a b)
  if negated then .compl members else members

mutual

/-- Whether a token stands for nothing at all, as a choice without any text does. -/
def Token.isBlank : Token → Bool
  | .choice branches => allBlank branches
  | _ => false

def isBlank : List Token → Bool
  | [] => true
  | t :: rest => t.isBlank && isBlank rest

def allBlank : List (List Token) → Bool
  | [] => true
  | b :: rest => isBlank b && allBlank rest

end

mutual

def Token.expr : Token → Expr
  | .literal c => .seqs ((charBytes c).map fun b => .atom (.single b))
  | .any => anyByte
  | .star => anyBytes
  | .deepPrefix => .alt (.optional slash) (.seq anyBytes slash)
  | .deepSuffix => .seq slash anyBytes
  | .deepMiddle => .alt slash (.seqs [slash, anyBytes, slash])
  | .set negated ranges => .atom (setOf negated ranges)
  | .choice branches => .alts (branchExprs branches)

def exprOf : List Token → Expr
  | [] => .empty
  | t :: rest => .seq t.expr (exprOf rest)

def branchExprs : List (List Token) → List Expr
  | [] => []
  | b :: rest => if isBlank b then branchExprs rest else exprOf b :: branchExprs rest

end

/-- A whole glob; one that stands for directories alone matches every path. -/
def wholeExpr : List Token → Expr
  | [.deepPrefix] => anyBytes
  | ts => exprOf ts

end Exclusion.Glob
