import Exclusion.Expr.Basic

/-! # The size of a compiled expression

An estimate, in bytes, of what a compiled expression takes. A character costs a fixed amount for each
byte of its UTF-8 form, a set what its ranges need, and a repetition a copy of its body for each time
that it counts.
-/

namespace Exclusion

def utf8Size (c : Nat) : Nat :=
  if c < 0x80 then 1 else if c < 0x800 then 2 else if c < 0x10000 then 3 else 4

/-- One unit of a set: a single character by its bytes, a set beyond ASCII by its ranges as well. -/
def Charset.weight (a : Charset) : Nat :=
  match a with
  | .ranges [(lo, hi)] => if lo = hi then 32 * utf8Size lo else if hi < 0x80 then 72 else 600
  | _ => if a.withinAscii && a.extent < 20 then 72 else 500 + 64 * a.extent

namespace Expr

def readsNothing : Expr → Bool
  | empty => true
  | atom _ => false
  | look _ => true
  | seq a b => a.readsNothing && b.readsNothing
  | alt a b => a.readsNothing && b.readsNothing
  | loop a _ most => a.readsNothing || most == some 0

/-- How many copies of its body a repetition keeps; more than one of an empty match is no use. -/
def copies (nothing : Bool) (least : Nat) (most : Option Nat) : Nat :=
  let count := match most with
    | some m => m
    | none => max least 1
  if nothing then min count 1 else count

def weight : Expr → Nat
  | empty => 0
  | atom a => a.weight
  | look _ => 32
  | seq a b => a.weight + b.weight
  | alt a b => a.weight + b.weight + 32
  | loop a least most => copies a.readsNothing least most * a.weight + 32

def jointWeight : List Expr → Nat
  | [] => 0
  | e :: rest => e.weight + jointWeight rest

end Expr

end Exclusion
