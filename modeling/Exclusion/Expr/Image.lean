import Exclusion.Expr.Basic

/-! # Searching a text

The positions of a text form a finite set, and an expression maps a set of starting positions to the
set of positions where a match from one of them can end. Reading a unit shifts the set, choice is
union, and repetition iterates the map until nothing changes, so a search never runs back.
-/

namespace Exclusion

def positions : Option Nat → List Nat → List (Option Nat × Option Nat)
  | before, [] => [(before, none)]
  | before, c :: rest => (before, some c) :: positions (some c) rest

namespace Expr

/-- A set of positions: the entry for each position says whether it belongs to the set. -/
abbrev Places := List Bool

def Places.union (s t : Places) : Places := List.zipWith (· || ·) s t

def Places.none (s : Places) : Bool := s.all (! ·)

/-- The positions after a unit of the set `a`, from a position in `s`. -/
def advance (text : List Nat) (a : Charset) (s : Places) : Places :=
  false :: List.zipWith (fun here c => here && a.mem c) s text

def stay (text : List Nat) (l : Look) (s : Places) : Places :=
  List.zipWith (fun here (b, a) => here && l.holds b a) s (positions .none text)

def iterate (f : Places → Places) : Nat → Places → Places
  | 0, s => s
  | n + 1, s =>
    let next := f s
    if next = s then s else iterate f n next

/-- The positions from which a match can begin, mapped to those where it can end. -/
def image (text : List Nat) : Expr → Places → Places
  | empty, s => s
  | atom a, s => advance text a s
  | look l, s => stay text l s
  | seq a b, s =>
    let middle := image text a s
    if middle.none then middle else image text b middle
  | alt a b, s => (image text a s).union (image text b s)
  | loop a least most, s =>
    let begun := iterate (image text a) least s
    let further := match most with
      | some m => m - least
      | none => text.length + 1
    iterate (fun s => s.union (image text a s)) further begun

def found (e : Expr) (text : List Nat) : Bool :=
  (image text e (List.replicate (text.length + 1) true)).any id

def accepts (e : Expr) (text : List Nat) : Bool :=
  (image text e (true :: List.replicate text.length false)).getLast? == some true

end Expr

end Exclusion
