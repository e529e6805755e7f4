import Exclusion.Unicode.Fold

/-! # Character sets

A set of code units, given by ranges and closed under union, intersection, complement and case
folding. Membership is decided by the shape of the set. The same sets serve for characters, where
a unit is a code point, and for bytes.
-/

namespace Exclusion

inductive Charset where
  /-- Ascending ranges, both ends included. -/
  | ranges (rs : List (Nat × Nat))
  | union (a b : Charset)
  | inter (a b : Charset)
  | compl (a : Charset)
  /-- Everything that is the same as a member up to case. -/
  | folded (a : Charset)
  /-- Everything that is the same as a member up to the case of the letters A to Z. -/
  | asciiFolded (a : Charset)
  deriving DecidableEq, Repr

namespace Charset

def inRanges (c : Nat) : List (Nat × Nat) → Bool
  | [] => false
  | (lo, hi) :: rest => if c < lo then false else c ≤ hi || inRanges c rest

def asciiSameCase (c : Nat) : List Nat :=
  if 0x41 ≤ c && c ≤ 0x5A then [c, c + 0x20]
  else if 0x61 ≤ c && c ≤ 0x7A then [c, c - 0x20]
  else [c]

def mem : Charset → Nat → Bool
  | ranges rs, c => inRanges c rs
  | union a b, c => a.mem c || b.mem c
  | inter a b, c => a.mem c && b.mem c
  | compl a, c => !a.mem c
  | folded a, c => (Unicode.sameCase c).any a.mem
  | asciiFolded a, c => (asciiSameCase c).any a.mem

def empty : Charset := .ranges []

def range (lo hi : Nat) : Charset := .ranges [(lo, hi)]

def single (c : Nat) : Charset := range c c

def full : Charset := range 0 0x10FFFF

def ascii : Charset := range 0 0x7F

def diff (a b : Charset) : Charset := .inter a (.compl b)

def symmDiff (a b : Charset) : Charset := .union (diff a b) (diff b a)

def unions : List Charset → Charset
  | [] => empty
  | [a] => a
  | a :: rest => .union a (unions rest)

def withinAscii (a : Charset) : Bool :=
  (List.range 0x80).all fun i => !a.mem (0x80 + i)

/-- How many ranges the set is written with. -/
def extent : Charset → Nat
  | ranges rs => rs.length
  | union a b => a.extent + b.extent
  | inter a b => a.extent + b.extent
  | compl a => a.extent + 1
  | folded a => 2 * a.extent
  | asciiFolded a => 2 * a.extent

@[simp] theorem mem_empty (c : Nat) : empty.mem c = false := rfl

@[simp] theorem mem_range (lo hi c : Nat) : (range lo hi).mem c = (decide (lo ≤ c) && decide (c ≤ hi)) := by
  simp only [range, mem, inRanges]
  split <;> grind

@[simp] theorem mem_single (a c : Nat) : (single a).mem c = decide (c = a) := by
  simp only [single, mem_range]; grind

@[simp] theorem mem_diff (a b : Charset) (c : Nat) : (diff a b).mem c = (a.mem c && !b.mem c) := rfl

@[simp] theorem mem_unions (s : List Charset) (c : Nat) : (unions s).mem c = s.any (·.mem c) := by
  fun_induction unions s <;> simp_all [mem]

/-! Ranges in text form: hexadecimal numbers and `low-high` pairs between blanks. -/

/-- What has been read so far: whole ranges in reverse, a lower end, and the digits of a number. -/
structure Reading where
  done : List (Nat × Nat)
  low : Option Nat
  value : Option Nat

def Reading.flush (r : Reading) : Reading :=
  match r.low, r.value with
  | some lo, some hi => ⟨(lo, hi) :: r.done, none, none⟩
  | none, some v => ⟨(v, v) :: r.done, none, none⟩
  | _, none => ⟨r.done, none, none⟩

def Reading.step (r : Reading) (c : Char) : Reading :=
  if c.isDigit then { r with value := some (16 * r.value.getD 0 + (c.toNat - '0'.toNat)) }
  else if 'A' ≤ c && c ≤ 'F' then
    { r with value := some (16 * r.value.getD 0 + (c.toNat - 'A'.toNat + 10)) }
  else if c == '-' then { r with low := r.value, value := none }
  else r.flush

def ofText (s : String) : Charset :=
  .ranges (s.toList.foldl Reading.step ⟨[], none, none⟩).flush.done.reverse

end Charset

end Exclusion
