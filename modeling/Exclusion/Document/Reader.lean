/-! # Readers

A reader takes something off the front of a text or fails. A choice of readers takes the first that
succeeds, each from the same place.
-/

namespace Exclusion.Document

abbrev Reader := StateT (List Char) Option

namespace Reader

def satisfying (p : Char → Bool) : Reader Char := fun s =>
  match s with
  | c :: rest => if p c then some (c, rest) else none
  | [] => none

def char (c : Char) : Reader Unit := do
  let _ ← satisfying (· == c)

def word (w : String) : Reader Unit := w.toList.forM char

def span (p : Char → Bool) : Reader (List Char) := fun s =>
  some (s.takeWhile p, s.dropWhile p)

def some1 (p : Char → Bool) : Reader (List Char) := do
  let first ← satisfying p
  return first :: (← span p)

def exactly (p : Char → Bool) : Nat → Reader (List Char)
  | 0 => return []
  | n + 1 => do
    let c ← satisfying p
    return c :: (← exactly p n)

def atEnd : Reader Unit := fun s => if s.isEmpty then some ((), []) else none

/-- At most one reading for each character of a text. -/
def manyWithin {α : Type} (r : Reader α) : List Char → Reader (List α)
  | [] => return []
  | _ :: turns => (do
      let a ← r
      return a :: (← manyWithin r turns)) <|> return []

/-- Reads as often as the reader succeeds. A reader that takes at least one character each time never
runs out of turns. -/
def many {α : Type} (r : Reader α) : Reader (List α) := fun s => manyWithin r s s

def separated {α : Type} (r : Reader α) (separator : Reader Unit) : Reader (List α) := do
  let first ← r
  return first :: (← many (separator *> r))

def whole {α : Type} (r : Reader α) (s : List Char) : Option α :=
  ((r <* atEnd).run s).map (·.1)

end Reader

end Exclusion.Document
