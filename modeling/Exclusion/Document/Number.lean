import Exclusion.Decimal.Numeral
import Exclusion.Document.Text

/-! # Numbers

Whole numbers of 64 bits in four bases, and decimal numbers with a point or an exponent. Single
underscores may stand between digits.
-/

namespace Exclusion.Document

open Reader

/-- Digits, with at most one underscore between each two, which are dropped. -/
def digitRun (p : Char → Bool) : Reader (List Char) := do
  let first ← satisfying p
  let rest ← many (optional (char '_') *> satisfying p)
  return first :: rest

def sign : Reader Bool :=
  (char '-' *> return true) <|> (char '+' *> return false) <|> return false

def wholePart : Reader (List Char) :=
  (char '0' *> return ['0']) <|> digitRun Char.isDigit

def fitting (n : Int) : Reader Int :=
  if Int64.minValue.toInt ≤ n ∧ n ≤ Int64.maxValue.toInt then return n else failure

def inBase (letter : Char) (base : Nat) : Reader Int := do
  char '0'
  char letter
  let digits ← digitRun fun c => isHexDigit c && hexDigitValue c < base
  fitting (digits.foldl (fun n c => base * n + hexDigitValue c) 0 : Nat)

def integer : Reader Int :=
  inBase 'x' 16 <|> inBase 'o' 8 <|> inBase 'b' 2 <|> do
    let negative ← sign
    let n := Decimal.digitsValue (← wholePart)
    fitting (if negative then -n else n)

def exponent : Reader Int := do
  char 'e' <|> char 'E'
  let negative ← sign
  let n := Decimal.digitsValue (← digitRun Char.isDigit)
  return if negative then -n else n

/-- A decimal number has a point or an exponent. One above the largest binary number is refused; one
below the smallest counts as infinite. -/
def decimal : Reader Decimal.Binary := do
  let negative ← sign
  let whole ← wholePart
  let fraction ← optional (char '.' *> digitRun Char.isDigit)
  let exponent ← optional exponent
  if fraction.isNone && exponent.isNone then failure
  else
    let part := fraction.getD []
    let x := (⟨negative, Decimal.digitsValue (whole ++ part), exponent.getD 0 - part.length⟩
      : Decimal.Numeral).value
    if x = .infinite false then failure else return x

def special : Reader Decimal.Binary := do
  let negative ← sign
  (word "inf" *> return .infinite negative) <|> (word "nan" *> return .notANumber)

def float : Reader Decimal.Binary := decimal <|> special

end Exclusion.Document
