import Exclusion.Decimal.Binary

/-! # Decimal numerals

A numeral is a sign, digits with a point somewhere, and a power of ten, or a name for a value beyond
numbers. Its value is the nearest binary number.
-/

namespace Exclusion.Decimal

/-- The number `digits * 10 ^ scale` with a sign. -/
structure Numeral where
  negative : Bool
  digits : Nat
  scale : Int
  deriving DecidableEq, Repr

def tenTo (exponent : Int) : Nat := Nat.pow 10 exponent.toNat

def digitsValue (s : List Char) : Nat :=
  s.foldl (fun n c => 10 * n + (c.toNat - '0'.toNat)) 0

def sign : List Char → Bool × List Char
  | '+' :: rest => (false, rest)
  | '-' :: rest => (true, rest)
  | s => (false, s)

namespace Numeral

def exponent? (s : List Char) : Option Int :=
  let (negative, digits) := sign s
  if digits.isEmpty || !digits.all Char.isDigit then none
  else if negative then some (-(digitsValue digits)) else some (digitsValue digits)

/-- A numeral without sign: digits with at most one point, at least one digit, and perhaps an exponent. -/
def unsigned? (negative : Bool) (s : List Char) : Option Numeral :=
  let whole := s.takeWhile Char.isDigit
  let rest := s.dropWhile Char.isDigit
  let (part, rest) := match rest with
    | '.' :: r => (r.takeWhile Char.isDigit, r.dropWhile Char.isDigit)
    | _ => ([], rest)
  if whole.isEmpty && part.isEmpty then none
  else
    let digits := digitsValue (whole ++ part)
    match rest with
    | [] => some ⟨negative, digits, -part.length⟩
    | c :: exponent =>
      if c == 'e' || c == 'E' then
        (exponent? exponent).map fun e => ⟨negative, digits, e - part.length⟩
      else none

/-- Powers of ten beyond these bounds make every number that is not zero too large or vanish. -/
def scaleBound : Int := 400

/-- The nearest binary number; one that is too large counts as infinite. -/
def value (n : Numeral) : Binary :=
  let length : Int := (Nat.toDigits 10 n.digits).length
  if n.digits = 0 || n.scale + length < -scaleBound then .finite n.negative .zero
  else if scaleBound < n.scale + length then .infinite n.negative
  else
    match Magnitude.nearest? (n.digits * tenTo n.scale) (tenTo (-n.scale)) with
    | some x => .finite n.negative x
    | none => .infinite n.negative

end Numeral

def Binary.ofText? (s : List Char) : Option Binary :=
  let (negative, body) := sign s
  let name := String.ofList (body.map Char.toLower)
  if name == "inf" || name == "infinity" then some (.infinite negative)
  else if name == "nan" then some .notANumber
  else (Numeral.unsigned? negative body).map Numeral.value

end Exclusion.Decimal
