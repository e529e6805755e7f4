import Exclusion.Decimal.Numeral

/-! # The shortest decimal text of a binary number

Among the decimal numbers that a binary number is nearest to, the text shows one with the fewest
digits, and of those the one closest to it. It is written without an exponent and always has a
point.
-/

namespace Exclusion.Decimal

/-- The exponent of the first decimal digit of `num / den`, starting from a guess that is not too
large. -/
def leadingPlace (num den : Nat) : Nat → Int → Int
  | 0, p => p
  | fuel + 1, p =>
    if den * tenTo (p + 1) ≤ num * tenTo (-(p + 1)) then leadingPlace num den fuel (p + 1)
    else p

def Magnitude.ofDecimal? (d : Nat) (s : Int) : Option Magnitude :=
  nearest? (d * tenTo s) (tenTo (-s))

/-- The digits and the scale of the shortest decimal, trying `count` digits and more. -/
def shortestFrom (x : Magnitude) (place : Int) : Nat → Nat → Nat × Int
  | 0, _ => (0, 0)
  | fuel + 1, count =>
    let s := place - count + 1
    let (num, den) := x.quotient
    let num := num * tenTo (-s)
    let den := den * tenTo s
    let low := num / den
    let fits (d : Nat) : Bool := Magnitude.ofDecimal? d s == some x
    match fits low, fits (low + 1) with
    | true, true => (if 2 * (num % den) ≤ den then low else low + 1, s)
    | true, false => (low, s)
    | false, true => (low + 1, s)
    | false, false => shortestFrom x place fuel (count + 1)

def dropZeros : Nat → Nat → Int → Nat × Int
  | 0, d, s => (d, s)
  | fuel + 1, d, s => if d % 10 = 0 ∧ d ≠ 0 then dropZeros fuel (d / 10) (s + 1) else (d, s)

def shortest (x : Magnitude) : Nat × Int :=
  let (num, den) := x.quotient
  let guess : Int := ((num.log2 : Int) - (den.log2 : Int) - 1) * 30103 / 100000 - 2
  let (d, s) := shortestFrom x (leadingPlace num den 8 guess) 17 1
  dropZeros 20 d s

def positional (d : Nat) (s : Int) : List Char :=
  let digits := Nat.toDigits 10 d
  if 0 ≤ s then digits ++ List.replicate s.toNat '0' ++ ['.', '0']
  else
    let places := (-s).toNat
    let padded := List.replicate (places + 1 - digits.length) '0' ++ digits
    padded.take (padded.length - places) ++ '.' :: padded.drop (padded.length - places)

def Magnitude.text (x : Magnitude) : List Char :=
  if x.significand = 0 then ['0', '.', '0']
  else
    let (d, s) := shortest x
    positional d s

def Binary.text : Binary → String
  | .finite negative x => String.ofList ((if negative then ['-'] else []) ++ x.text)
  | .infinite negative => if negative then "-inf" else "inf"
  | .notANumber => "NaN"

end Exclusion.Decimal
