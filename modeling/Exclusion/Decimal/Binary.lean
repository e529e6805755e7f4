import Exclusion.Decimal.Rounding

/-! # Binary numbers of 64 bits

A binary number is a significand of at most 53 bits times a power of two, with a sign, or one of the
values beyond numbers. Every quotient has a nearest binary number; it is found in exact arithmetic.
-/

namespace Exclusion.Decimal

/-- The number `significand * 2 ^ exponent`. -/
structure Magnitude where
  significand : Nat
  exponent : Int
  deriving DecidableEq, Repr

inductive Binary where
  | finite (negative : Bool) (value : Magnitude)
  | infinite (negative : Bool)
  | notANumber
  deriving DecidableEq, Repr

namespace Magnitude

def zero : Magnitude := ⟨0, 0⟩

def quotient (x : Magnitude) : Nat × Nat :=
  (x.significand <<< x.exponent.toNat, 1 <<< (-x.exponent).toNat)

def roundTimes (x : Magnitude) (n : Nat) : Nat :=
  roundQuotient ((x.significand <<< x.exponent.toNat) * n) (1 <<< (-x.exponent).toNat)

def minExponent : Int := -1074

def exponentLimit : Int := 972

/-- The exponent of the last place of a quotient: 53 bits in front of it, unless that is too fine. -/
def placeOf (num den : Nat) : Int :=
  let guess : Int := (num.log2 : Int) - (den.log2 : Int) - 53
  let short := num <<< (-guess).toNat < (den <<< guess.toNat) <<< 53
  max minExponent (if short then guess else guess + 1)

/-- The nearest binary number to `num / den`, ties to even, unless it is too large. -/
def nearest? (num den : Nat) : Option Magnitude :=
  if num = 0 then some zero
  else
    let e := placeOf num den
    let m := roundQuotient (num <<< (-e).toNat) (den <<< e.toNat)
    let x : Magnitude := if m = 1 <<< 53 then ⟨1 <<< 52, e + 1⟩ else ⟨m, e⟩
    if x.exponent < exponentLimit then some x else none

end Magnitude

end Exclusion.Decimal
