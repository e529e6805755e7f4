/-! # Rounding a quotient

A quotient of natural numbers is rounded to the nearest natural number; a quotient halfway between
two of them goes to the even one.
-/

namespace Exclusion.Decimal

/-- The nearest natural number to `num / den`, ties to even. -/
def roundQuotient (num den : Nat) : Nat :=
  let q := num / den
  let twice := 2 * (num % den)
  if twice < den then q else if den < twice then q + 1 else q + q % 2

theorem roundQuotient_le (num den : Nat) : roundQuotient num den ≤ num / den + 1 := by
  simp only [roundQuotient]; grind

theorem le_roundQuotient (num den : Nat) : num / den ≤ roundQuotient num den := by
  simp only [roundQuotient]; grind

end Exclusion.Decimal
