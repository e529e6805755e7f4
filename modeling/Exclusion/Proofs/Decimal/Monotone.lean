import Exclusion.Decimal.Numeral
import Exclusion.Proofs.Decimal.Nearest

/-! # Rounding keeps the order

A larger quotient is never rounded to a smaller number. The nearest binary number has 53 bits at most, so that it is
whole from `2 ^ 53` on, and then its multiples need no rounding.
-/

namespace Exclusion.Decimal

section Quotients

variable {num den num' den' k : ℕ}

theorem roundQuotient_one (k : ℕ) : roundQuotient k 1 = k := by
  simp [roundQuotient, Nat.mod_one]

theorem roundQuotient_mul_right (num den : ℕ) (hk : 0 < k) :
    roundQuotient (num * k) (den * k) = roundQuotient num den := by
  simp only [roundQuotient, Nat.mul_div_mul_right _ _ hk, Nat.mul_mod_mul_right, ← Nat.mul_assoc,
    Nat.mul_lt_mul_right hk]

theorem roundQuotient_mono_left (h : num ≤ num') : roundQuotient num den ≤ roundQuotient num' den := by
  rcases (Nat.div_le_div_right (c := den) h).lt_or_eq with hlt | heq
  · calc roundQuotient num den
        ≤ num / den + 1 := roundQuotient_le num den
      _ ≤ num' / den := hlt
      _ ≤ roundQuotient num' den := le_roundQuotient num' den
  · have hmod : num % den ≤ num' % den := by
      have hnum := Nat.div_add_mod num den
      have hnum' := Nat.div_add_mod num' den
      rw [heq] at hnum
      omega
    simp only [roundQuotient, heq]
    split <;> split <;> grind

/-- Rounding keeps the order of quotients. -/
theorem roundQuotient_mono (hden : den ≠ 0) (hden' : den' ≠ 0) (h : (num : ℚ) / den ≤ num' / den') :
    roundQuotient num den ≤ roundQuotient num' den' := by
  have hpos : 0 < den := Nat.pos_of_ne_zero hden
  have hpos' : 0 < den' := Nat.pos_of_ne_zero hden'
  have hcross : num * den' ≤ num' * den := by
    rw [div_le_div_iff₀ (by exact_mod_cast hpos) (by exact_mod_cast hpos')] at h
    exact_mod_cast h
  calc roundQuotient num den
      = roundQuotient (num * den') (den * den') := (roundQuotient_mul_right num den hpos').symm
    _ ≤ roundQuotient (num' * den) (den * den') := roundQuotient_mono_left hcross
    _ = roundQuotient (num' * den) (den' * den) := by rw [Nat.mul_comm den]
    _ = roundQuotient num' den' := roundQuotient_mul_right num' den' hpos

theorem roundQuotient_le_of_le (hden : den ≠ 0) (h : (num : ℚ) / den ≤ k) : roundQuotient num den ≤ k := by
  have hk : (num : ℚ) / den ≤ (k : ℕ) / (1 : ℕ) := by simpa using h
  exact (roundQuotient_mono hden one_ne_zero hk).trans_eq (roundQuotient_one k)

end Quotients

namespace Magnitude

variable {x y : Magnitude} {n k : ℕ}

theorem quotient_times (x : Magnitude) (n : ℕ) :
    ((x.significand <<< x.exponent.toNat * n : ℕ) : ℚ) / (1 <<< (-x.exponent).toNat : ℕ) = x.toRat * n := by
  have hquotient := shift_quotient x.significand 1 x.exponent
  rw [Nat.cast_one, div_one] at hquotient
  rw [Nat.cast_mul, mul_div_right_comm, hquotient, toRat]

theorem roundTimes_mono (h : x.toRat ≤ y.toRat) (n : ℕ) : x.roundTimes n ≤ y.roundTimes n := by
  refine roundQuotient_mono (shift_ne_zero one_ne_zero _) (shift_ne_zero one_ne_zero _) ?_
  rw [quotient_times, quotient_times]
  exact mul_le_mul_of_nonneg_right h n.cast_nonneg

theorem roundTimes_le (h : x.toRat ≤ k) (n : ℕ) : x.roundTimes n ≤ k * n := by
  refine roundQuotient_le_of_le (shift_ne_zero one_ne_zero _) ?_
  rw [quotient_times, Nat.cast_mul]
  exact mul_le_mul_of_nonneg_right h n.cast_nonneg

theorem roundTimes_whole (h : x.toRat = k) (n : ℕ) : x.roundTimes n = k * n :=
  roundTimes_eq (by rw [h, Nat.cast_mul, sub_self, abs_zero]; norm_num)

theorem lt_or_whole (h : x.significand ≤ 2 ^ 53) : x.toRat < 2 ^ 53 ∨ ∃ k : ℕ, x.toRat = k := by
  have hbits : (x.significand : ℚ) ≤ 2 ^ 53 := by exact_mod_cast h
  rcases le_or_gt 0 x.exponent with he | he
  · obtain ⟨e, he⟩ := Int.eq_ofNat_of_zero_le he
    refine .inr ⟨x.significand * 2 ^ e, ?_⟩
    rw [toRat, he]
    push_cast
    rfl
  · have hone : (2 : ℚ) ^ x.exponent < 1 := zpow_lt_one_of_neg₀ one_lt_two he
    left
    calc x.toRat ≤ 2 ^ 53 * 2 ^ x.exponent := mul_le_mul_of_nonneg_right hbits (two_zpow_pos _).le
      _ < 2 ^ 53 * 1 := mul_lt_mul_of_pos_left hone (by norm_num)
      _ = 2 ^ 53 := mul_one _

variable {num den : ℕ}

theorem significandOf_le (hnum : num ≠ 0) (hden : den ≠ 0) : significandOf num den ≤ 2 ^ 53 := by
  refine roundQuotient_le_of_le (shift_ne_zero hden _) ?_
  have hpos := two_zpow_pos (-placeOf num den)
  calc ((num <<< (-placeOf num den).toNat : ℕ) : ℚ) / (den <<< (placeOf num den).toNat : ℕ)
      = num / den * 2 ^ (-placeOf num den) := shift_quotient_neg _ _ _
    _ ≤ 2 ^ (placeOf num den + 53) * 2 ^ (-placeOf num den) :=
        mul_le_mul_of_nonneg_right (placeOf_spec hnum hden).1.le hpos.le
    _ = ((2 ^ 53 : ℕ) : ℚ) := by
        rw [← zpow_add₀ two_ne_zero, add_neg_cancel_comm]; norm_num

theorem carry_bits {m : ℕ} (h : m ≤ 2 ^ 53) (e : ℤ) (hx : x = if m = 1 <<< 53 then ⟨1 <<< 52, e + 1⟩ else ⟨m, e⟩) :
    x.significand ≤ 2 ^ 53 := by
  subst hx
  split
  · exact (by decide : 1 <<< 52 ≤ 2 ^ 53)
  · exact h

theorem nearest?_bits (hden : den ≠ 0) (h : nearest? num den = some x) : x.significand ≤ 2 ^ 53 := by
  by_cases hnum : num = 0
  · rw [nearest?, if_pos hnum] at h
    obtain rfl := Option.some.inj h
    exact Nat.zero_le _
  · have hle := significandOf_le hnum hden
    rw [nearest?, if_neg hnum] at h
    obtain ⟨-, he⟩ := Option.ite_none_right_eq_some.mp h
    exact carry_bits hle _ (Option.some.inj he).symm

end Magnitude

theorem Numeral.value_bits {n : Numeral} {negative : Bool} {x : Magnitude} (h : n.value = .finite negative x) :
    x.significand ≤ 2 ^ 53 := by
  rw [Numeral.value] at h
  split at h
  · cases h
    exact Nat.zero_le _
  · split at h
    · cases h
    · split at h
      · rename_i hx
        cases h
        exact Magnitude.nearest?_bits (by simp [tenTo]) hx
      · cases h

end Exclusion.Decimal
