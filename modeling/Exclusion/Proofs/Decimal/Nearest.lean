import Exclusion.Decimal.Binary
import Mathlib.Algebra.Order.Field.Power
import Mathlib.Algebra.Order.Field.Rat
import Mathlib.Tactic.FieldSimp
import Mathlib.Tactic.Linarith
import Mathlib.Tactic.Positivity
import Mathlib.Tactic.Ring

/-! # How near the nearest number is

Rounding a quotient moves it by at most one half, so what is nearer than that to a whole number becomes that number.
The nearest binary number is as near as half its last place, and the places are as fine as 53 bits allow.
-/

namespace Exclusion.Decimal

section Quotients

variable {num den k : ℕ}

theorem roundQuotient_bounds (num : ℕ) (hden : den ≠ 0) :
    2 * num ≤ 2 * (den * roundQuotient num den) + den ∧ 2 * (den * roundQuotient num den) ≤ 2 * num + den := by
  have hmod := Nat.div_add_mod num den
  have hlt := Nat.mod_lt num (Nat.pos_of_ne_zero hden)
  have hparity := Nat.mod_two_eq_zero_or_one (num / den)
  simp only [roundQuotient]
  split
  · omega
  · split
    · rw [Nat.mul_add, Nat.mul_one]; omega
    · rcases hparity with hp | hp
      · rw [hp, Nat.add_zero]; omega
      · rw [hp, Nat.mul_add, Nat.mul_one]; omega

theorem abs_roundQuotient_sub_le (num : ℕ) (hden : den ≠ 0) :
    |(roundQuotient num den : ℚ) - num / den| ≤ 1 / 2 := by
  have hpos : (0 : ℚ) < den := by positivity
  obtain ⟨hle, hge⟩ := roundQuotient_bounds num hden
  have hle' : 2 * (num : ℚ) ≤ 2 * (den * roundQuotient num den) + den := by exact_mod_cast hle
  have hge' : 2 * ((den : ℚ) * roundQuotient num den) ≤ 2 * num + den := by exact_mod_cast hge
  rw [abs_sub_le_iff]
  constructor
  · rw [sub_le_iff_le_add', ← sub_le_iff_le_add, le_div_iff₀ hpos]; linarith
  · rw [sub_le_iff_le_add, div_le_iff₀ hpos]; linarith

theorem roundQuotient_eq (hden : den ≠ 0) (h : |(num : ℚ) / den - k| < 1 / 2) : roundQuotient num den = k := by
  have hnear : |((roundQuotient num den : ℤ) - (k : ℤ) : ℚ)| < 1 := by
    calc |((roundQuotient num den : ℤ) - (k : ℤ) : ℚ)|
        ≤ |(roundQuotient num den : ℚ) - num / den| + |(num : ℚ) / den - k| := abs_sub_le _ _ _
      _ < 1 / 2 + 1 / 2 := add_lt_add_of_le_of_lt (abs_roundQuotient_sub_le num hden) h
      _ = 1 := by norm_num
  have hint : |(roundQuotient num den : ℤ) - k| < 1 := by exact_mod_cast hnear
  rw [Int.abs_lt_one_iff] at hint
  omega

end Quotients

theorem two_zpow_pos (e : ℤ) : (0 : ℚ) < 2 ^ e := zpow_pos two_pos e

theorem shift_quotient (num den : ℕ) (e : ℤ) :
    ((num <<< e.toNat : ℕ) : ℚ) / (den <<< (-e).toNat : ℕ) = num / den * 2 ^ e := by
  obtain ⟨n, rfl | rfl⟩ := e.eq_nat_or_neg
  · simp [Nat.shiftLeft_eq, mul_div_right_comm]
  · simp [Nat.shiftLeft_eq, zpow_neg, mul_comm (den : ℚ), div_eq_mul_inv, mul_assoc]

theorem shift_quotient_neg (num den : ℕ) (e : ℤ) :
    ((num <<< (-e).toNat : ℕ) : ℚ) / (den <<< e.toNat : ℕ) = num / den * 2 ^ (-e) := by
  simpa only [neg_neg] using shift_quotient num den (-e)

theorem shift_ne_zero {den : ℕ} (hden : den ≠ 0) (n : ℕ) : den <<< n ≠ 0 := by
  simpa [Nat.shiftLeft_eq] using hden

namespace Magnitude

def toRat (x : Magnitude) : ℚ := x.significand * 2 ^ x.exponent

@[simp] theorem toRat_zero : zero.toRat = 0 := by simp [toRat, zero]

theorem roundTimes_eq {x : Magnitude} {n k : ℕ} (h : |x.toRat * n - k| < 1 / 2) : x.roundTimes n = k := by
  refine roundQuotient_eq (by simp [Nat.shiftLeft_eq]) ?_
  have hquotient := shift_quotient x.significand 1 x.exponent
  rw [Nat.cast_one, div_one] at hquotient
  rwa [Nat.cast_mul, mul_div_right_comm, hquotient]

section Nearest

variable {num den : ℕ}

theorem quotient_between (hnum : num ≠ 0) (hden : den ≠ 0) :
    (2 : ℚ) ^ ((num.log2 : ℤ) - den.log2 - 1) < num / den ∧
      (num : ℚ) / den < 2 ^ ((num.log2 : ℤ) - den.log2 + 1) := by
  have hnum₁ : (2 : ℚ) ^ num.log2 ≤ num := by exact_mod_cast Nat.log2_self_le hnum
  have hnum₂ : (num : ℚ) < 2 ^ (num.log2 + 1) := by exact_mod_cast Nat.lt_log2_self
  have hden₁ : (2 : ℚ) ^ den.log2 ≤ den := by exact_mod_cast Nat.log2_self_le hden
  have hden₂ : (den : ℚ) < 2 ^ (den.log2 + 1) := by exact_mod_cast Nat.lt_log2_self
  have hpos : (0 : ℚ) < den := by positivity
  have hpow : (2 : ℚ) ^ ((num.log2 : ℤ) - den.log2) = 2 ^ num.log2 / 2 ^ den.log2 := by
    rw [zpow_sub₀ two_ne_zero, zpow_natCast, zpow_natCast]
  rw [zpow_add_one₀ two_ne_zero, zpow_sub_one₀ two_ne_zero, hpow]
  rw [pow_succ] at hnum₂ hden₂
  constructor
  · calc (2 : ℚ) ^ num.log2 / 2 ^ den.log2 * 2⁻¹
        = 2 ^ num.log2 / (2 ^ den.log2 * 2) := by rw [← div_div, div_eq_mul_inv _ (2 : ℚ)]
      _ ≤ num / (2 ^ den.log2 * 2) := by gcongr
      _ < num / den := by gcongr
  · calc (num : ℚ) / den
        ≤ num / 2 ^ den.log2 := by gcongr
      _ < 2 ^ num.log2 * 2 / 2 ^ den.log2 := by gcongr
      _ = 2 ^ num.log2 / 2 ^ den.log2 * 2 := mul_div_right_comm _ _ _

theorem shift_lt_iff (hden : den ≠ 0) (e : ℤ) (k : ℕ) :
    num <<< (-e).toNat < (den <<< e.toNat) <<< k ↔ (num : ℚ) / den < 2 ^ (e + k) := by
  have hshift : (0 : ℚ) < (den <<< e.toNat : ℕ) := by
    exact_mod_cast Nat.pos_of_ne_zero (shift_ne_zero hden _)
  rw [Nat.shiftLeft_eq (den <<< e.toNat), ← Nat.cast_lt (α := ℚ), Nat.cast_mul, mul_comm, ← div_lt_iff₀ hshift,
    shift_quotient_neg, zpow_add₀ two_ne_zero, zpow_natCast, Nat.cast_pow, Nat.cast_ofNat, zpow_neg, ← div_eq_mul_inv,
    div_lt_iff₀ (two_zpow_pos e), mul_comm]

/-- The last place leaves 53 bits in front of it, unless it is the finest. -/
theorem placeOf_spec (hnum : num ≠ 0) (hden : den ≠ 0) :
    (num : ℚ) / den < 2 ^ (placeOf num den + 53) ∧
      (placeOf num den = minExponent ∨ 2 ^ (placeOf num den + 52) ≤ (num : ℚ) / den) := by
  obtain ⟨hlow, hhigh⟩ := quotient_between hnum hden
  obtain ⟨e, hplace, hlt, hle⟩ : ∃ e, placeOf num den = max minExponent e ∧ (num : ℚ) / den < 2 ^ (e + 53) ∧
      2 ^ (e + 52) ≤ (num : ℚ) / den := by
    simp only [placeOf, shift_lt_iff hden]
    -- The logarithms of both parts leave two places open, and the comparison decides between them.
    have hbelow (d : ℤ) : d - 53 + 52 = d - 1 := by ring
    have habove (d : ℤ) : d - 53 + 1 + 53 = d + 1 ∧ d - 53 + 1 + 52 = d - 53 + (53 : ℕ) := ⟨by ring, by push_cast; ring⟩
    split
    · rename_i h
      exact ⟨_, rfl, h, by rw [hbelow]; exact hlow.le⟩
    · rename_i h
      exact ⟨_, rfl, by rw [(habove _).1]; exact hhigh, by rw [(habove _).2]; exact not_lt.mp h⟩
  rw [hplace]
  refine ⟨hlt.trans_le (zpow_le_zpow_right₀ one_le_two (by omega)), ?_⟩
  rcases le_total e minExponent with h | h
  · exact .inl (max_eq_left h)
  · rw [max_eq_right h]; exact .inr hle

theorem placeOf_le (hnum : num ≠ 0) (hden : den ≠ 0) {k : ℤ} (hk : minExponent ≤ k - 53)
    (h : (num : ℚ) / den < 2 ^ k) : placeOf num den ≤ k - 53 := by
  rcases (placeOf_spec hnum hden).2 with hmin | hle
  · rwa [hmin]
  · have := (zpow_lt_zpow_iff_right₀ one_lt_two).mp (hle.trans_lt h)
    omega

/-- The significand of a quotient, in units of its last place. -/
def significandOf (num den : ℕ) : ℕ :=
  roundQuotient (num <<< (-placeOf num den).toNat) (den <<< (placeOf num den).toNat)

/-- A significand of one bit too many is the same number one place higher. -/
theorem carry_spec (m : ℕ) (e : ℤ) {x : Magnitude} (hx : x = if m = 1 <<< 53 then ⟨1 <<< 52, e + 1⟩ else ⟨m, e⟩) :
    x.exponent ≤ e + 1 ∧ x.toRat = m * 2 ^ e := by
  subst hx
  split
  · rename_i hm
    refine ⟨le_rfl, ?_⟩
    rw [toRat, hm, zpow_add_one₀ two_ne_zero, Nat.shiftLeft_eq, Nat.shiftLeft_eq]
    push_cast
    ring
  · exact ⟨Int.le_add_one le_rfl, rfl⟩

theorem nearest?_eq_some (hnum : num ≠ 0) (h : placeOf num den + 1 < exponentLimit) :
    ∃ x, nearest? num den = some x ∧ x.toRat = significandOf num den * 2 ^ placeOf num den := by
  obtain ⟨hexponent, hvalue⟩ := carry_spec (significandOf num den) (placeOf num den) rfl
  exact ⟨_, (if_neg hnum).trans (if_pos (hexponent.trans_lt h)), hvalue⟩

theorem abs_significandOf_sub_le (num : ℕ) (hden : den ≠ 0) :
    |(significandOf num den : ℚ) - num / den * 2 ^ (-placeOf num den)| ≤ 1 / 2 := by
  have hround := abs_roundQuotient_sub_le (num <<< (-placeOf num den).toNat)
    (shift_ne_zero hden (placeOf num den).toNat)
  rwa [shift_quotient_neg] at hround

theorem significandOf_eq (hden : den ≠ 0) {n : ℕ} (h : (num : ℚ) / den * 2 ^ (-placeOf num den) = n) :
    significandOf num den = n := by
  refine roundQuotient_eq (shift_ne_zero hden _) ?_
  rw [shift_quotient_neg, h, sub_self, abs_zero]
  norm_num

theorem abs_mul_sub_le {m v : ℚ} {e : ℤ} (h : |m - v * 2 ^ (-e)| ≤ 1 / 2) : |m * 2 ^ e - v| ≤ 2 ^ e / 2 := by
  have hpos := two_zpow_pos e
  have hsplit : m * 2 ^ e - v = (m - v * 2 ^ (-e)) * 2 ^ e := by
    rw [sub_mul, mul_assoc, ← zpow_add₀ two_ne_zero, neg_add_cancel, zpow_zero, mul_one]
  rw [hsplit, abs_mul, abs_of_pos hpos, div_eq_inv_mul, ← one_div]
  exact mul_le_mul_of_nonneg_right h hpos.le

/-- The binary number nearest to a quotient below a power of two is off by at most half of its last place. -/
theorem nearest?_near (hden : den ≠ 0) {k : ℤ} (hfine : minExponent ≤ k - 53) (hlimit : k - 52 < exponentLimit)
    (h : (num : ℚ) / den < 2 ^ k) :
    ∃ x, nearest? num den = some x ∧ |x.toRat - num / den| ≤ 2 ^ (k - 53) / 2 := by
  by_cases hnum : num = 0
  · subst hnum
    have hpos := two_zpow_pos (k - 53)
    refine ⟨zero, rfl, ?_⟩
    rw [toRat_zero, Nat.cast_zero, zero_div, sub_zero, abs_zero]
    positivity
  · have hplace := placeOf_le hnum hden hfine h
    obtain ⟨x, hx, hvalue⟩ := @nearest?_eq_some num den hnum (by omega)
    have herror := abs_mul_sub_le (abs_significandOf_sub_le num hden)
    have hpow : (2 : ℚ) ^ placeOf num den ≤ 2 ^ (k - 53) := zpow_le_zpow_right₀ one_le_two hplace
    exact ⟨x, hx, hvalue ▸ herror.trans (by linarith)⟩

/-- Whole numbers of 53 bits are binary numbers. -/
theorem nearest?_whole (hden : den ≠ 0) {n : ℕ} (h : (num : ℚ) / den = n) (hn : n < 2 ^ 53) :
    ∃ x, nearest? num den = some x ∧ x.toRat = n := by
  by_cases hnum : num = 0
  · subst hnum
    exact ⟨zero, rfl, by rw [toRat_zero, ← h]; simp⟩
  · have hlt : (num : ℚ) / den < 2 ^ (53 : ℤ) := by rw [h]; exact_mod_cast hn
    have hplace := placeOf_le hnum hden (by decide) hlt
    rw [sub_self] at hplace
    obtain ⟨x, hx, hvalue⟩ := nearest?_eq_some hnum
      ((add_le_add_left hplace 1).trans_lt (by decide : (0 : ℤ) + 1 < exponentLimit))
    obtain ⟨t, ht⟩ := Int.eq_ofNat_of_zero_le (Int.neg_nonneg.mpr hplace)
    have hshifted : (num : ℚ) / den * 2 ^ (-placeOf num den) = (n * 2 ^ t : ℕ) := by
      rw [h, ht]; push_cast; rfl
    refine ⟨x, hx, ?_⟩
    rw [hvalue, significandOf_eq hden hshifted, ← hshifted, h, mul_assoc, ← zpow_add₀ two_ne_zero, neg_add_cancel,
      zpow_zero, mul_one]

end Nearest

end Magnitude

end Exclusion.Decimal
