import Exclusion.Duration.Read
import Exclusion.Proofs.Decimal.Writing

/-! # Durations that are read exactly

A number with at most nine digits behind the point is nearer than half a nanosecond to its binary number, as long
as it stays below `2 ^ 23`, and a whole number below `2 ^ 53` is its own binary number. So both are read exactly,
whatever the unit and the white space around.
-/

namespace Exclusion.Duration

open Decimal Unicode

/-- A unit by its ending, with its nanoseconds and the digits behind the point that it is read with. -/
inductive IsUnit : List Char → ℕ → ℕ → Prop
  | milliseconds : IsUnit "ms".toList 1000000 6
  | seconds : IsUnit "s".toList 1000000000 9
  | minutes : IsUnit "m".toList 60000000000 9

def Blank (s : List Char) : Prop := ∀ c ∈ s, isWhite c = true

instance (s : List Char) : Decidable (Blank s) := List.decidableBAll (isWhite · = true) s

/-- A number below `2 ^ 23` with at most so many digits behind the point, or a whole number below `2 ^ 53`. -/
def Usable (places : ℕ) (v : ℚ) : Prop := v < 2 ^ 23 ∧ HasPlaces places v ∨ v < 2 ^ 53 ∧ HasPlaces 0 v

section Text

variable {s before after ending : List Char}

/-- A text that begins and ends with other characters than white space. -/
structure Tight (s : List Char) : Prop where
  first : ∀ c ∈ s.head?, isWhite c = false
  last : ∀ c ∈ s.getLast?, isWhite c = false

theorem Tight.enclose {t : List Char} (hs : Tight s) (ht : Tight t) (hne : s ≠ []) (hne' : t ≠ [])
    (between : List Char) : Tight (s ++ between ++ t) := by
  constructor
  · rw [List.append_assoc, List.head?_append_of_ne_nil _ hne]; exact hs.first
  · rw [List.getLast?_append_of_ne_nil _ hne']; exact ht.last

theorem trimStart_blank (hb : Blank before) (hs : ∀ c ∈ s.head?, isWhite c = false) :
    trimStart (before ++ s) = s := by
  rw [trimStart, List.dropWhile_append_of_pos hb]
  cases s with
  | nil => rfl
  | cons c s => exact List.dropWhile_cons_of_neg (by simp [hs c rfl])

theorem trim_blank (hs : Tight s) (hne : s ≠ []) (hb : Blank before) (ha : Blank after) :
    trim (before ++ (s ++ after)) = s := by
  have hfirst : ∀ c ∈ (s ++ after).head?, isWhite c = false := by
    rw [List.head?_append_of_ne_nil _ hne]; exact hs.first
  have hlast : ∀ c ∈ s.reverse.head?, isWhite c = false := by
    rw [List.head?_reverse]; exact hs.last
  rw [trim, trimStart_blank hb hfirst, trimEnd, List.reverse_append, trimStart_blank _ hlast, List.reverse_reverse]
  exact fun c hc => ha c (List.mem_reverse.mp hc)

theorem stripEnding?_append (ending s : List Char) : stripEnding? ending (s ++ ending) = some s := by
  rw [stripEnding?, if_pos (by simp)]
  simp

theorem stripEnding?_of_not_suffix (h : ¬ ending <:+ s) : stripEnding? ending s = none :=
  if_neg (by simpa using h)

theorem not_suffix_concat (ending s : List Char) {c d : Char} (h : c ≠ d) : ¬ ending ++ [c] <:+ s ++ [d] := by
  rintro ⟨t, ht⟩
  rw [← List.append_assoc] at ht
  exact h (List.append_singleton_inj.mp ht).2

theorem not_suffix_of_getLast? {c d : Char} (h : s.getLast? ≠ some c) : ¬ [c, d] <:+ s ++ [d] := by
  rintro ⟨t, ht⟩
  have hs : t ++ [c] = s := List.append_cancel_right (by simpa using ht : t ++ [c] ++ [d] = s ++ [d])
  exact h (hs ▸ List.getLast?_concat)

theorem splitUnit?_append (hs : s.getLast? ≠ some 'm') {u : TimeUnit} (hu : u ∈ units) :
    splitUnit? (s ++ u.ending) = some (trim s, u) := by
  simp only [units, List.mem_cons, List.not_mem_nil, or_false] at hu
  rcases hu with rfl | rfl | rfl
  · simp only [splitUnit?, units, List.findSome?_cons, stripEnding?_append, Option.map_some]
  · have hms : stripEnding? "ms".toList (s ++ "s".toList) = none :=
      stripEnding?_of_not_suffix (not_suffix_of_getLast? hs)
    simp only [splitUnit?, units, List.findSome?_cons, hms, stripEnding?_append, Option.map_some, Option.map_none]
  · have hms : stripEnding? "ms".toList (s ++ "m".toList) = none :=
      stripEnding?_of_not_suffix (not_suffix_concat ['m'] s (by decide))
    have hs : stripEnding? "s".toList (s ++ "m".toList) = none :=
      stripEnding?_of_not_suffix (not_suffix_concat [] s (by decide))
    simp only [splitUnit?, units, List.findSome?_cons, hms, hs, stripEnding?_append, Option.map_some, Option.map_none]

theorem isWhite_of_digit {c : Char} (hc : c.isDigit = true ∨ c = '.') : isWhite c = false := by
  have hnone : ∀ n < 58, 46 ≤ n → whiteSpace.mem n = false := by decide
  rcases hc with hc | rfl
  · rw [Char.isDigit, Bool.and_eq_true, decide_eq_true_iff, decide_eq_true_iff] at hc
    have hlow : 48 ≤ c.toNat := hc.1
    have hhigh : c.toNat ≤ 57 := hc.2
    exact hnone c.toNat (by omega) (by omega)
  · decide

theorem tight_of_writes {v : ℚ} (h : Writes s v) : s ≠ [] ∧ Tight s := by
  refine ⟨?_, ?_, fun c hc => isWhite_of_digit (h.getLast? c hc)⟩
  · obtain ⟨c, rest, rfl, -⟩ := h.exists_head
    exact List.cons_ne_nil c rest
  · obtain ⟨c, rest, rfl, hc⟩ := h.exists_head
    rintro d ⟨⟩
    exact isWhite_of_digit hc

theorem getLast?_ne_of_writes {v : ℚ} {between : List Char} (h : Writes s v) (hb : Blank between) :
    (s ++ between).getLast? ≠ some 'm' := by
  intro hlast
  rw [List.getLast?_append, Option.or_eq_some_iff] at hlast
  rcases hlast with hlast | ⟨-, hlast⟩
  · exact absurd (hb 'm' (List.mem_of_getLast? hlast)) (by decide)
  · exact absurd (h.getLast? 'm' hlast) (by decide)

end Text

section Values

variable {x : Magnitude} {k n places : ℕ} {v : ℚ}

theorem Usable.hasPlaces (h : Usable places v) : HasPlaces places v :=
  h.elim (·.2) fun h => h.2.mono (Nat.zero_le places)

theorem Usable.mono (h : Usable places v) (hle : places ≤ n) : Usable n v :=
  h.imp_left fun h => ⟨h.1, h.2.mono hle⟩

theorem Usable.lt (h : Usable places v) : v < 2 ^ 53 :=
  h.elim (fun h => h.1.trans (by norm_num)) (·.1)

theorem storable_of_lt (h : k < UInt64.size * nanosPerSecond) : Storable ⟨k⟩ :=
  (Nat.div_lt_iff_lt_mul (by decide)).mpr h

theorem ofMagnitude?_eq (h : |x.toRat * nanosPerSecond - k| < 1 / 2) (hk : k < UInt64.size * nanosPerSecond) :
    ofMagnitude? x = some ⟨k⟩ := by
  rw [ofMagnitude?, Magnitude.roundTimes_eq h]
  exact if_pos (storable_of_lt hk)

/-- The binary number nearest to a usable number is off by less than half a nanosecond, whole numbers not at all. -/
theorem Usable.exists_nearest {n : Numeral} (h : Usable 9 n.toRat) :
    ∃ x, Magnitude.nearest? (n.digits * tenTo n.scale) (tenTo (-n.scale)) = some x ∧
      |x.toRat - n.toRat| * nanosPerSecond < 1 / 2 := by
  have hden : tenTo (-n.scale) ≠ 0 := by simp [tenTo]
  rcases h with ⟨hlt, -⟩ | ⟨hlt, k, hk⟩
  · -- Half of the last place, which is `2 ^ (-30)`, is less than 0.47 nanoseconds.
    have hlt' : n.toRat < 2 ^ (23 : ℤ) := by exact_mod_cast hlt
    rw [← Numeral.tenTo_quotient] at hlt' ⊢
    obtain ⟨x, hx, hnear⟩ := Magnitude.nearest?_near hden (by decide) (by decide) hlt'
    refine ⟨x, hx, (mul_le_mul_of_nonneg_right hnear (Nat.cast_nonneg _)).trans_lt ?_⟩
    norm_num [nanosPerSecond]
  · rw [pow_zero, div_one] at hk
    have hlt' : k < 2 ^ 53 := by rw [hk] at hlt; exact_mod_cast hlt
    obtain ⟨x, hx, hvalue⟩ := Magnitude.nearest?_whole hden ((Numeral.tenTo_quotient n).trans hk) hlt'
    exact ⟨x, hx, by rw [hvalue, hk, sub_self, abs_zero, zero_mul]; norm_num⟩

theorem Usable.bounded (h : Usable 9 v) :
    (v = 0 ∨ (10 : ℚ) ^ (-Numeral.scaleBound) ≤ v) ∧ v < 10 ^ Numeral.scaleBound := by
  have hten : (1 : ℚ) ≤ 10 := by norm_num
  constructor
  · refine h.hasPlaces.zero_or_le.imp_right fun hle => le_trans ?_ hle
    rw [one_div, ← zpow_natCast, ← zpow_neg]
    exact zpow_le_zpow_right₀ hten (by decide)
  · calc v < 2 ^ 53 := h.lt
      _ < 10 ^ (16 : ℤ) := by norm_num
      _ ≤ 10 ^ Numeral.scaleBound := zpow_le_zpow_right₀ hten (by decide)

theorem Usable.value_near {n : Numeral} (h : Usable 9 n.toRat) : ∃ x, n.value = .finite n.negative x ∧
    |x.toRat * nanosPerSecond - n.toRat * nanosPerSecond| < 1 / 2 := by
  obtain ⟨x, hx, hnear⟩ := h.exists_nearest
  obtain ⟨hlow, hhigh⟩ := h.bounded
  refine ⟨x, Numeral.value_eq hlow hhigh hx, ?_⟩
  rwa [← sub_mul, abs_mul, Nat.abs_cast]

end Values

theorem IsUnit.exists_unit {ending : List Char} {nanos places : ℕ} (h : IsUnit ending nanos places) :
    ∃ u ∈ units, u.ending = ending ∧ nanosPerSecond * u.factor = nanos * u.divisor ∧ u.divisor ≠ 0 ∧ u.factor ≤ 60 := by
  cases h with
  | milliseconds => exact ⟨⟨"ms".toList, 1, 1000⟩, by decide, rfl, by decide, by decide, by decide⟩
  | seconds => exact ⟨⟨"s".toList, 1, 1⟩, by decide, rfl, by decide, by decide, by decide⟩
  | minutes => exact ⟨⟨"m".toList, 60, 1⟩, by decide, rfl, by decide, by decide, by decide⟩

theorem IsUnit.tight {ending : List Char} {nanos places : ℕ} (h : IsUnit ending nanos places) :
    ending ≠ [] ∧ Tight ending := by
  cases h <;> refine ⟨by decide, ?_, ?_⟩ <;> (rintro c ⟨⟩; decide)

theorem IsUnit.places_le {ending : List Char} {nanos places : ℕ} (h : IsUnit ending nanos places) : places ≤ 9 := by
  cases h <;> decide

theorem IsUnit.exists_nanos {ending : List Char} {nanos places : ℕ} {v : ℚ} (h : IsUnit ending nanos places)
    (hv : HasPlaces places v) : ∃ n : ℕ, v * nanos = n := by
  obtain ⟨k, rfl⟩ := hv
  obtain ⟨q, hq⟩ : ∃ q, nanos = q * 10 ^ places := by
    cases h with
    | milliseconds => exact ⟨1, rfl⟩
    | seconds => exact ⟨1, rfl⟩
    | minutes => exact ⟨60, rfl⟩
  refine ⟨k * q, ?_⟩
  subst hq
  push_cast
  field_simp

theorem scale?_eq {k n : ℕ} {u : TimeUnit} (h : k * u.factor = n * u.divisor) (hdivisor : u.divisor ≠ 0)
    (hk : k * u.factor < UInt64.size * nanosPerSecond) : scale? ⟨k⟩ u = some ⟨n⟩ := by
  rw [scale?, if_pos (storable_of_lt hk), h, Nat.mul_div_cancel n (Nat.pos_of_ne_zero hdivisor)]

/-- A number of units as it is read in front of their ending. -/
theorem exists_scaled {numeral ending : List Char} {nanos places : ℕ} {v : ℚ} (hunit : IsUnit ending nanos places)
    (hn : Writes numeral v) (hv : Usable places v) :
    ∃ u ∈ units, u.ending = ending ∧ ∃ x d, Binary.ofText? numeral = some (.finite false x) ∧
      ((ofMagnitude? x).bind fun d => d.scale? u) = some d ∧ (d.nanos : ℚ) = v * nanos := by
  obtain ⟨u, hu, hending, hratio, hdivisor, hfactor⟩ := hunit.exists_unit
  obtain ⟨n, hread, hsign, rfl⟩ := Binary.ofText?_writes hn
  have hseconds : Usable 9 n.toRat := hv.mono hunit.places_le
  obtain ⟨k, hk⟩ := IsUnit.seconds.exists_nanos hseconds.hasPlaces
  obtain ⟨m, hm⟩ := hunit.exists_nanos hv.hasPlaces
  obtain ⟨x, hx, hnear⟩ := hseconds.value_near
  have hscaled : k * u.factor = m * u.divisor := by
    have hratio' : (nanosPerSecond : ℚ) * u.factor = nanos * u.divisor := by exact_mod_cast hratio
    have hcast : (k : ℚ) * u.factor = m * u.divisor := by rw [← hk, ← hm, mul_assoc, mul_assoc, ← hratio']; rfl
    exact_mod_cast hcast
  have hk' : k < 2 ^ 53 * nanosPerSecond := by
    have hcast : (k : ℚ) < (2 ^ 53 : ℕ) * nanosPerSecond := by
      rw [← hk]; push_cast; exact mul_lt_mul_of_pos_right hv.lt (by norm_num)
    exact_mod_cast hcast
  have hmagnitude : ofMagnitude? x = some ⟨k⟩ :=
    ofMagnitude?_eq (hk ▸ hnear) (hk'.trans (by decide))
  have hlt : k * u.factor < UInt64.size * nanosPerSecond :=
    calc k * u.factor ≤ k * 60 := Nat.mul_le_mul_left k hfactor
      _ < 2 ^ 53 * nanosPerSecond * 60 := Nat.mul_lt_mul_of_pos_right hk' (by decide)
      _ ≤ UInt64.size * nanosPerSecond := by decide
  refine ⟨u, hu, hending, x, ⟨m⟩, ?_, ?_, hm.symm⟩
  · rw [hread, hx, hsign]
  · rw [hmagnitude]
    exact scale?_eq hscaled hdivisor hlt

/-- A number with at most nine digits behind the point, or six for milliseconds, that is below `2 ^ 23`, and a whole
number below `2 ^ 53`, is read as exactly so many units, with any white space around it and around the unit. -/
theorem ofText_exact {before numeral between ending after : List Char} {nanos places : ℕ} {v : ℚ}
    (hbefore : Blank before) (hbetween : Blank between) (hafter : Blank after) (hunit : IsUnit ending nanos places)
    (hn : Writes numeral v) (hv : Usable places v) :
    ∃ d, ofText (String.ofList (before ++ numeral ++ between ++ ending ++ after)) = .ok d ∧
      (d.nanos : ℚ) = v * nanos := by
  obtain ⟨u, hu, rfl, x, d, hnumber, hscaled, hnanos⟩ := exists_scaled hunit hn hv
  obtain ⟨hne, htight⟩ := tight_of_writes hn
  obtain ⟨hne', htight'⟩ := hunit.tight
  have hnumeral : trim (numeral ++ between) = numeral :=
    @trim_blank numeral [] between htight hne (List.forall_mem_nil _) hbetween
  have hread : readTrimmed (numeral ++ between ++ u.ending) = .ok d := by
    rw [readTrimmed, if_neg (by simp [hne]), splitUnit?_append (getLast?_ne_of_writes hn hbetween) hu, hnumeral]
    simp [hnumber, hscaled]
  have htrim : trim (before ++ (numeral ++ between ++ u.ending ++ after)) = numeral ++ between ++ u.ending :=
    trim_blank (htight.enclose htight' hne hne' between) (by simp [hne]) hbefore hafter
  refine ⟨d, ?_, hnanos⟩
  simp only [ofText, String.toList_ofList]
  rw [List.append_assoc before, List.append_assoc before, List.append_assoc before, htrim, hread]

/-- As close below `2 ^ 23` as nine digits behind the point allow. -/
theorem ofText_exact_of_nine_digits :
    ∃ d, ofText " 8388607.999999999\tm\n" = .ok d ∧ d.nanos = 8388607999999999 * 60 := by
  have hn : Positional "8388607.999999999".toList 9 (digitsValue "8388607999999999".toList / 10 ^ 9) :=
    @Positional.point "8388607".toList "999999999".toList (by decide) (List.all_eq_true.mp (by decide))
  have hvalue : digitsValue "8388607999999999".toList = 8388607999999999 := by decide
  rw [hvalue] at hn
  obtain ⟨d, hd, hnanos⟩ := ofText_exact (by decide : Blank [' ']) (by decide : Blank ['\t'])
    (by decide : Blank ['\n']) .minutes (.positional hn) (.inl ⟨by norm_num, hn.hasPlaces⟩)
  refine ⟨d, hd, ?_⟩
  have hcast : (d.nanos : ℚ) = (8388607999999999 * 60 : ℕ) := by rw [hnanos]; norm_num
  exact_mod_cast hcast

end Exclusion.Duration
