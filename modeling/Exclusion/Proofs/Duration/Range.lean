import Exclusion.Proofs.Decimal.Monotone
import Exclusion.Proofs.Duration.Exact

/-! # Which durations can be read

A number of units is read if so many seconds, and so many units, are less than `2 ^ 64` seconds; otherwise it is
too large. So milliseconds end at a thousandth of what can be stored. Within a unit a larger number never stands
for a shorter duration.
-/

namespace Exclusion.Duration

open Decimal Unicode

/-- A number and a unit, with any white space around them. The number is read as the binary number `x`; only zero
may have a minus. -/
inductive Tells : String → Magnitude → TimeUnit → Prop
  | intro {before number between after : List Char} {negative : Bool} {x : Magnitude} {u : TimeUnit}
    (hbefore : Blank before) (hbetween : Blank between) (hafter : Blank after)
    (hnumber : Binary.ofText? number = some (.finite negative x)) (hsign : negative = true → x.significand = 0)
    (hunit : u ∈ units) : Tells (String.ofList (before ++ number ++ between ++ u.ending ++ after)) x u

section Texts

variable {s before between after : List Char} {negative : Bool} {x : Magnitude} {u : TimeUnit} {text : String}

theorem isWhite_of_inNumeral {c : Char} (hc : InNumeral c) : isWhite c = false := by
  have hall : ['.', 'e', 'E', '+', '-'].all (!isWhite ·) = true := by decide
  rcases hc with hc | hc
  · exact isWhite_of_digit (.inl hc)
  · simpa using List.all_eq_true.mp hall c hc

theorem tight_of_inNumeral (h : ∀ c ∈ s, InNumeral c) : Tight s :=
  ⟨fun c hc => isWhite_of_inNumeral (h c (List.mem_of_mem_head? hc)),
    fun c hc => isWhite_of_inNumeral (h c (List.mem_of_getLast? hc))⟩

theorem not_mem_of_inNumeral (h : ∀ c ∈ s, InNumeral c) (hb : Blank between) : 'm' ∉ s ++ between := by
  intro hm
  rcases List.mem_append.mp hm with hm | hm
  · exact absurd (h 'm' hm) (by unfold InNumeral; decide)
  · exact absurd (hb 'm' hm) (by decide)

theorem tight_of_mem_units (h : u ∈ units) : u.ending ≠ [] ∧ Tight u.ending := by
  simp only [units, List.mem_cons, List.not_mem_nil, or_false] at h
  rcases h with rfl | rfl | rfl
  · exact IsUnit.milliseconds.tight
  · exact IsUnit.seconds.tight
  · exact IsUnit.minutes.tight

def measure? (x : Magnitude) (u : TimeUnit) : Option Duration := (ofMagnitude? x).bind fun d => d.scale? u

theorem readTrimmed_number (hchars : ∀ c ∈ s, InNumeral c) (hne : s ≠ []) (hbetween : Blank between) (hunit : u ∈ units)
    (hnumber : Binary.ofText? s = some (.finite negative x)) (hsign : negative = true → x.significand = 0) :
    readTrimmed (s ++ between ++ u.ending) = (measure? x u).elim (.error .tooLarge) .ok := by
  have hnumeral : trim (s ++ between) = s :=
    @trim_blank s [] between (tight_of_inNumeral hchars) hne (List.forall_mem_nil _) hbetween
  have hlast : (s ++ between).getLast? ≠ some 'm' := fun hlast =>
    not_mem_of_inNumeral hchars hbetween (List.mem_of_getLast? hlast)
  have hpositive : (negative && x.significand != 0) = false := by
    cases negative with
    | false => rfl
    | true => simp [hsign rfl]
  rw [readTrimmed, if_neg (by simp [hne]), splitUnit?_append hlast hunit, hnumeral]
  simp only [hnumber, hpositive, Bool.false_eq_true, if_false, measure?]
  cases (ofMagnitude? x).bind fun d => d.scale? u with
  | none => rfl
  | some d => rfl

/-- A text is read as so many units, or refused because they cannot be stored. -/
theorem Tells.ofText_eq (h : Tells text x u) : ofText text =
    (measure? x u).elim (.error (Fault.tooLarge.message (String.ofList (trim text.toList)))) .ok := by
  obtain ⟨hbefore, hbetween, hafter, hnumber, hsign, hunit⟩ := h
  rename_i before number between after negative
  obtain ⟨hne, hchars⟩ := Binary.inNumeral_of_ofText? hnumber
  obtain ⟨hne', htight'⟩ := tight_of_mem_units hunit
  have htight := (tight_of_inNumeral hchars).enclose htight' hne hne' between
  have htrim : trim (before ++ number ++ between ++ u.ending ++ after) = number ++ between ++ u.ending := by
    rw [List.append_assoc before, List.append_assoc before, List.append_assoc before]
    exact trim_blank htight (by simp [hne]) hbefore hafter
  simp only [ofText, String.toList_ofList, htrim, readTrimmed_number hchars hne hbetween hunit hnumber hsign]
  cases measure? x u <;> rfl

theorem Tells.bits (h : Tells text x u) : x.significand ≤ 2 ^ 53 := by
  obtain ⟨-, -, -, hnumber, -, -⟩ := h
  obtain ⟨n, -, hvalue⟩ := Binary.exists_numeral hnumber
  exact Numeral.value_bits hvalue

theorem Tells.mem_units (h : Tells text x u) : u ∈ units := by
  obtain ⟨-, -, -, -, -, hunit⟩ := h
  exact hunit

end Texts

section Values

variable {x y : Magnitude} {u : TimeUnit} {d : Duration}

theorem storable_iff (d : Duration) : d.Storable ↔ d.nanos < UInt64.size * nanosPerSecond :=
  Nat.div_lt_iff_lt_mul (by decide)

theorem measure?_eq_some (hfactor : 0 < u.factor) : measure? x u = some d ↔
    x.roundTimes nanosPerSecond * u.factor < UInt64.size * nanosPerSecond ∧
      d = ⟨x.roundTimes nanosPerSecond * u.factor / u.divisor⟩ := by
  have hle : x.roundTimes nanosPerSecond ≤ x.roundTimes nanosPerSecond * u.factor := Nat.le_mul_of_pos_right _ hfactor
  simp only [measure?, ofMagnitude?, scale?, Option.bind_eq_some_iff, Option.ite_none_right_eq_some, storable_iff,
    Option.some.injEq]
  constructor
  · rintro ⟨_, ⟨-, rfl⟩, hlt, rfl⟩
    exact ⟨hlt, rfl⟩
  · rintro ⟨hlt, rfl⟩
    exact ⟨_, ⟨hle.trans_lt hlt, rfl⟩, hlt, rfl⟩

theorem measure?_mono (hfactor : 0 < u.factor) (h : x.toRat ≤ y.toRat) (hd : measure? y u = some d) :
    ∃ d', measure? x u = some d' ∧ d'.nanos ≤ d.nanos := by
  obtain ⟨hlt, rfl⟩ := (measure?_eq_some hfactor).mp hd
  have hle : x.roundTimes nanosPerSecond * u.factor ≤ y.roundTimes nanosPerSecond * u.factor :=
    Nat.mul_le_mul_right _ (Magnitude.roundTimes_mono h _)
  exact ⟨_, (measure?_eq_some hfactor).mpr ⟨hle.trans_lt hlt, rfl⟩, Nat.div_le_div_right hle⟩

/-- Rounding to nanoseconds does not change whether so many units can be stored: as long as it does anything, the
number is far below. -/
theorem roundTimes_lt_iff (hbits : x.significand ≤ 2 ^ 53) {factor : ℕ} (hfactor : factor ≤ 60) :
    x.roundTimes nanosPerSecond * factor < UInt64.size * nanosPerSecond ↔ x.toRat * factor < 2 ^ 64 := by
  rcases Magnitude.lt_or_whole hbits with hlt | ⟨k, hk⟩
  · have hround : x.roundTimes nanosPerSecond ≤ 2 ^ 53 * nanosPerSecond :=
      Magnitude.roundTimes_le (by exact_mod_cast hlt.le) _
    have hfactor' : (factor : ℚ) ≤ 60 := by exact_mod_cast hfactor
    refine iff_of_true ?_ ?_
    · calc x.roundTimes nanosPerSecond * factor
          ≤ 2 ^ 53 * nanosPerSecond * 60 := Nat.mul_le_mul hround hfactor
        _ < UInt64.size * nanosPerSecond := by decide
    · calc x.toRat * factor ≤ 2 ^ 53 * 60 := by gcongr
        _ < 2 ^ 64 := by norm_num
  · rw [Magnitude.roundTimes_whole hk, hk, Nat.mul_right_comm, Nat.mul_lt_mul_right (by decide)]
    exact_mod_cast Iff.rfl

theorem factor_of_mem_units (h : u ∈ units) : 0 < u.factor ∧ u.factor ≤ 60 := by
  revert u
  decide

theorem lt_and_lt_iff (h : u ∈ units) {v : ℚ} :
    v < 2 ^ 64 ∧ v * u.factor / u.divisor < 2 ^ 64 ↔ v * u.factor < 2 ^ 64 := by
  simp only [units, List.mem_cons, List.not_mem_nil, or_false] at h
  rcases h with rfl | rfl | rfl
  all_goals
    push_cast
    constructor
    · rintro ⟨h₁, h₂⟩; linarith
    · intro h₁; constructor <;> linarith

end Values

section Results

variable {text text' : String} {x x' : Magnitude} {u : TimeUnit} {d : Duration}

theorem Tells.ofText_eq_ok (h : Tells text x u) : ofText text = .ok d ↔ measure? x u = some d := by
  rw [h.ofText_eq]
  cases measure? x u <;> simp

theorem Tells.exists_ok_iff (h : Tells text x u) :
    (∃ d, ofText text = .ok d) ↔ x.toRat < 2 ^ 64 ∧ x.toRat * u.factor / u.divisor < 2 ^ 64 := by
  obtain ⟨hpos, hle⟩ := factor_of_mem_units h.mem_units
  simp only [h.ofText_eq_ok, measure?_eq_some hpos, lt_and_lt_iff h.mem_units, ← roundTimes_lt_iff h.bits hle]
  exact ⟨fun ⟨_, hlt, _⟩ => hlt, fun hlt => ⟨_, hlt, rfl⟩⟩

/-- A number of units is read exactly if so many seconds and so many units stay below `2 ^ 64` seconds, and is too
large otherwise. In front of the same unit, a number that is not larger is read whenever the other one is, and does
not stand for a longer duration. -/
theorem ofText_range (h : Tells text x u) (h' : Tells text' x' u) :
    ((∃ d, ofText text = .ok d) ↔ x.toRat < 2 ^ 64 ∧ x.toRat * u.factor / u.divisor < 2 ^ 64) ∧
      ((¬ ∃ d, ofText text = .ok d) →
        ofText text = .error (Fault.tooLarge.message (String.ofList (trim text.toList)))) ∧
      (x.toRat ≤ x'.toRat → ∀ d', ofText text' = .ok d' → ∃ d, ofText text = .ok d ∧ d.nanos ≤ d'.nanos) := by
  refine ⟨h.exists_ok_iff, fun hnone => ?_, fun hle d' hd' => ?_⟩
  · have hmeasure : measure? x u = none :=
      Option.eq_none_iff_forall_ne_some.mpr fun d hd => hnone ⟨d, h.ofText_eq_ok.mpr hd⟩
    rw [h.ofText_eq, hmeasure]
    rfl
  · obtain ⟨hpos, -⟩ := factor_of_mem_units h.mem_units
    obtain ⟨d, hd, hnanos⟩ := measure?_mono hpos hle (h'.ofText_eq_ok.mp hd')
    exact ⟨d, h.ofText_eq_ok.mpr hd, hnanos⟩

/-- The largest number of minutes, and one with a fraction. -/
theorem ofText_range_of_minutes : ∃ d d', ofText " 0.1 m" = .ok d ∧ ofText "307445734561825856m" = .ok d' ∧
    d.nanos ≤ d'.nanos := by
  have hunit : (⟨"m".toList, 60, 1⟩ : TimeUnit) ∈ units := by decide
  have hsmall : Tells " 0.1 m" ⟨7205759403792794, -56⟩ ⟨"m".toList, 60, 1⟩ :=
    @Tells.intro [' '] "0.1".toList [' '] [] false _ _ (by decide) (by decide) (by decide) (by decide +kernel)
      nofun hunit
  have hlarge : Tells "307445734561825856m" ⟨4803839602528529, 6⟩ ⟨"m".toList, 60, 1⟩ :=
    @Tells.intro [] "307445734561825856".toList [] [] false _ _ (by decide) (by decide) (by decide) (by decide +kernel)
      nofun hunit
  obtain ⟨hok, -, -⟩ := ofText_range hlarge hlarge
  obtain ⟨d', hd'⟩ := hok.mpr (by norm_num [Magnitude.toRat])
  obtain ⟨-, -, hmono⟩ := ofText_range hsmall hlarge
  obtain ⟨d, hd, hle⟩ := hmono (by norm_num [Magnitude.toRat]) d' hd'
  exact ⟨d, d', hd, hd', hle⟩

/-- As milliseconds, `2 ^ 64` is refused as too large, although it is no more than can be stored. -/
theorem ofText_not_range : ∃ x, Tells "18446744073709551616ms" x ⟨"ms".toList, 1, 1000⟩ ∧
    x.toRat * 1 / 1000 ≤ 2 ^ 64 - 2048 ∧
    ofText "18446744073709551616ms" = .error "duration too large: 18446744073709551616ms" := by
  have hunit : (⟨"ms".toList, 1, 1000⟩ : TimeUnit) ∈ units := by decide
  have h : Tells "18446744073709551616ms" ⟨2 ^ 52, 12⟩ ⟨"ms".toList, 1, 1000⟩ :=
    @Tells.intro [] "18446744073709551616".toList [] [] false _ _ (by decide) (by decide) (by decide)
      (by decide +kernel) nofun hunit
  have hmeasure : measure? ⟨2 ^ 52, 12⟩ ⟨"ms".toList, 1, 1000⟩ = none := by decide +kernel
  have htrim : String.ofList (trim "18446744073709551616ms".toList) = "18446744073709551616ms" := by decide +kernel
  refine ⟨_, h, by norm_num [Magnitude.toRat], ?_⟩
  rw [h.ofText_eq, hmeasure, htrim]
  rfl

end Results

end Exclusion.Duration
