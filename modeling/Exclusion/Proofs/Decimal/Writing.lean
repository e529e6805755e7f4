import Exclusion.Decimal.Numeral
import Exclusion.Proofs.Decimal.Nearest
import Mathlib.Data.List.TakeWhile

/-! # Written numbers

A number is written with digits and at most one point, and perhaps with a power of ten. It is read as what is
written, and then becomes the nearest binary number, unless it is beyond all bounds.
-/

namespace Exclusion.Decimal

/-- Digits with at most one point among them, how many stand behind it, and the number that they write. -/
inductive Positional : List Char → ℕ → ℚ → Prop
  | whole {ds : List Char} (hne : ds ≠ []) (hds : ∀ c ∈ ds, c.isDigit = true) : Positional ds 0 (digitsValue ds)
  | point {ds part : List Char} (hne : ds ++ part ≠ []) (hds : ∀ c ∈ ds ++ part, c.isDigit = true) :
    Positional (ds ++ '.' :: part) part.length (digitsValue (ds ++ part) / 10 ^ part.length)

/-- A number without sign, perhaps with a power of ten behind it. -/
inductive Writes : List Char → ℚ → Prop
  | positional {s : List Char} {places : ℕ} {v : ℚ} (h : Positional s places v) : Writes s v
  | times {s sign ds : List Char} {places : ℕ} {v : ℚ} {e : Char} (h : Positional s places v)
    (he : e = 'e' ∨ e = 'E') (hsign : sign = [] ∨ sign = ['+']) (hne : ds ≠ [])
    (hds : ∀ c ∈ ds, c.isDigit = true) : Writes (s ++ e :: (sign ++ ds)) (v * 10 ^ digitsValue ds)
  | divided {s ds : List Char} {places : ℕ} {v : ℚ} {e : Char} (h : Positional s places v)
    (he : e = 'e' ∨ e = 'E') (hne : ds ≠ []) (hds : ∀ c ∈ ds, c.isDigit = true) :
    Writes (s ++ e :: '-' :: ds) (v / 10 ^ digitsValue ds)

/-- A number with at most so many digits behind the point. -/
def HasPlaces (places : ℕ) (v : ℚ) : Prop := ∃ n : ℕ, v = n / 10 ^ places

section Heads

variable {s : List Char} {places : ℕ} {v : ℚ}

theorem Positional.exists_head (h : Positional s places v) :
    ∃ c rest, s = c :: rest ∧ (c.isDigit = true ∨ c = '.') := by
  cases h with
  | whole hne hds =>
    obtain ⟨c, rest, rfl⟩ := List.exists_cons_of_ne_nil hne
    exact ⟨c, rest, rfl, .inl (hds c List.mem_cons_self)⟩
  | @point ds part hne hds =>
    cases ds with
    | nil => exact ⟨'.', part, rfl, .inr rfl⟩
    | cons c ds => exact ⟨c, ds ++ '.' :: part, rfl, .inl (hds c List.mem_cons_self)⟩

theorem Writes.exists_head (h : Writes s v) : ∃ c rest, s = c :: rest ∧ (c.isDigit = true ∨ c = '.') := by
  cases h with
  | positional h => exact h.exists_head
  | times h he hsign hne hds =>
    obtain ⟨c, rest, rfl, hc⟩ := h.exists_head
    exact ⟨c, _, rfl, hc⟩
  | divided h he hne hds =>
    obtain ⟨c, rest, rfl, hc⟩ := h.exists_head
    exact ⟨c, _, rfl, hc⟩

theorem Positional.getLast? (h : Positional s places v) : ∀ c ∈ s.getLast?, c.isDigit = true ∨ c = '.' := by
  cases h with
  | whole hne hds => exact fun c hc => .inl (hds c (List.mem_of_getLast? hc))
  | @point ds part hne hds =>
    intro c hc
    rw [List.getLast?_append_of_ne_nil _ (List.cons_ne_nil _ _)] at hc
    rcases List.mem_cons.mp (List.mem_of_getLast? hc) with rfl | hc
    · exact .inr rfl
    · exact .inl (hds c (List.mem_append_right _ hc))

theorem Writes.getLast? (h : Writes s v) : ∀ c ∈ s.getLast?, c.isDigit = true ∨ c = '.' := by
  have hdigits {s e ds : List Char} (hne : ds ≠ []) (hds : ∀ c ∈ ds, c.isDigit = true) :
      ∀ c ∈ (s ++ (e ++ ds)).getLast?, c.isDigit = true ∨ c = '.' := by
    intro c hc
    rw [← List.append_assoc, List.getLast?_append_of_ne_nil _ hne] at hc
    exact .inl (hds c (List.mem_of_getLast? hc))
  cases h with
  | positional h => exact h.getLast?
  | @times s sign ds places v e h he hsign hne hds => exact hdigits (e := e :: sign) hne hds
  | @divided s ds places v e h he hne hds => exact hdigits (e := [e, '-']) hne hds

end Heads

section Places

variable {places n : ℕ} {v : ℚ}

theorem HasPlaces.mono (h : HasPlaces places v) (hle : places ≤ n) : HasPlaces n v := by
  obtain ⟨k, rfl⟩ := h
  refine ⟨k * 10 ^ (n - places), ?_⟩
  rw [Nat.cast_mul, Nat.cast_pow, Nat.cast_ofNat, pow_sub₀ _ (by norm_num) hle]
  field_simp

theorem HasPlaces.zero_or_le (h : HasPlaces places v) : v = 0 ∨ 1 / 10 ^ places ≤ v := by
  obtain ⟨k, rfl⟩ := h
  rcases Nat.eq_zero_or_pos k with rfl | hk
  · exact .inl (by simp)
  · refine .inr ?_
    gcongr
    exact_mod_cast hk

theorem Positional.hasPlaces {s : List Char} (h : Positional s places v) : HasPlaces places v := by
  cases h with
  | whole hne hds => exact ⟨digitsValue s, by rw [pow_zero, div_one]⟩
  | @point ds part hne hds => exact ⟨digitsValue (ds ++ part), rfl⟩

end Places

namespace Numeral

def toRat (n : Numeral) : ℚ := n.digits * 10 ^ n.scale

section Reading

variable {s ds rest : List Char} {places : ℕ} {v : ℚ}

theorem span_digits (hds : ∀ c ∈ ds, c.isDigit = true) (hrest : ∀ c ∈ rest.head?, c.isDigit = false) :
    (ds ++ rest).takeWhile Char.isDigit = ds ∧ (ds ++ rest).dropWhile Char.isDigit = rest := by
  rw [List.takeWhile_append_of_pos hds, List.dropWhile_append_of_pos hds]
  cases rest with
  | nil => simp
  | cons c rest => simp [hrest c rfl]

theorem sign_cons {c : Char} (hc : c.isDigit = true ∨ c = '.') : sign (c :: rest) = (false, c :: rest) := by
  unfold sign
  split
  · rename_i heq
    obtain ⟨rfl, -⟩ := List.cons.inj heq
    exact absurd hc (by decide)
  · rename_i heq
    obtain ⟨rfl, -⟩ := List.cons.inj heq
    exact absurd hc (by decide)
  · rfl

theorem sign_of_digits (hds : ∀ c ∈ ds, c.isDigit = true) : sign ds = (false, ds) := by
  cases ds with
  | nil => rfl
  | cons c ds => exact sign_cons (.inl (hds c List.mem_cons_self))

theorem exponent?_digits (hne : ds ≠ []) (hds : ∀ c ∈ ds, c.isDigit = true) :
    exponent? ds = some (digitsValue ds) ∧ exponent? ('+' :: ds) = some (digitsValue ds) ∧
      exponent? ('-' :: ds) = some (-(digitsValue ds : ℤ)) := by
  have hfilled : (ds.isEmpty || !ds.all Char.isDigit) = false := by
    simpa [hne] using hds
  refine ⟨?_, ?_, ?_⟩
  · simp only [exponent?, sign_of_digits hds, hfilled]; rfl
  · simp only [exponent?, sign, hfilled]; rfl
  · simp only [exponent?, sign, hfilled]; rfl

def complete? (negative : Bool) (digits places : ℕ) : List Char → Option Numeral
  | [] => some ⟨negative, digits, -places⟩
  | c :: exponent =>
    if c == 'e' || c == 'E' then (exponent? exponent).map fun e => ⟨negative, digits, e - places⟩ else none

theorem unsigned?_positional (h : Positional s places v) (negative : Bool) :
    ∃ digits : ℕ, v = digits / 10 ^ places ∧ ∀ rest : List Char,
      (∀ c ∈ rest.head?, c.isDigit = false ∧ c ≠ '.') →
        unsigned? negative (s ++ rest) = complete? negative digits places rest := by
  cases h with
  | whole hne hds =>
    refine ⟨digitsValue s, by simp, fun rest hrest => ?_⟩
    obtain ⟨htake, hdrop⟩ := span_digits hds fun c hc => (hrest c hc).1
    have hfilled : (s.isEmpty && [].isEmpty (α := Char)) = false := by simpa using hne
    simp only [unsigned?, htake, hdrop]
    split
    · exact absurd rfl (hrest '.' rfl).2
    · simp only [hfilled, List.append_nil]
      rfl
  | @point ds part hne hds =>
    refine ⟨_, rfl, fun rest hrest => ?_⟩
    have hdigits := List.forall_mem_append.mp hds
    obtain ⟨htake, hdrop⟩ := @span_digits _ ('.' :: (part ++ rest)) hdigits.1
      (by simp only [List.head?_cons, Option.mem_some_iff, forall_eq']; decide)
    obtain ⟨htake', hdrop'⟩ := span_digits hdigits.2 fun c hc => (hrest c hc).1
    have hfilled : (ds.isEmpty && part.isEmpty) = false := by
      simpa [List.append_eq_nil_iff] using hne
    rw [List.append_assoc, List.cons_append]
    simp only [unsigned?, htake, hdrop, htake', hdrop', hfilled]
    rfl

theorem unsigned?_power {e : Char} {exponent : List Char} {k : ℤ} (h : Positional s places v) (he : e = 'e' ∨ e = 'E')
    (hk : exponent? exponent = some k) (negative : Bool) : ∃ n, unsigned? negative (s ++ e :: exponent) = some n ∧
      n.negative = negative ∧ n.toRat = v * 10 ^ k := by
  obtain ⟨digits, rfl, hread⟩ := unsigned?_positional h negative
  have hstop : e.isDigit = false ∧ e ≠ '.' := by rcases he with rfl | rfl <;> decide
  have hmark : (e == 'e' || e == 'E') = true := by simpa using he
  refine ⟨⟨negative, digits, k - places⟩, ?_, rfl, ?_⟩
  · rw [hread _ (by simpa using hstop), complete?, if_pos hmark, hk]; rfl
  · rw [toRat, zpow_sub₀ (by norm_num), zpow_natCast]
    ring

/-- What is written is what is read. -/
theorem unsigned?_writes (h : Writes s v) (negative : Bool) :
    ∃ n, unsigned? negative s = some n ∧ n.negative = negative ∧ n.toRat = v := by
  cases h with
  | positional h =>
    obtain ⟨digits, rfl, hread⟩ := unsigned?_positional h negative
    have hnothing := hread [] nofun
    rw [List.append_nil] at hnothing
    refine ⟨_, hnothing, rfl, ?_⟩
    rw [toRat, zpow_neg, zpow_natCast, div_eq_mul_inv]
  | @times s sign ds places v e h he hsign hne hds =>
    obtain ⟨hplain, hplus, -⟩ := exponent?_digits hne hds
    have hexponent : exponent? (sign ++ ds) = some (digitsValue ds) := by
      rcases hsign with rfl | rfl
      · exact hplain
      · exact hplus
    simpa only [zpow_natCast] using unsigned?_power h he hexponent negative
  | @divided s ds places v e h he hne hds =>
    obtain ⟨-, -, hminus⟩ := exponent?_digits hne hds
    simpa only [zpow_neg, zpow_natCast, ← div_eq_mul_inv] using unsigned?_power h he hminus negative

end Reading

section Values

open Magnitude

variable {n : Numeral}

theorem tenTo_quotient (n : Numeral) : ((n.digits * tenTo n.scale : ℕ) : ℚ) / tenTo (-n.scale) = n.toRat := by
  rw [toRat]
  obtain ⟨k, hk | hk⟩ := n.scale.eq_nat_or_neg
  · rw [hk]; simp [tenTo]
  · rw [hk]; simp [tenTo, div_eq_mul_inv]

theorem toRat_between (h : n.digits ≠ 0) :
    (10 : ℚ) ^ (n.scale + (Nat.toDigits 10 n.digits).length - 1) ≤ n.toRat ∧
      n.toRat < 10 ^ (n.scale + (Nat.toDigits 10 n.digits).length) := by
  obtain ⟨l, hl⟩ := Nat.exists_eq_add_one.mpr (Nat.length_toDigits_pos (b := 10) (n := n.digits))
  have hhigh : n.digits < 10 ^ (l + 1) := (Nat.length_toDigits_le_iff (by decide) l.succ_pos).mp hl.le
  have hlow : 10 ^ l ≤ n.digits := by
    cases l with
    | zero => exact Nat.one_le_iff_ne_zero.mpr h
    | succ l =>
      refine Nat.not_lt.mp fun hlt => ?_
      have := (Nat.length_toDigits_le_iff (by decide) l.succ_pos).mpr hlt
      omega
  have hpos : (0 : ℚ) < 10 ^ n.scale := zpow_pos (by norm_num) _
  have hlow' : (10 : ℚ) ^ l ≤ n.digits := by exact_mod_cast hlow
  have hhigh' : (n.digits : ℚ) < 10 ^ (l + 1) := by exact_mod_cast hhigh
  rw [hl, toRat, mul_comm]
  push_cast
  rw [← add_assoc, add_sub_cancel_right, add_assoc, zpow_add₀ (by norm_num), zpow_add₀ (by norm_num)]
  constructor
  · rw [zpow_natCast]
    exact mul_le_mul_of_nonneg_left hlow' hpos.le
  · exact mul_lt_mul_of_pos_left (by exact_mod_cast hhigh') hpos

theorem value_eq {x : Magnitude} (hlow : n.toRat = 0 ∨ (10 : ℚ) ^ (-scaleBound) ≤ n.toRat)
    (hhigh : n.toRat < 10 ^ scaleBound)
    (hx : nearest? (n.digits * tenTo n.scale) (tenTo (-n.scale)) = some x) : n.value = .finite n.negative x := by
  by_cases hzero : n.digits = 0
  · rw [hzero, Nat.zero_mul] at hx
    obtain rfl : zero = x := Option.some.inj hx
    simp [value, hzero]
  · obtain ⟨hle, hlt⟩ := toRat_between hzero
    have hten : (1 : ℚ) < 10 := by norm_num
    have hpos : 0 < n.toRat := (zpow_pos (by norm_num) _).trans_le hle
    have habove := (zpow_lt_zpow_iff_right₀ hten).mp ((hlow.resolve_left hpos.ne').trans_lt hlt)
    have hbelow := (zpow_lt_zpow_iff_right₀ hten).mp (hle.trans_lt hhigh)
    have hsmall : (decide (n.digits = 0) || decide (n.scale + (Nat.toDigits 10 n.digits).length < -scaleBound)) =
        false := by simpa [hzero] using habove.le
    have hlarge : ¬ scaleBound < n.scale + (Nat.toDigits 10 n.digits).length := by omega
    simp only [value, hsmall, if_neg hlarge, hx]
    rfl

end Values

end Numeral

section Characters

variable {s : List Char} {n : Numeral} {negative : Bool} {x : Magnitude}

def InNumeral (c : Char) : Prop := c.isDigit = true ∨ c ∈ ['.', 'e', 'E', '+', '-']

theorem inNumeral_of_sign (h : ∀ c ∈ (sign s).2, InNumeral c) : ∀ c ∈ s, InNumeral c := by
  unfold sign at h
  split at h
  · exact List.forall_mem_cons.mpr ⟨.inr (by decide), h⟩
  · exact List.forall_mem_cons.mpr ⟨.inr (by decide), h⟩
  · exact h

theorem inNumeral_of_takeWhile (s : List Char) : ∀ c ∈ s.takeWhile Char.isDigit, InNumeral c :=
  fun _ hc => .inl (List.mem_takeWhile_imp hc)

namespace Numeral

theorem inNumeral_of_exponent {e : ℤ} (h : exponent? s = some e) : ∀ c ∈ s, InNumeral c := by
  refine inNumeral_of_sign fun c hc => .inl ?_
  rw [exponent?] at h
  by_contra hdigit
  have hbad : ((sign s).2.isEmpty || !(sign s).2.all Char.isDigit) = true := by
    rw [Bool.or_eq_true, Bool.not_eq_true', List.all_eq_false]
    exact .inr ⟨c, hc, hdigit⟩
  simp only [hbad, if_true, reduceCtorEq] at h

theorem inNumeral_of_complete {digits places : ℕ} (h : complete? negative digits places s = some n) :
    ∀ c ∈ s, InNumeral c := by
  cases s with
  | nil => exact List.forall_mem_nil _
  | cons e exponent =>
    rw [complete?] at h
    obtain ⟨he, hmap⟩ := Option.ite_none_right_eq_some.mp h
    obtain ⟨k, hk, -⟩ := Option.map_eq_some_iff.mp hmap
    refine List.forall_mem_cons.mpr ⟨.inr ?_, inNumeral_of_exponent hk⟩
    rcases Bool.or_eq_true_iff.mp he with he | he
    · rw [beq_iff_eq.mp he]; decide
    · rw [beq_iff_eq.mp he]; decide

/-- Digits and perhaps a point are read first, and then what completes them. -/
theorem exists_complete (h : unsigned? negative s = some n) : ∃ front rest digits places,
    s = front ++ rest ∧ front ≠ [] ∧ (∀ c ∈ front, InNumeral c) ∧ complete? negative digits places rest = some n := by
  have hs := List.takeWhile_append_dropWhile (p := Char.isDigit) (l := s)
  simp only [unsigned?] at h
  split at h
  · rename_i r hr
    obtain ⟨-, hcomplete⟩ := Option.ite_none_left_eq_some.mp h
    have hr' := List.takeWhile_append_dropWhile (p := Char.isDigit) (l := r)
    refine ⟨s.takeWhile Char.isDigit ++ '.' :: r.takeWhile Char.isDigit, _, _, _, ?_, by simp, ?_, hcomplete⟩
    · rw [List.append_assoc, List.cons_append, hr', ← hr, hs]
    · exact List.forall_mem_append.mpr ⟨inNumeral_of_takeWhile s,
        List.forall_mem_cons.mpr ⟨.inr (by decide), inNumeral_of_takeWhile r⟩⟩
  · obtain ⟨hne, hcomplete⟩ := Option.ite_none_left_eq_some.mp h
    refine ⟨s.takeWhile Char.isDigit, _, _, _, hs.symm, ?_, inNumeral_of_takeWhile s, hcomplete⟩
    rintro hnil
    exact hne (by rw [hnil]; rfl)

theorem inNumeral_of_unsigned (h : unsigned? negative s = some n) : s ≠ [] ∧ ∀ c ∈ s, InNumeral c := by
  obtain ⟨front, rest, digits, places, rfl, hne, hfront, hrest⟩ := exists_complete h
  exact ⟨by simp [hne], List.forall_mem_append.mpr ⟨hfront, inNumeral_of_complete hrest⟩⟩

end Numeral

theorem Binary.exists_numeral (h : ofText? s = some (.finite negative x)) :
    ∃ n, Numeral.unsigned? (sign s).1 (sign s).2 = some n ∧ n.value = .finite negative x := by
  simp only [ofText?] at h
  split at h
  · cases h
  · split at h
    · cases h
    · exact Option.map_eq_some_iff.mp h

theorem Binary.inNumeral_of_ofText? (h : ofText? s = some (.finite negative x)) :
    s ≠ [] ∧ ∀ c ∈ s, InNumeral c := by
  obtain ⟨n, hn, -⟩ := exists_numeral h
  obtain ⟨hne, hall⟩ := Numeral.inNumeral_of_unsigned hn
  refine ⟨?_, inNumeral_of_sign hall⟩
  rintro rfl
  exact hne rfl

end Characters

section Names

variable {s : List Char} {v : ℚ} {c : Char}

theorem toLower_of_digit (hc : c.isDigit = true ∨ c = '.') : c.toLower = c := by
  rcases hc with hc | rfl
  · have hle : c.val ≤ '9'.val := by
      rw [Char.isDigit, Bool.and_eq_true, decide_eq_true_iff, decide_eq_true_iff] at hc
      exact hc.2
    exact dif_neg fun h => absurd (UInt32.le_trans h.1 hle) (by decide)
  · rfl

theorem not_name {rest : List Char} (hc : c.isDigit = true ∨ c = '.') (name : String)
    (hname : name ∈ ["inf", "infinity", "nan"]) :
    (String.ofList ((c :: rest).map Char.toLower) == name) = false := by
  refine beq_false_of_ne fun he => ?_
  rw [List.map_cons, toLower_of_digit hc] at he
  subst he
  simp only [List.mem_cons, List.not_mem_nil, or_false] at hname
  rcases hname with hname | hname | hname
  all_goals
    have hhead := congrArg (fun t : String => t.toList.head?) hname
    simp only [String.toList_ofList, List.head?_cons] at hhead
    obtain rfl := Option.some.inj hhead
    exact absurd hc (by decide)

/-- What is written is read as a number. -/
theorem Binary.ofText?_writes (h : Writes s v) :
    ∃ n : Numeral, ofText? s = some n.value ∧ n.negative = false ∧ n.toRat = v := by
  obtain ⟨n, hn, hsign, hvalue⟩ := Numeral.unsigned?_writes h false
  obtain ⟨c, rest, rfl, hc⟩ := h.exists_head
  refine ⟨n, ?_, hsign, hvalue⟩
  simp only [ofText?, Numeral.sign_cons hc, not_name hc "inf" (by decide), not_name hc "infinity" (by decide),
    not_name hc "nan" (by decide), hn]
  rfl

end Names

end Exclusion.Decimal
