import Exclusion.Proofs.Expr.Joint

/-! # Sets search as scans do

A set of texts fails to compile exactly if one of them fails alone, and then blames the first that does.
Otherwise it finds the first of them that matches alone, and matches exactly if it finds one.
-/

namespace Exclusion

/-- The text at this position is the first of which this holds. -/
def FirstAt (p : String → Prop) (texts : List String) (i : Nat) : Prop :=
  (∃ t, texts[i]? = some t ∧ p t) ∧ ∀ j < i, ∀ t, texts[j]? = some t → ¬ p t

section FirstAt

variable {p : String → Prop} {t : String} {texts : List String} {i : Nat}

theorem firstAt_zero : FirstAt p (t :: texts) 0 ↔ p t := by
  simp [FirstAt]

theorem firstAt_succ : FirstAt p (t :: texts) (i + 1) ↔ ¬ p t ∧ FirstAt p texts i := by
  constructor
  · rintro ⟨hi, hj⟩
    exact ⟨hj 0 (Nat.succ_pos i) t rfl, hi, fun j hji => hj (j + 1) (Nat.succ_lt_succ hji)⟩
  · rintro ⟨ht, hi, hj⟩
    refine ⟨hi, fun j hji u hu => ?_⟩
    cases j with
    | zero => cases hu; exact ht
    | succ j => exact hj j (Nat.lt_of_succ_lt_succ hji) u hu

theorem FirstAt.exists_mem (h : FirstAt p texts i) : ∃ t ∈ texts, p t := by
  obtain ⟨⟨t, ht, hp⟩, -⟩ := h
  exact ⟨t, List.mem_of_getElem? ht, hp⟩

theorem FirstAt.unique {j : Nat} (h : FirstAt p texts i) (h' : FirstAt p texts j) : i = j := by
  obtain ⟨⟨t, ht, hp⟩, hbefore⟩ := h
  obtain ⟨⟨u, hu, hp'⟩, hbefore'⟩ := h'
  rcases Nat.lt_trichotomy i j with hij | hij | hij
  · exact absurd hp (hbefore' i hij t ht)
  · exact hij
  · exact absurd hp' (hbefore j hij u hu)

theorem findIdx?_eq_some_iff_firstAt {α : Type} {q : α → Bool} {as : List α}
    (h : List.Forall₂ (fun t a => p t ↔ q a = true) texts as) :
    as.findIdx? q = some i ↔ FirstAt p texts i := by
  induction h generalizing i with
  | nil => simp [FirstAt]
  | @cons t a texts as hta _ ih =>
    rw [List.findIdx?_cons]
    by_cases ha : q a = true
    · rw [if_pos ha]
      cases i with
      | zero => simpa [firstAt_zero] using hta.mpr ha
      | succ i => simpa [firstAt_succ] using fun hn => absurd (hta.mpr ha) hn
    · rw [if_neg ha]
      have ht : ¬ p t := mt hta.mp ha
      cases i with
      | zero => simpa [firstAt_zero] using ht
      | succ i => simpa [firstAt_succ, ht] using ih

theorem findIdx?_eq_none_iff_forall_not {α : Type} {q : α → Bool} {as : List α}
    (h : List.Forall₂ (fun t a => p t ↔ q a = true) texts as) :
    as.findIdx? q = none ↔ ∀ t ∈ texts, ¬ p t := by
  induction h with
  | nil => simp
  | cons hta _ ih =>
    rw [List.forall_mem_cons, ← ih, hta, List.findIdx?_cons]
    split <;> simp_all

end FirstAt

namespace PatternSet

/-- The text is refused when it is compiled alone. -/
def FailsAlone (text : String) : Prop := ∃ f, Expr.compile text.toList = .error f

/-- The text, compiled alone, matches the input. -/
def MatchesAlone (input text : String) : Prop :=
  ∃ e, Expr.compile text.toList = .ok e ∧ e.matchesText input = true

instance (text : String) : Decidable (FailsAlone text) :=
  match h : Expr.compile text.toList with
  | .error f => .isTrue ⟨f, h⟩
  | .ok e => .isFalse fun ⟨f, hf⟩ => by rw [h] at hf; cases hf

instance (input text : String) : Decidable (MatchesAlone input text) :=
  match h : Expr.compile text.toList with
  | .error f => .isFalse fun ⟨e, he, _⟩ => by rw [h] at he; cases he
  | .ok e => decidable_of_iff (e.matchesText input = true)
      ⟨fun hm => ⟨e, h, hm⟩, fun ⟨e', he, hm⟩ => by rw [h] at he; cases he; exact hm⟩

variable {texts : List String} {exprs : List Expr} {index : Nat} {b : Blame}

theorem firstAt_of_firstBad (h : firstBad index texts = some b) :
    ∃ i, b.index = index + i ∧ FirstAt FailsAlone texts i ∧ texts[i]? = some b.pattern ∧
      Expr.compile b.pattern.toList = .error b.fault := by
  induction texts generalizing index with
  | nil => cases h
  | cons t texts ih =>
    rw [firstBad] at h
    cases he : Expr.compile t.toList with
    | error f =>
      rw [he] at h
      cases h
      exact ⟨0, rfl, firstAt_zero.mpr ⟨f, he⟩, rfl, he⟩
    | ok e =>
      rw [he] at h
      obtain ⟨i, hi, hfirst, hp, hf⟩ := ih h
      have ht : ¬ FailsAlone t := fun ⟨f, hf⟩ => by rw [he] at hf; cases hf
      exact ⟨i + 1, by omega, firstAt_succ.mpr ⟨ht, hfirst⟩, hp, hf⟩

theorem not_failsAlone_of_mapM (h : texts.mapM (fun t => Expr.compile t.toList) = .ok exprs) :
    ∀ t ∈ texts, ¬ FailsAlone t := by
  have hall : List.Forall₂ (fun t e => ¬ FailsAlone t ∧ Expr.compile t.toList = .ok e) texts exprs :=
    (mapM_eq_ok.mp h).imp fun t e he => ⟨fun ⟨f, hf⟩ => (by rw [he] at hf; cases hf), he⟩
  exact ((List.forall₂_and_left texts exprs).mp hall).1

theorem forall₂_matchesAlone (h : texts.mapM (fun t => Expr.compile t.toList) = .ok exprs) (input : String) :
    List.Forall₂ (fun t e => MatchesAlone input t ↔ e.matchesText input = true) texts exprs := by
  refine (mapM_eq_ok.mp h).imp fun t e he => ⟨?_, fun hm => ⟨e, he, hm⟩⟩
  rintro ⟨e', he', hm⟩
  cases he.symm.trans he'
  exact hm

theorem any_matchesText (h : texts.mapM (fun t => Expr.compile t.toList) = .ok exprs) (input : String) :
    exprs.any (·.matchesText input) = true ↔ ∃ t ∈ texts, MatchesAlone input t := by
  have hnone := findIdx?_eq_none_iff_forall_not (forall₂_matchesAlone h input)
  rw [← List.findIdx?_isSome, Option.isSome_iff_ne_none, ne_eq, hnone]
  simp

theorem mapM_compile_of_ok {set : PatternSet} (h : ofPatterns texts = .ok set) :
    texts.mapM (fun t => Expr.compile t.toList) = .ok set.exprs := by
  unfold ofPatterns at h
  split at h
  · rename_i exprs hall
    cases h
    obtain ⟨es, hp, hw⟩ := bind_eq_ok.mp hall
    split at hw
    · cases hw
    · rename_i hle
      cases hw
      have hnone : firstBad 0 texts = none := firstBad_of_parse hp (Nat.le_of_not_lt hle)
      obtain ⟨es, hc⟩ := firstBad_eq_none hnone
      rw [hc, Except.ok.inj ((mapM_parse hc).symm.trans hp)]
  · split at h <;> cases h

/-- As long as texts that compile alone are not too large together, a set of them compiles, fails and
searches as they do one after the other. -/
theorem ofPatterns_scans (h : FitTogether texts) :
    ((∃ b, ofPatterns texts = .error b) ↔ ∃ t ∈ texts, FailsAlone t) ∧
    (∀ b, ofPatterns texts = .error b → FirstAt FailsAlone texts b.index ∧
      texts[b.index]? = some b.pattern ∧ Expr.compile b.pattern.toList = .error b.fault) ∧
    ∀ set, ofPatterns texts = .ok set →
      set.length = texts.length ∧ set.sources = texts ∧ (∀ i, set.source? i = texts[i]?) ∧
      ∀ input, (∀ i, set.find? input = some i ↔ FirstAt (MatchesAlone input) texts i) ∧
        (set.find? input = none ↔ ∀ t ∈ texts, ¬ MatchesAlone input t) ∧
        (set.isMatch input = true ↔ ∃ i, set.find? input = some i) := by
  rcases ofPatterns_cases h with ⟨exprs, hc, hset⟩ | ⟨b, hb, hset⟩
  · have hall := not_failsAlone_of_mapM hc
    refine ⟨⟨?_, fun ⟨t, ht, hf⟩ => absurd hf (hall t ht)⟩, ?_, ?_⟩
    · rintro ⟨b, hb⟩; rw [hset] at hb; cases hb
    · intro b hb; rw [hset] at hb; cases hb
    · intro set hs
      rw [hset] at hs
      cases hs
      refine ⟨rfl, rfl, fun _ => rfl, fun input => ?_⟩
      have hrel := forall₂_matchesAlone hc input
      refine ⟨fun i => findIdx?_eq_some_iff_firstAt hrel, findIdx?_eq_none_iff_forall_not hrel, ?_⟩
      rw [isMatch, ← List.findIdx?_isSome, Option.isSome_iff_exists]
      rfl
  · obtain ⟨i, hi, hfirst, hp, hf⟩ := firstAt_of_firstBad hb
    obtain rfl : i = b.index := by omega
    refine ⟨⟨fun _ => hfirst.exists_mem, fun _ => ⟨b, hset⟩⟩, ?_, ?_⟩
    · intro b' hb'; rw [hset] at hb'; cases hb'; exact ⟨hfirst, hp, hf⟩
    · intro set hs; rw [hset] at hs; cases hs

/-- The second of three texts matches first, and of two that fail the first is to blame. -/
theorem ofPatterns_scans_of_three :
    (∃ set, ofPatterns ["^x", "^ab", "c$"] = .ok set ∧ set.find? "abc" = some 1 ∧ set.isMatch "abc" = true) ∧
      ∃ b, ofPatterns ["^ok$", "(unclosed", "[also"] = .error b ∧ b.index = 1 ∧ b.pattern = "(unclosed" := by
  constructor
  · have hfit : FitTogether ["^x", "^ab", "c$"] := by decide +kernel
    obtain ⟨hfails, -, hok⟩ := ofPatterns_scans hfit
    cases hset : ofPatterns ["^x", "^ab", "c$"] with
    | error b => exact absurd (hfails.mp ⟨b, hset⟩) (by decide +kernel)
    | ok set =>
      obtain ⟨-, -, -, hsearch⟩ := hok set hset
      obtain ⟨hfind, -, hmatch⟩ := hsearch "abc"
      have hfirst : set.find? "abc" = some 1 := (hfind 1).mpr (by
        rw [firstAt_succ, firstAt_zero]; decide +kernel)
      exact ⟨set, rfl, hfirst, hmatch.mpr ⟨1, hfirst⟩⟩
  · have hfit : FitTogether ["^ok$", "(unclosed", "[also"] := by decide +kernel
    obtain ⟨hfails, hblame, -⟩ := ofPatterns_scans hfit
    obtain ⟨b, hb⟩ := hfails.mpr ⟨"(unclosed", by decide, by decide +kernel⟩
    obtain ⟨hfirst, hp, -⟩ := hblame b hb
    have hsecond : FirstAt FailsAlone ["^ok$", "(unclosed", "[also"] 1 := by
      rw [firstAt_succ, firstAt_zero]; decide +kernel
    have hindex : b.index = 1 := hfirst.unique hsecond
    rw [hindex] at hp
    exact ⟨b, hb, hindex, (Option.some.inj hp).symm⟩

end PatternSet

end Exclusion
