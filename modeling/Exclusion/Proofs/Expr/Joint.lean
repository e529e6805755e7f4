import Exclusion.Outcome
import Exclusion.PatternSet
import Mathlib.Data.List.Forall2

/-! # Compiling alone and together

A set of texts compiles exactly if each of them does, as long as their joint size is not too much, and to
the same expressions. Otherwise the text to blame is the first that does not compile alone.
-/

namespace Exclusion

theorem mapM_eq_ok {ε α β : Type} {f : α → Except ε β} {l : List α} {bs : List β} :
    l.mapM f = .ok bs ↔ List.Forall₂ (fun a b => f a = .ok b) l bs := by
  induction l generalizing bs with
  | nil => rw [List.forall₂_nil_left_iff]; exact pure_eq_ok.trans eq_comm
  | cons a l ih =>
    rw [List.mapM_cons, bind_eq_ok, List.forall₂_cons_left_iff]
    refine exists_congr fun b => ?_
    rw [bind_eq_ok]
    constructor
    · rintro ⟨hb, bs', hbs, h⟩; exact ⟨bs', hb, ih.mp hbs, (pure_eq_ok.mp h).symm⟩
    · rintro ⟨bs', hb, hbs, rfl⟩; exact ⟨hb, bs', ih.mpr hbs, rfl⟩

/-- Texts that compile alone are not too large together. -/
def FitTogether (texts : List String) : Prop :=
  ∀ exprs, texts.mapM (fun t => Expr.compile t.toList) = .ok exprs →
    Expr.jointWeight exprs ≤ Expr.maxWeight

instance (texts : List String) : Decidable (FitTogether texts) :=
  match h : texts.mapM fun t => Expr.compile t.toList with
  | .error f => .isTrue fun exprs he => by rw [h] at he; cases he
  | .ok exprs => decidable_of_iff (Expr.jointWeight exprs ≤ Expr.maxWeight)
      ⟨fun hw exprs' he => by rw [h] at he; cases he; exact hw, fun hfit => hfit exprs h⟩

theorem Expr.compile_eq_ok {text : List Char} {e : Expr} :
    Expr.compile text = .ok e ↔ Expr.parse text = .ok e ∧ e.weight ≤ Expr.maxWeight := by
  rw [Expr.compile, bind_eq_ok]
  constructor
  · rintro ⟨e', hp, he⟩
    split at he
    · cases he
    · rename_i hw; cases he; exact ⟨hp, Nat.le_of_not_lt hw⟩
  · rintro ⟨hp, hw⟩
    exact ⟨e, hp, if_neg (Nat.not_lt_of_le hw)⟩

namespace PatternSet

variable {texts : List String} {exprs : List Expr} {index : Nat} {b : Blame}

theorem mapM_parse (h : texts.mapM (fun t => Expr.compile t.toList) = .ok exprs) :
    texts.mapM (fun t => Expr.parse t.toList) = .ok exprs :=
  mapM_eq_ok.mpr ((mapM_eq_ok.mp h).imp fun _ _ he => (Expr.compile_eq_ok.mp he).1)

theorem firstBad_eq_none (h : firstBad index texts = none) :
    ∃ exprs, texts.mapM (fun t => Expr.compile t.toList) = .ok exprs := by
  induction texts generalizing index with
  | nil => exact ⟨[], rfl⟩
  | cons t texts ih =>
    rw [firstBad] at h
    cases he : Expr.compile t.toList with
    | error f => rw [he] at h; cases h
    | ok e =>
      rw [he] at h
      obtain ⟨es, hes⟩ := ih h
      exact ⟨e :: es, by rw [List.mapM_cons, he, hes]; rfl⟩

/-- Texts that are not too large together are not too large alone. -/
theorem firstBad_of_parse (h : texts.mapM (fun t => Expr.parse t.toList) = .ok exprs)
    (hw : Expr.jointWeight exprs ≤ Expr.maxWeight) : firstBad index texts = none := by
  induction texts generalizing exprs index with
  | nil => rfl
  | cons t texts ih =>
    obtain ⟨e, es, he, hes, rfl⟩ := List.forall₂_cons_left_iff.mp (mapM_eq_ok.mp h)
    rw [Expr.jointWeight] at hw
    have hc : Expr.compile t.toList = .ok e := Expr.compile_eq_ok.mpr ⟨he, by omega⟩
    rw [firstBad, hc]
    exact ih (mapM_eq_ok.mpr hes) (by omega)

theorem ofPatterns_eq_ok {set : PatternSet} (h : ofPatterns texts = .ok set) :
    ∃ exprs, texts.mapM (fun t => Expr.parse t.toList) = .ok exprs ∧ set = ⟨texts, exprs⟩ := by
  unfold ofPatterns at h
  split at h
  · rename_i exprs hall
    obtain ⟨es, hp, hw⟩ := bind_eq_ok.mp hall
    split at hw
    · cases hw
    · cases hw; cases h; exact ⟨_, hp, rfl⟩
  · split at h <;> cases h

/-- A set compiles if each text does, and else blames the first that does not. -/
theorem ofPatterns_cases (h : FitTogether texts) :
    (∃ exprs, texts.mapM (fun t => Expr.compile t.toList) = .ok exprs ∧
        ofPatterns texts = .ok ⟨texts, exprs⟩) ∨
      ∃ b, firstBad 0 texts = some b ∧ ofPatterns texts = .error b := by
  cases hb : firstBad 0 texts with
  | none =>
    obtain ⟨exprs, hc⟩ := firstBad_eq_none hb
    have hall : compileAll texts = .ok exprs := by
      rw [compileAll, mapM_parse hc]
      exact if_neg (Nat.not_lt_of_le (h exprs hc))
    exact .inl ⟨exprs, hc, by rw [ofPatterns, hall]⟩
  | some b =>
    refine .inr ⟨b, rfl, ?_⟩
    cases hall : compileAll texts with
    | error f => rw [ofPatterns, hall]; simp only [hb]
    | ok exprs =>
      rw [compileAll, bind_eq_ok] at hall
      obtain ⟨es, hp, hw⟩ := hall
      split at hw
      · cases hw
      · rename_i hle
        rw [firstBad_of_parse hp (Nat.le_of_not_lt hle)] at hb
        cases hb

end PatternSet

end Exclusion
