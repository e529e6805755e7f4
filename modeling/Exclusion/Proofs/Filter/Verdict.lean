import Exclusion.Filter
import Exclusion.Proofs.Evaluation.Checks

/-! # Verdicts without interruption

What a matcher says about a path depends on the path alone if its scope stays live and its globs do not
race. Such a matcher is steady: it says this, or fails with the reason that one of its checks is given.
-/

namespace Exclusion

open Evaluation

namespace ExprMatcher

def matchesPath (m : ExprMatcher) (path : String) : Bool :=
  match m with
  | sequential exprs => exprs.any (·.matchesText path)
  | joint set => set.isMatch path

def verdict (m : ExprMatcher) (path : String) : Verdict :=
  if path.isEmpty then .unmatched
  else if m.matchesPath path then .matched .regex path else .unmatched

theorem steady_hits (m : ExprMatcher) (path : String) :
    ∃ n, ∀ s, Steady s n (m.matchesPath path) (m.hits path s) := by
  cases m with
  | joint set => exact ⟨0, fun s => steady_pure s _⟩
  | sequential exprs =>
    obtain ⟨n, hn⟩ := steady_scan (·.matchesText path) exprs
    refine ⟨n + 0, fun s => (hn s).bind ?_⟩
    rw [matchesPath, ← List.findIdx?_isSome]
    exact steady_pure s _

theorem steady_evaluate (m : ExprMatcher) (path : String) :
    ∃ n, ∀ s, Steady s (1 + n) (m.verdict path) (m.evaluate path s) := by
  unfold verdict evaluate
  by_cases hp : path.isEmpty = true
  · simp only [if_pos hp]
    exact ⟨0, fun s => (steady_check s).bind (steady_pure s _)⟩
  · simp only [if_neg hp]
    obtain ⟨n, hn⟩ := m.steady_hits path
    refine ⟨n + 0, fun s => (steady_check s).bind ((hn s).bind ?_)⟩
    cases m.matchesPath path with
    | true => exact steady_traced s _ _ _
    | false => exact steady_pure s _

end ExprMatcher

namespace GlobMatcher

def Unraced (m : GlobMatcher) : Prop := ¬ (m.concurrent = true ∧ 1 < m.entries.length)

def verdict (m : GlobMatcher) (path : String) : Verdict :=
  match m.entries.find? (·.matchesPath path) with
  | some g => .matched .glob g.source
  | none => .unmatched

theorem steady_evaluate {m : GlobMatcher} (h : m.Unraced) (path : String) :
    ∃ n, ∀ s, Steady s (1 + n) (m.verdict path) (m.evaluate path s) := by
  obtain ⟨n, hn⟩ := steady_scan (·.matchesPath path) m.entries
  have hfind (s : Scope) : m.find path s = scan (·.matchesPath path) s 0 m.entries := by
    rw [find, if_neg (by simpa [Unraced] using h)]
  refine ⟨n + 0, fun s => (steady_check s).bind (Steady.bind (hfind s ▸ hn s) ?_)⟩
  rw [verdict, List.find?_eq_bind_findIdx?_getElem?]
  cases (m.entries.findIdx? (·.matchesPath path)).bind fun i => m.entries[i]? with
  | none => exact steady_pure s _
  | some g => exact steady_traced s _ _ _

end GlobMatcher

namespace RuleGroup

def first? (g : RuleGroup) (path : String) : Option String :=
  match g with
  | sequential rules => (rules.find? (·.matchesPath path)).map (·.source)
  | joint sources set => (set.find? path).bind fun i => sources[i]?

theorem steady_find (g : RuleGroup) (path : String) :
    ∃ n, ∀ s, Steady s n (g.first? path) (g.find path s) := by
  cases g with
  | joint sources set => exact ⟨1 + 0, fun s => (steady_check s).bind (steady_pure s _)⟩
  | sequential rules =>
    obtain ⟨n, hn⟩ := steady_scan (·.matchesPath path) rules
    refine ⟨n + 0, fun s => (hn s).bind ?_⟩
    rw [first?, List.find?_eq_bind_findIdx?_getElem?]
    exact steady_pure s _

end RuleGroup

namespace RuleMatcher

def verdict (m : RuleMatcher) (path : String) : Verdict :=
  match m.positive.first? path, m.negative.first? path with
  | some rule, none => .matched .gitignore rule
  | _, _ => .unmatched

theorem steady_evaluate (m : RuleMatcher) (path : String) :
    ∃ n, ∀ s, Steady s (1 + n) (m.verdict path) (m.evaluate path s) := by
  obtain ⟨n, hn⟩ := m.positive.steady_find path
  obtain ⟨k, hk⟩ := m.negative.steady_find path
  unfold verdict
  cases hp : m.positive.first? path with
  | none => exact ⟨n + 0, fun s => (steady_check s).bind ((hp ▸ hn s).bind (steady_pure s _))⟩
  | some rule =>
    refine ⟨n + (k + 0), fun s => (steady_check s).bind ((hp ▸ hn s).bind ((hk s).bind ?_))⟩
    cases m.negative.first? path with
    | none => exact steady_traced s _ _ _
    | some negation => exact steady_traced s _ _ _

end RuleMatcher

namespace Matcher

def Unraced : Matcher → Prop
  | regex _ => True
  | glob m => m.Unraced
  | gitignore _ => True

def verdict : Matcher → String → Verdict
  | regex m => m.verdict
  | glob m => m.verdict
  | gitignore m => m.verdict

theorem steady_evaluate {m : Matcher} (h : m.Unraced) (path : String) :
    ∃ n, ∀ s, Steady s (1 + n) (m.verdict path) (m.evaluate path s) := by
  cases m with
  | regex m => exact m.steady_evaluate path
  | glob m => exact GlobMatcher.steady_evaluate h path
  | gitignore m => exact m.steady_evaluate path

end Matcher

end Exclusion
