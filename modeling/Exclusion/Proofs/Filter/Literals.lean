import Exclusion.Proofs.Expr.Choice
import Exclusion.Proofs.Filter.Answers
import Exclusion.Proofs.Filter.Compilation

/-! # Literal texts

In literal mode the patterns stand for themselves, whatever characters they are made of. Every list of them
compiles, unless it is too large, to a matcher for the paths in which one of them occurs.
-/

namespace Exclusion.ExprMatcher

variable {o : RegexOptions}

theorem ofOptions_literal (hne : o.patterns ≠ []) (hl : o.literal = true) :
    ofOptions o = (compileOne (joinLiterals o.patterns)).map fun e => sequential [e] := by
  rw [ofOptions, if_neg (by simpa using hne), if_pos hl]

theorem isMatch_verdict_sequential (e : Expr) (path : String) :
    ((sequential [e]).verdict path).isMatch = true ↔ path ≠ "" ∧ e.matchesText path = true := by
  unfold verdict
  by_cases hp : path = ""
  · simp [hp, Verdict.isMatch]
  · rw [if_neg (by simpa using hp)]
    cases hm : e.matchesText path with
    | true => simp [matchesPath, hm, hp, Verdict.isMatch]
    | false => simp [matchesPath, hm, Verdict.isMatch]

/-- Literal texts compile, unless they are too large, whatever they hold and in either strategy, and exclude the
paths that contain one of them. -/
theorem compile_literals (hne : o.patterns ≠ []) (hl : o.literal = true) :
    ∃ e, Expr.parse (joinLiterals o.patterns).toList = .ok e ∧
      (compile o).Settles (if Expr.maxWeight < e.weight
        then .error (.compile .regex (joinLiterals o.patterns) (.expr .tooLarge)) else .ok (sequential [e])) ∧
      ∀ path : String, ∃ v, (Matcher.regex (sequential [e])).Tells path v ∧
        (v.isMatch = true ↔ path ≠ "" ∧ ∃ t ∈ o.patterns, t.toList <:+: path.toList) := by
  obtain ⟨e, he, hmatch⟩ := parse_joinLiterals hne
  refine ⟨e, he, ?_, fun path => ⟨_, Matcher.tells_of_allows fun u hu => hu, ?_⟩⟩
  · have hs := compile_settles o
    rw [ofOptions_literal hne hl, compileOne_of_parse he, apply_ite (Except.map _)] at hs
    exact hs
  · rw [isMatch_verdict_sequential, hmatch]

/-- Neither a bar nor a parenthesis acts as syntax. -/
theorem compile_literals_of_bar :
    let o : RegexOptions := ⟨["a|b", "("], true, true⟩
    o.patterns ≠ [] ∧ o.literal = true ∧ ∃ e, (compile o).Settles (.ok (sequential [e])) ∧
      (∃ v, (Matcher.regex (sequential [e])).Tells "xa|b" v ∧ v.isMatch = true) ∧
      ∃ v, (Matcher.regex (sequential [e])).Tells "xa" v ∧ v.isMatch = false := by
  intro o
  have hne : o.patterns ≠ [] := List.cons_ne_nil _ _
  obtain ⟨e, he, hs, htells⟩ := compile_literals hne rfl
  have hsmall : (Expr.parse (joinLiterals o.patterns).toList).toOption.any
      (fun e => decide (e.weight ≤ Expr.maxWeight)) = true := by decide +kernel
  rw [he] at hsmall
  rw [if_neg (Nat.not_lt.mpr (of_decide_eq_true hsmall))] at hs
  obtain ⟨v, hv, hmatch⟩ := htells "xa|b"
  obtain ⟨u, hu, hmiss⟩ := htells "xa"
  refine ⟨hne, rfl, e, hs, ⟨v, hv, hmatch.mpr (by decide)⟩, u, hu, ?_⟩
  exact Bool.eq_false_iff.mpr fun h => absurd (hmiss.mp h) (by decide)

end Exclusion.ExprMatcher
