import Exclusion.Proofs.Filter.Compilation
import Exclusion.Proofs.Filter.Strategy
import Exclusion.Proofs.Rule.Line

/-! # Which lines keep rules from compiling

A list of lines fails with its first line that fails, which then has its size or one of its classes to blame.
Lines that compile alone can only be too large together.
-/

namespace Exclusion

theorem PatternSet.fault_of_joint {texts : List String} {exprs : List Expr} {b : PatternSet.Blame}
    (hc : texts.mapM (fun t => Expr.compile t.toList) = .ok exprs)
    (h : PatternSet.ofPatterns texts = .error b) : b.fault = .tooLarge := by
  unfold PatternSet.ofPatterns at h
  split at h
  · cases h
  · rename_i e hall
    cases hf : PatternSet.firstBad 0 texts with
    | some b' => cases (mapM_compileOne hc).symm.trans (mapM_compileOne_of_firstBad hf)
    | none =>
      rw [hf] at h
      cases h
      rw [PatternSet.compileAll, PatternSet.mapM_parse hc] at hall
      rcases bind_eq_error.mp hall with he | ⟨es, -, he⟩
      · cases he
      · split at he
        · cases he; rfl
        · cases he

namespace RuleMatcher

variable {files : Files} {o : GitIgnoreOptions} {x : Failure}

theorem fault_of_group {rules : List Rule} {concurrent : Bool}
    (hc : ∀ r ∈ rules, Expr.compile r.text.toList = .ok r.expr)
    (h : RuleGroup.ofRules rules concurrent = .error x) :
    ∃ line, x = .compile .gitignore line (.expr .tooLarge) := by
  unfold RuleGroup.ofRules at h
  split at h
  · split at h
    · cases h
    · rename_i b hb
      cases h
      exact ⟨_, by rw [PatternSet.fault_of_joint (mapM_compile_of_rules hc) hb]⟩
  · cases h

/-- Setting aside their size, lines fail to compile only with the first of them that fails alone. -/
theorem first_of_error {d : Dialect} {pattern : String} {c : Cause}
    (h : ofOptions files o = .error (.compile d pattern c)) (hc : c ≠ .expr .tooLarge) :
    ∃ before after, lines files o = .ok (before ++ pattern :: after) ∧
      (∀ line ∈ before, ∃ r, Rule.ofLine line = .ok r) ∧
      Rule.ofLine pattern = .error (.compile d pattern c) := by
  rcases ofOptions_error h with hx | ⟨path, f, hx⟩ | ⟨ls, hl, hr | ⟨rs, hr, hg⟩⟩
  · cases hx
  · cases hx
  · obtain ⟨before, line, after, rfl, hbefore, hline⟩ := rules_error hr
    obtain ⟨f, hf, -⟩ := Rule.blame_of_error hline
    cases hf
    exact ⟨before, after, hl, hbefore, hline⟩
  · have hall := compile_of_rules hr
    have hgroup {p : Rule → Bool}
        (hg : RuleGroup.ofRules (rs.filter p) o.concurrent = .error (.compile d pattern c)) : False := by
      obtain ⟨line, hx⟩ := fault_of_group (fun r hm => hall r (List.mem_of_mem_filter hm)) hg
      cases hx
      exact hc rfl
    exact (hg.elim hgroup hgroup).elim

/-- A line that fails to compile is named untouched, and has its size, a range of one of its classes or very
many hyphens in one of them to blame. Lines together fail, if not for their size, with the first that fails. -/
theorem compile_blames (files : Files) (o : GitIgnoreOptions) (log : Log) :
    (∀ (line : String) (x : Failure), Rule.ofLine line = .error x →
      ∃ f, x = .compile .gitignore line (.expr f) ∧ Rule.Blame line.toList f) ∧
    ∀ (d : Dialect) (pattern : String) (c : Cause),
      ((compile files o).run log).1 = .error (.compile d pattern c) → c ≠ .expr .tooLarge →
      ∃ before after f, lines files o = .ok (before ++ pattern :: after) ∧
        (∀ line ∈ before, ∃ r, Rule.ofLine line = .ok r) ∧
        Rule.ofLine pattern = .error (.compile .gitignore pattern (.expr f)) ∧
        d = .gitignore ∧ c = .expr f ∧ Rule.Blame pattern.toList f := by
  refine ⟨fun line x h => Rule.blame_of_error h, fun d pattern c h hc => ?_⟩
  obtain ⟨before, after, hl, hbefore, hp⟩ := first_of_error ((compile_settles files o log).symm.trans h) hc
  obtain ⟨f, hf, hblame⟩ := Rule.blame_of_error hp
  cases hf
  exact ⟨before, after, f, hl, hbefore, hp, rfl, rfl, hblame⟩

/-- Behind a line that compiles, the first range in descending order. -/
theorem compile_blames_range :
    let o : GitIgnoreOptions := ⟨["*.rs", "x[b-a]", "[9-0]"], none, true⟩
    ((compile .empty o).run []).1 = .error (.compile .gitignore "x[b-a]" (.expr .descendingRange)) ∧
      Rule.Blame "x[b-a]".toList .descendingRange := by
  intro o
  have h : ((compile .empty o).run []).1 = .error (.compile .gitignore "x[b-a]" (.expr .descendingRange)) := by
    have hr : rules o.patterns = .error (.compile .gitignore "x[b-a]" (.expr .descendingRange)) := by
      decide +kernel
    rw [compile_settles .empty o []]
    change ofLines o.patterns true = _
    rw [ofLines, hr]; rfl
  obtain ⟨before, after, f, -, -, -, -, hc, hblame⟩ := (compile_blames .empty o []).2 _ _ _ h (by decide)
  cases hc
  exact ⟨h, hblame⟩

end RuleMatcher

end Exclusion
