import Exclusion.Proofs.Evaluation.Asking
import Exclusion.Proofs.Filter.Undisturbed

/-! # Which verdicts can come out

A matcher gives no other verdicts than those it allows, whenever its scope ends, and fails only when its scope
has ended.
-/

namespace Exclusion

open Evaluation

namespace GlobMatcher

variable {m : GlobMatcher} {path : String} {s : Scope} {I : World → Prop} {P : Verdict → Prop}

theorem meets_of_find (hI : World.Closed I)
    (hfind : Meets I (fun found => P ((found.bind fun i => m.entries[i]?).elim .unmatched
      fun g => .matched .glob g.source)) (m.find path s)) : Meets I P (m.evaluate path s) := by
  refine ((steady_check s).meets hI (P := fun _ => True) trivial).bind fun _ _ => hfind.bind fun found hP => ?_
  cases hg : found.bind fun i => m.entries[i]? with
  | none => rw [hg] at hP; exact (steady_pure s _).meets hI hP
  | some g => rw [hg] at hP; exact (steady_traced s _ _ _).meets hI hP

theorem meets_evaluate (m : GlobMatcher) (path : String) (s : Scope) :
    Meets (·.Hosts s) (m.Allows path) (m.evaluate path s) := by
  by_cases h : m.Unraced
  · obtain ⟨n, hn⟩ := steady_evaluate h path
    exact (hn s).meets (World.closed_hosts s) (m.allows_verdict path)
  · refine meets_of_find (World.closed_hosts s) (find_of_raced h ▸ (race_meets_hosts _ s).mono ?_)
    intro winner hwinner
    cases winner with
    | none => exact .inr ⟨fun g hg => hwinner _ (List.mem_map_of_mem hg), rfl⟩
    | some i => exact allows_of_hit hwinner

/-- In any world at all, a glob that is named matches. -/
theorem meets_evaluate_anywhere (m : GlobMatcher) (path : String) (s : Scope) :
    Meets (fun _ => True) (fun v => v = .unmatched ∨ m.Allows path v) (m.evaluate path s) := by
  by_cases h : m.Unraced
  · obtain ⟨n, hn⟩ := steady_evaluate h path
    exact (hn s).meets World.closed_true (.inr (m.allows_verdict path))
  · refine meets_of_find World.closed_true (find_of_raced h ▸ (race_meets _ s).mono ?_)
    intro winner hwinner
    cases winner with
    | none => exact .inl rfl
    | some i => exact .inr (allows_of_hit (hwinner i rfl))

theorem asks_evaluate (m : GlobMatcher) (may : Bool) (path : String) : Asks may (m.evaluate path) := by
  have hfind : Asks may (m.find path) := by
    unfold find
    by_cases h : (m.concurrent && m.entries.length > 1) = true
    · simp only [if_pos h]; exact .race _
    · simp only [if_neg h]; exact .scan _ 0 _
  refine .bind .check fun _ => .bind hfind fun found => ?_
  cases found.bind fun i => m.entries[i]? with
  | none => exact .pure _
  | some g => exact .traced _ _ _

end GlobMatcher

theorem ExprMatcher.asks_evaluate (m : ExprMatcher) (may : Bool) (path : String) : Asks may (m.evaluate path) := by
  have hhits : Asks may (m.hits path) := by
    cases m with
    | joint set => exact .pure _
    | sequential exprs => exact .bind (.scan _ 0 exprs) fun _ => .pure _
  refine .bind .check fun _ => ?_
  by_cases hp : path.isEmpty = true
  · simp only [if_pos hp]
    exact .pure _
  · simp only [if_neg hp]
    refine .bind hhits fun hit => ?_
    cases hit with
    | true => exact .traced _ _ _
    | false => exact .pure _

theorem RuleGroup.asks_find (g : RuleGroup) (may : Bool) (path : String) : Asks may (g.find path) := by
  cases g with
  | joint sources set => exact .bind .check fun _ => .pure _
  | sequential rules => exact .bind (.scan _ 0 rules) fun _ => .pure _

theorem RuleMatcher.asks_evaluate (m : RuleMatcher) (may : Bool) (path : String) : Asks may (m.evaluate path) := by
  refine .bind .check fun _ => .bind (m.positive.asks_find may path) fun rule => ?_
  cases rule with
  | none => exact .pure _
  | some rule =>
    refine .bind (m.negative.asks_find may path) fun negation => ?_
    cases negation with
    | none => exact .traced _ _ _
    | some negation => exact .traced _ _ _

namespace Matcher

variable {m : Matcher} {path : String} {v v' : Verdict}

theorem meets_evaluate (m : Matcher) (path : String) (s : Scope) :
    Meets (·.Hosts s) (m.Allows path) (m.evaluate path s) := by
  cases m with
  | regex m =>
    obtain ⟨n, hn⟩ := m.steady_evaluate path
    exact (hn s).meets (World.closed_hosts s) rfl
  | glob m => exact m.meets_evaluate path s
  | gitignore m =>
    obtain ⟨n, hn⟩ := m.steady_evaluate path
    exact (hn s).meets (World.closed_hosts s) rfl

theorem meets_evaluate_anywhere (m : Matcher) (path : String) (s : Scope) :
    Meets (fun _ => True) (fun v => v = .unmatched ∨ m.Allows path v) (m.evaluate path s) := by
  cases m with
  | regex m =>
    obtain ⟨n, hn⟩ := m.steady_evaluate path
    exact (hn s).meets World.closed_true (.inr rfl)
  | glob m => exact m.meets_evaluate_anywhere path s
  | gitignore m =>
    obtain ⟨n, hn⟩ := m.steady_evaluate path
    exact (hn s).meets World.closed_true (.inr rfl)

/-- No matcher does more to its scope than to ask and to race. -/
theorem asks_evaluate (m : Matcher) (may : Bool) (path : String) : Asks may (m.evaluate path) := by
  cases m with
  | regex m => exact m.asks_evaluate may path
  | glob m => exact m.asks_evaluate may path
  | gitignore m => exact m.asks_evaluate may path

theorem allows_verdict (m : Matcher) (path : String) : m.Allows path (m.verdict path) := by
  cases m with
  | regex m => rfl
  | glob m => exact m.allows_verdict path
  | gitignore m => rfl

/-- Left undisturbed, the matcher comes to this verdict, and however it is disturbed it comes to no other. -/
structure Tells (m : Matcher) (path : String) (v : Verdict) : Prop where
  answers : ∀ (w : World) (s : Scope), w.Undisturbed s → ∃ w', (m.evaluate path s).run w = (.ok v, w')
  agrees : ∀ (w : World) (s : Scope) (u : Verdict) (w' : World), w.Hosts s →
    (m.evaluate path s).run w = (.ok u, w') → u = v

theorem tells_of_allows (h : ∀ u, m.Allows path u → u = v) : m.Tells path v := by
  refine ⟨fun w s hw => ?_, fun w s u w' hw hr => h u (m.meets_evaluate path s w u w' hw hr).1⟩
  obtain ⟨u, w', hr, hu, -⟩ := m.yields_evaluate path s w hw
  exact ⟨w', h u hu ▸ hr⟩

end Matcher

namespace Filter

variable {path : String} {s : Scope} {ms : List Matcher} {m : Matcher} {u v : Verdict} {w w' w'' : World}

theorem run_ask_of_unmatched (h : (m.evaluate path s).run w = (.ok .unmatched, w')) :
    (ask path s (m :: ms)).run w = (ask path s ms).run w' := by
  rw [ask, run_bind_ok h]; rfl

theorem run_ask_cons (h : (ask path s (m :: ms)).run w = (.ok v, w'')) :
    ∃ u w', (m.evaluate path s).run w = (.ok u, w') ∧
      (u.isMatch = true ∧ u = v ∨ u = .unmatched ∧ (ask path s ms).run w' = (.ok v, w'')) := by
  obtain ⟨u, w', hu, hrest⟩ := ok_of_run_bind h
  refine ⟨u, w', hu, ?_⟩
  cases u with
  | unmatched => exact .inr ⟨rfl, hrest⟩
  | matched d source => cases hrest; exact .inl ⟨rfl, rfl⟩

theorem asks_ask (path : String) (ms : List Matcher) : Asks true (ask path · ms) := by
  induction ms with
  | nil => exact .pure _
  | cons m ms ih =>
    refine .bind (m.asks_evaluate true path) fun v => ?_
    cases v.isMatch with
    | true => exact .bind (.cancel rfl) fun _ => .traced _ _ _
    | false => exact ih

end Filter

end Exclusion
