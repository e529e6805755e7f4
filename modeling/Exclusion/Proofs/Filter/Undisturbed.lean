import Exclusion.Proofs.Evaluation.Undisturbed
import Exclusion.Proofs.Filter.Cancellation

/-! # Verdicts with races

Which glob a race reports depends on how its tasks move, so that a matcher allows several verdicts about
a path. An undisturbed evaluation gives one that the filter allows, and an evaluation that starts too late
fails.
-/

namespace Exclusion

open Evaluation

namespace GlobMatcher

variable {m : GlobMatcher} {path : String} {s : Scope}

/-- A verdict that names some glob that matches, or none if there is none. -/
def Allows (m : GlobMatcher) (path : String) (v : Verdict) : Prop :=
  (∃ g ∈ m.entries, g.matchesPath path = true ∧ v = .matched .glob g.source) ∨
    ((∀ g ∈ m.entries, g.matchesPath path = false) ∧ v = .unmatched)

theorem allows_verdict (m : GlobMatcher) (path : String) : m.Allows path (m.verdict path) := by
  unfold verdict
  cases h : m.entries.find? (·.matchesPath path) with
  | some g => exact .inl ⟨g, List.mem_of_find?_eq_some h, by simpa using List.find?_some h, rfl⟩
  | none => exact .inr ⟨by simpa using h, rfl⟩

theorem allows_of_hit {i : Nat} (h : (m.entries.map (·.matchesPath path))[i]? = some true) :
    m.Allows path (((some i).bind fun i => m.entries[i]?).elim .unmatched
      fun g => .matched .glob g.source) := by
  obtain ⟨g, hg, hm⟩ : ∃ g, m.entries[i]? = some g ∧ g.matchesPath path = true := by simpa using h
  rw [Option.bind_some, hg]
  exact .inl ⟨g, List.mem_of_getElem? hg, hm, rfl⟩

theorem find_of_raced (h : ¬ m.Unraced) : m.find path s = race (m.entries.map (·.matchesPath path)) s := by
  rw [find, if_pos (by simpa [Unraced] using h)]

theorem yields_evaluate (m : GlobMatcher) (path : String) (s : Scope) :
    Yields s (m.Allows path) (m.evaluate path s) := by
  by_cases h : m.Unraced
  · obtain ⟨n, hn⟩ := steady_evaluate h path
    exact (hn s).yields (m.allows_verdict path)
  · refine ((steady_check s).yields (P := fun _ => True) trivial).bind fun _ _ => ?_
    rw [find_of_raced h]
    refine (race_yields _ s).bind fun winner hwinner => ?_
    cases winner with
    | none =>
      refine (steady_pure s _).yields (.inr ⟨fun g hg => ?_, rfl⟩)
      exact hwinner _ (List.mem_map_of_mem hg)
    | some i =>
      have hallow := allows_of_hit hwinner
      cases hg : (some i).bind fun i => m.entries[i]? with
      | none => rw [hg] at hallow; exact (steady_pure s _).yields hallow
      | some g => rw [hg] at hallow; exact (steady_traced s _ _ _).yields hallow

end GlobMatcher

namespace Matcher

variable {m : Matcher} {path : String} {s : Scope}

def Allows (path : String) (v : Verdict) : Matcher → Prop
  | regex m => v = m.verdict path
  | glob m => m.Allows path v
  | gitignore m => v = m.verdict path

theorem yields_evaluate (m : Matcher) (path : String) (s : Scope) :
    Yields s (m.Allows path) (m.evaluate path s) := by
  cases m with
  | regex m =>
    obtain ⟨n, hn⟩ := m.steady_evaluate path
    exact (hn s).yields rfl
  | glob m => exact m.yields_evaluate path s
  | gitignore m =>
    obtain ⟨n, hn⟩ := m.steady_evaluate path
    exact (hn s).yields rfl

theorem run_evaluate_of_reason {w : World} {r : Reason} (m : Matcher) (path : String)
    (h : w.settle.liveness.reason s = some r) :
    (m.evaluate path s).run w = (.error (.cancelled r), w.settle) := by
  cases m with
  | regex m => exact run_bind_error (run_check_error h)
  | glob m => exact run_bind_error (run_check_error h)
  | gitignore m => exact run_bind_error (run_check_error h)

end Matcher

namespace Filter

variable {path : String} {s : Scope} {w : World}

/-- Each matcher that is asked allows its verdict, and the first that excludes the path decides. -/
def Allows (path : String) (v : Verdict) : List Matcher → Prop
  | [] => v = .unmatched
  | m :: ms => ∃ u, m.Allows path u ∧ if u.isMatch then v = u else Allows path v ms

theorem ask_undisturbed (path : String) (ms : List Matcher) (hw : w.Undisturbed s) :
    ∃ v, ((ask path s ms).run w).1 = .ok v ∧ Allows path v ms := by
  induction ms generalizing w with
  | nil => exact ⟨.unmatched, rfl, rfl⟩
  | cons m ms ih =>
    obtain ⟨u, w', hr, hu, hw'⟩ := m.yields_evaluate path s w hw
    rw [ask, run_bind_ok hr]
    by_cases hm : u.isMatch = true
    · rw [if_pos hm]
      exact ⟨u, rfl, u, hu, by rw [if_pos hm]⟩
    · rw [if_neg hm]
      obtain ⟨v, hv, ha⟩ := ih hw'
      exact ⟨v, hv, u, hu, by rwa [if_neg hm]⟩

theorem ask_of_reason {ms : List Matcher} {r : Reason} (hms : ms ≠ [])
    (h : w.settle.liveness.reason s = some r) :
    ((ask path s ms).run w).1 = .error (.cancelled r) := by
  cases ms with
  | nil => exact absurd rfl hms
  | cons m ms => rw [ask, run_bind_error (m.run_evaluate_of_reason path h)]

end Filter

end Exclusion
