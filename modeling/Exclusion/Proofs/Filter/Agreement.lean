import Exclusion.Proofs.Evaluation.Outcomes
import Exclusion.Proofs.Filter.Undisturbed

/-! # Filters that agree

Two matchers agree if they have the same verdicts, or the same globs. Filters of agreeing matchers agree
about each path as long as nothing changes the state of their scopes, except that each may name another
glob.
-/

namespace Exclusion

open Evaluation

namespace Verdict

/-- The same answer in the same dialect, with the same source but for globs. -/
structure Agree (v v' : Verdict) : Prop where
  isMatch : v.isMatch = v'.isMatch
  dialect : v.dialect = v'.dialect
  source : v'.dialect ≠ .glob → v.source = v'.source

theorem Agree.refl (v : Verdict) : v.Agree v := ⟨rfl, rfl, fun _ => rfl⟩

end Verdict

namespace Matcher

variable {m m' : Matcher} {path : String} {v v' : Verdict}

/-- Of the same dialect and with the same verdicts, or with the same globs. -/
def Agree : Matcher → Matcher → Prop
  | regex m, regex m' => ∀ path, m.verdict path = m'.verdict path
  | glob m, glob m' => m.entries = m'.entries
  | gitignore m, gitignore m' => ∀ path, m.verdict path = m'.verdict path
  | _, _ => False

theorem Agree.allows (h : m.Agree m') (hv : m.Allows path v) (hv' : m'.Allows path v') : v.Agree v' := by
  match m, m' with
  | regex m, regex m' =>
    obtain rfl : v = v' := hv.trans ((h path).trans hv'.symm)
    exact .refl v
  | gitignore m, gitignore m' =>
    obtain rfl : v = v' := hv.trans ((h path).trans hv'.symm)
    exact .refl v
  | glob m, glob m' =>
    have he : m.entries = m'.entries := h
    rcases hv with ⟨g, hg, hm, rfl⟩ | ⟨hnone, rfl⟩
    · rcases hv' with ⟨g', hg', hm', rfl⟩ | ⟨hnone, rfl⟩
      · exact ⟨rfl, rfl, fun hne => absurd rfl hne⟩
      · exact absurd hm (by simp [hnone g (he ▸ hg)])
    · rcases hv' with ⟨g', hg', hm', rfl⟩ | ⟨-, rfl⟩
      · exact absurd hm' (by simp [hnone g' (he ▸ hg')])
      · exact .refl _
  | regex _, glob _ => exact h.elim
  | regex _, gitignore _ => exact h.elim
  | glob _, regex _ => exact h.elim
  | glob _, gitignore _ => exact h.elim
  | gitignore _, regex _ => exact h.elim
  | gitignore _, glob _ => exact h.elim

end Matcher

namespace Filter

variable {path : String} {v v' : Verdict} {ms ms' : List Matcher}

theorem dialect_regex_ne_glob (m : ExprMatcher) (path : String) : (m.verdict path).dialect ≠ .glob := by
  unfold ExprMatcher.verdict
  split
  · nofun
  · split <;> nofun

theorem dialect_gitignore_ne_glob (m : RuleMatcher) (path : String) : (m.verdict path).dialect ≠ .glob := by
  unfold RuleMatcher.verdict
  split <;> nofun

/-- A glob that the verdict names is one of a matcher, and matches. -/
def NamesGlob (path : String) (v : Verdict) (ms : List Matcher) : Prop :=
  v.dialect = .glob →
    ∃ m, .glob m ∈ ms ∧ ∃ g ∈ m.entries, g.matchesPath path = true ∧ v.source = g.source

theorem namesGlob_of_allows (h : Allows path v ms) : NamesGlob path v ms := by
  intro hd
  induction ms with
  | nil => cases h; cases hd
  | cons m ms ih =>
    obtain ⟨u, hu, hv⟩ := h
    by_cases hm : u.isMatch = true
    · rw [if_pos hm] at hv
      subst hv
      cases m with
      | regex m => cases hu; exact absurd hd (dialect_regex_ne_glob m path)
      | glob m =>
        rcases hu with ⟨g, hg, hgm, rfl⟩ | ⟨-, rfl⟩
        · exact ⟨m, List.mem_cons_self, g, hg, hgm, rfl⟩
        · cases hd
      | gitignore m => cases hu; exact absurd hd (dialect_gitignore_ne_glob m path)
    · rw [if_neg hm] at hv
      obtain ⟨m', hm', hg⟩ := ih hv
      exact ⟨m', List.mem_cons_of_mem _ hm', hg⟩

theorem agree_of_allows (h : List.Forall₂ Matcher.Agree ms ms') (hv : Allows path v ms)
    (hv' : Allows path v' ms') : v.Agree v' := by
  induction h with
  | nil => cases hv; cases hv'; exact .refl _
  | cons hm _ ih =>
    obtain ⟨u, hu, hv⟩ := hv
    obtain ⟨u', hu', hv'⟩ := hv'
    have hagree := hm.allows hu hu'
    by_cases hmatch : u.isMatch = true
    · rw [if_pos hmatch] at hv
      rw [if_pos (hagree.isMatch ▸ hmatch)] at hv'
      rwa [hv, hv']
    · rw [if_neg hmatch] at hv
      rw [if_neg (hagree.isMatch ▸ hmatch)] at hv'
      exact ih hv hv'

/-- Filters of agreeing matchers, evaluated in scopes of the same state which they keep, fail alike or
agree. -/
theorem evaluate_agree {f f' : Filter} {w w' : World} {caller caller' : Scope}
    (hms : List.Forall₂ Matcher.Agree f.matchers f'.matchers) (hne : f'.matchers ≠ [])
    (hw : (f.entry w caller).Keeps (f.scope w caller))
    (hw' : (f'.entry w' caller').Keeps (f'.scope w' caller'))
    (hstate : (f.entry w caller).liveness.reason (f.scope w caller) =
      (f'.entry w' caller').liveness.reason (f'.scope w' caller')) :
    Outcomes (fun v v' => v.Agree v' ∧ NamesGlob path v' f'.matchers)
      ((f.evaluate path caller).run w).1 ((f'.evaluate path caller').run w').1 := by
  rw [run_evaluate, run_evaluate]
  cases hr : (f.entry w caller).liveness.reason (f.scope w caller) with
  | none =>
    obtain ⟨v, hv, ha⟩ := ask_undisturbed path f.matchers
      (hw.live (by rw [Liveness.live, hr]; rfl))
    obtain ⟨v', hv', ha'⟩ := ask_undisturbed path f'.matchers
      (hw'.live (by rw [Liveness.live, ← hstate, hr]; rfl))
    rw [hv, hv']
    exact .ok ⟨agree_of_allows hms ha ha', namesGlob_of_allows ha'⟩
  | some r =>
    have hs := hw.ended (by rw [Liveness.live, hr]; rfl)
    have hs' := hw'.ended (by rw [Liveness.live, ← hstate, hr]; rfl)
    have hne' : f.matchers ≠ [] := fun he => by
      rw [he] at hms
      exact hne (List.forall₂_nil_left_iff.mp hms)
    rw [ask_of_reason hne' (hs.trans hr), ask_of_reason hne (hs'.trans (hstate ▸ hr))]
    exact .error _

end Filter

end Exclusion
