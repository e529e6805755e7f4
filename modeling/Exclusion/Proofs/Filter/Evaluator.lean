import Exclusion.Proofs.Filter.Precedence

/-! # Evaluators

A filter, or a matcher on its own, cancels no scope from before, and gives the same answer in one live scope as
in another. If it has time and its scope outlasts it, it answers.
-/

namespace Exclusion

open Evaluation

namespace Filter

variable {path : String} {n : Nat} {s t : Scope} {ms : List Matcher} {v : Verdict} {w w' : World} {x : Failure}
  {f : Filter}

theorem passes_evaluate (f : Filter) (path : String) (s : Scope) (hn : n ≤ w.liveness.fresh) :
    w.Passes n ((f.evaluate path s).run w).2 := by
  rw [run_evaluate]
  have hask := (asks_ask path f.matchers).passes (w := f.entry w s) (s := f.scope w s) (Nat.le_succ_of_le hn)
    fun _ => ⟨hn, Nat.lt_succ_self _⟩
  exact (World.Passes.opened w _ _).trans hask

theorem live_of_evaluate (h : ((f.evaluate path s).run w).2.liveness.live t = true) :
    w.liveness.live t = true :=
  (asks_ask path f.matchers).live_of_run (w := f.entry w s) h

theorem run_evaluate_congr (hs : ((f.evaluate path s).run w).2.liveness.live s = true)
    (ht : ((f.evaluate path s).run w).2.liveness.live t = true) :
    (f.evaluate path s).run w = (f.evaluate path t).run w :=
  (asks_ask path f.matchers).run_congr ((Scope.Alongside.refl s t).inside _) (fun _ => rfl) hs ht

/-- Only an evaluation that answers may have cancelled its scope. -/
theorem passes_of_failed (hn : n ≤ w.liveness.fresh) (h : (ask path s ms).run w = (.error x, w')) :
    w.Passes n w' := by
  induction ms generalizing w with
  | nil => cases h
  | cons m ms ih =>
    have hm := (m.asks_evaluate false path).passes (s := s) hn nofun
    rcases run_bind_cases (m.evaluate path s) _ w with ⟨y, u, hr, he⟩ | ⟨v, u, hr, he⟩
    · rw [hr] at hm
      cases h.symm.trans he
      exact hm
    · rw [hr] at hm
      have hrest := he.symm.trans h
      split at hrest
      · cases hrest
      · exact hm.trans (ih (Nat.le_trans hn hm.fresh) hrest)

theorem linkReason_of_failed (hw : w.Hosts s) (h : (f.evaluate path s).run w = (.error x, w'))
    (htime : w'.liveness.now < w.liveness.now + f.timeout.nanos) :
    w'.liveness.linkReason (f.scope w s).own = none := by
  rw [run_evaluate] at h
  obtain ⟨acts, hpool, ha⟩ := (passes_of_failed (Nat.le_refl _) h).acted
  have halike := ha (f.scope w s) (knows_entry hw.known)
  have hbounded : (acts.foldl Liveness.apply (f.entry w s).liveness).Bounded w.liveness.fresh :=
    Liveness.Bounded.acts hw.bounded fun a ha => hw.pool a (hpool.mem_iff.mpr (List.mem_append_left _ ha))
  refine Liveness.linkReason_eq_none.mpr ⟨fun hreq => ?_, fun d hd => ?_⟩
  · have hreq := (halike.requested _ List.mem_cons_self).mp hreq
    exact Nat.lt_irrefl _ (hbounded _ hreq)
  · have hd : w.liveness.deadlineAfter f.timeout = some d := hd
    rw [Liveness.deadlineAfter] at hd
    split at hd
    · cases hd; exact htime
    · cases hd

/-- An evaluation that fails in time fails with its caller. -/
theorem not_live_of_failed (hw : w.Hosts s) (h : (f.evaluate path s).run w = (.error x, w'))
    (htime : w'.liveness.now < w.liveness.now + f.timeout.nanos) : w'.liveness.live s = false := by
  obtain ⟨r, -, (hr : w'.liveness.reason (f.scope w s) = some r)⟩ :=
    (asks_ask path f.matchers).blames _ _ x w' h
  rw [Bool.eq_false_iff]
  intro hl
  have hlive : w'.liveness.live (f.scope w s) = true :=
    Liveness.live_iff.mpr (List.forall_mem_cons.mpr ⟨linkReason_of_failed hw h htime, Liveness.live_iff.mp hl⟩)
  rw [Liveness.live, hr] at hlive
  cases hlive

theorem allows_of_ask (hw : w.Hosts s) (h : (ask path s ms).run w = (.ok v, w')) : Allows path v ms := by
  induction ms generalizing w with
  | nil => cases h; rfl
  | cons m ms ih =>
    obtain ⟨u, w₁, hu, h⟩ := run_ask_cons h
    obtain ⟨hallow, hw₁⟩ := m.meets_evaluate path s w u w₁ hw hu
    refine ⟨u, hallow, ?_⟩
    rcases h with ⟨hm, rfl⟩ | ⟨rfl, hrest⟩
    · rw [if_pos hm]
    · exact ih hw₁ hrest

end Filter

/-- What can be asked about a path: a filter, or a matcher on its own. -/
inductive Evaluator where
  | filter (f : Filter)
  | matcher (m : Matcher)

namespace Evaluator

def evaluate : Evaluator → String → Scope → Evaluation Verdict
  | filter f => f.evaluate
  | matcher m => m.evaluate

def Allows (path : String) (v : Verdict) : Evaluator → Prop
  | filter f => Filter.Allows path v f.matchers
  | matcher m => m.Allows path v

/-- No globs race. -/
def Unraced : Evaluator → Prop
  | filter f => ∀ m ∈ f.matchers, m.Unraced
  | matcher m => m.Unraced

def verdict : Evaluator → String → Verdict
  | filter f => f.verdict
  | matcher m => m.verdict

/-- A filter has not used up its time between these worlds. -/
def InTime (w w' : World) : Evaluator → Prop
  | filter f => w'.liveness.now < w.liveness.now + f.timeout.nanos
  | matcher _ => True

variable {e : Evaluator} {path : String} {n : Nat} {s t : Scope} {v v' : Verdict} {w w' : World}

theorem passes_evaluate (e : Evaluator) (path : String) (s : Scope) (hn : n ≤ w.liveness.fresh) :
    w.Passes n ((e.evaluate path s).run w).2 := by
  cases e with
  | filter f => exact f.passes_evaluate path s hn
  | matcher m => exact (m.asks_evaluate false path).passes hn nofun

theorem live_of_evaluate (h : ((e.evaluate path s).run w).2.liveness.live t = true) :
    w.liveness.live t = true := by
  cases e with
  | filter f => exact f.live_of_evaluate h
  | matcher m => exact (m.asks_evaluate false path).live_of_run h

theorem run_evaluate_congr (hs : ((e.evaluate path s).run w).2.liveness.live s = true)
    (ht : ((e.evaluate path s).run w).2.liveness.live t = true) :
    (e.evaluate path s).run w = (e.evaluate path t).run w := by
  cases e with
  | filter f => exact Filter.run_evaluate_congr hs ht
  | matcher m => exact (m.asks_evaluate false path).run_congr (.refl s t) nofun hs ht

theorem agree_of_allows (hv : e.Allows path v) (hv' : e.Allows path v') : v.Agree v' := by
  cases e with
  | filter f => exact Filter.agree_of_allows (List.forall₂_same.mpr fun m _ => Matcher.Agree.refl m) hv hv'
  | matcher m => exact (Matcher.Agree.refl m).allows hv hv'

theorem exists_allows (e : Evaluator) (path : String) (hw : w.Hosts s)
    (hl : ((e.evaluate path s).run w).2.liveness.live s = true)
    (htime : e.InTime w ((e.evaluate path s).run w).2) :
    ∃ v, ((e.evaluate path s).run w).1 = .ok v ∧ e.Allows path v := by
  rcases hr : (e.evaluate path s).run w with ⟨x | v, w'⟩
  · rw [hr] at hl htime
    cases e with
    | filter f =>
      rw [Filter.not_live_of_failed hw hr htime] at hl
      cases hl
    | matcher m =>
      obtain ⟨r, -, hreason⟩ := (m.asks_evaluate false path).blames s w x w' hr
      rw [Liveness.live, hreason] at hl
      cases hl
  · refine ⟨v, rfl, ?_⟩
    cases e with
    | filter f => exact Filter.allows_of_ask (Filter.hosts_entry hw) hr
    | matcher m => exact (m.meets_evaluate path s w v w' hw hr).1

theorem eq_verdict_of_unraced (h : e.Unraced) (hv : ((e.evaluate path s).run w).1 = .ok v) :
    v = e.verdict path := by
  have hanswers : ∃ r : Option Reason, ((e.evaluate path s).run w).1 =
      r.elim (.ok (e.verdict path)) fun r => .error (.cancelled r) := by
    cases e with
    | filter f =>
      obtain ⟨n, -, hn⟩ := Filter.ask_answers path h
      exact ⟨_, hn (f.scope w s) (f.entry w s)⟩
    | matcher m =>
      obtain ⟨n, hn⟩ := Matcher.steady_evaluate h path
      exact ⟨_, (hn s).answers w⟩
  obtain ⟨r, hr⟩ := hanswers
  cases r with
  | none => exact Except.ok.inj (hv.symm.trans hr)
  | some r => cases hv.symm.trans hr

end Evaluator

end Exclusion
