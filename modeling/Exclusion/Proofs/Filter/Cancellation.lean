import Exclusion.Proofs.Filter.Verdict

/-! # Cancelled evaluations

A filter without races has one verdict about each path. An evaluation gives this verdict or fails with
the reason that one of its checks is given. However late its scope ends, no other verdict comes out.
-/

namespace Exclusion.Filter

open Evaluation

variable {f : Filter} {w : World} {caller : Scope}

def scope (f : Filter) (w : World) (caller : Scope) : Scope :=
  (w.liveness.openScope (w.liveness.deadlineAfter f.timeout) (some caller)).1

def entry (f : Filter) (w : World) (caller : Scope) : World :=
  { w with liveness := (w.liveness.openScope (w.liveness.deadlineAfter f.timeout) (some caller)).2 }

theorem run_evaluate (f : Filter) (path : String) (caller : Scope) (w : World) :
    (f.evaluate path caller).run w =
      (ask path (f.scope w caller) f.matchers).run (f.entry w caller) :=
  rfl

def verdictOf (path : String) (ms : List Matcher) : Verdict :=
  ((ms.map (·.verdict path)).find? (·.isMatch)).getD .unmatched

def verdict (f : Filter) (path : String) : Verdict := verdictOf path f.matchers

theorem not_live_entry (h : w.liveness.live caller = false) :
    (f.entry w caller).liveness.live (f.scope w caller) = false := by
  rw [Bool.eq_false_iff] at h ⊢
  refine fun hl => h (Liveness.live_iff.mpr fun l hl' => ?_)
  exact Liveness.live_iff.mp hl l (List.mem_cons_of_mem _ hl')

theorem knows_entry (h : w.liveness.Knows caller) :
    (f.entry w caller).liveness.Knows (f.scope w caller) := by
  intro l hl
  rcases List.mem_cons.mp hl with rfl | hl
  · exact Nat.lt_succ_self _
  · exact Nat.lt_succ_of_lt (h l hl)

theorem answers_stop (s : Scope) (fields : List (String × String)) (v : Verdict) :
    Answers s 0 v (do Evaluation.cancel s; trace "path ignored" fields; return v) :=
  fun _ => rfl

/-- A filter without races asks a fixed number of times, at least once for each matcher that it asks. -/
theorem ask_answers (path : String) {ms : List Matcher} (h : ∀ m ∈ ms, m.Unraced) :
    ∃ n, (ms ≠ [] → 0 < n) ∧ ∀ s, Answers s n (verdictOf path ms) (ask path s ms) := by
  induction ms with
  | nil => exact ⟨0, nofun, fun s => (steady_pure s _).answers⟩
  | cons m ms ih =>
    obtain ⟨n, hn⟩ := Matcher.steady_evaluate (h m List.mem_cons_self) path
    obtain ⟨k, -, hk⟩ := ih fun m' hm' => h m' (List.mem_cons_of_mem _ hm')
    cases hv : (m.verdict path).isMatch with
    | true =>
      refine ⟨1 + n + 0, fun _ => by omega, fun s => (hn s).bind_answers ?_⟩
      have hfirst : verdictOf path (m :: ms) = m.verdict path := by simp [verdictOf, hv]
      rw [if_pos hv, hfirst]
      exact answers_stop s _ _
    | false =>
      refine ⟨1 + n + k, fun _ => by omega, fun s => (hn s).bind_answers ?_⟩
      have hrest : verdictOf path (m :: ms) = verdictOf path ms := by simp [verdictOf, hv]
      rw [if_neg (by simp [hv]), hrest]
      exact hk s

theorem ofMatchers_ok {ms : List Matcher} {timeout : Option Duration} {log : Log}
    (h : ((ofMatchers ms timeout).run log).1 = .ok f) : ms ≠ [] ∧ f.matchers = ms := by
  unfold ofMatchers at h
  by_cases hms : ms.isEmpty = true
  · rw [if_pos hms] at h; cases h
  · rw [if_neg hms] at h
    cases h
    exact ⟨fun he => hms (by simp [he]), rfl⟩

/-- Without races an evaluation fails or gives the verdict. It gives the verdict if its scope is live at
each of its checks, it fails if its scope is not live from the start, and it fails only with the reason
of its scope at a check. -/
theorem evaluate_cancelled {ms : List Matcher} {timeout : Option Duration} {log : Log}
    (hf : ((ofMatchers ms timeout).run log).1 = .ok f) (hms : ∀ m ∈ ms, m.Unraced) (path : String) :
    ∃ checks, ∀ (w : World) (caller : Scope),
      let s := f.scope w caller
      let entry := f.entry w caller
      let answer := ((f.evaluate path caller).run w).1
      (answer = .ok (f.verdict path) ∨ ∃ r, answer = .error (.cancelled r)) ∧
      ((∀ k < checks, (entry.settles (k + 1)).liveness.live s = true) → answer = .ok (f.verdict path)) ∧
      (w.liveness.live caller = false ∨ entry.liveness.live s = false →
        ∃ r, answer = .error (.cancelled r) ∧ entry.settle.liveness.reason s = some r) ∧
      (∀ x, answer = .error x → ∃ k < checks, ∃ r,
        x = .cancelled r ∧ (entry.settles (k + 1)).liveness.reason s = some r) := by
  obtain ⟨hne, hf⟩ := ofMatchers_ok hf
  obtain ⟨n, hpos, hn⟩ := ask_answers path hms
  refine ⟨n, fun w caller => ?_⟩
  intro s entry answer
  have hanswer : answer = (entry.trip s n).elim (.ok (f.verdict path)) fun r => .error (.cancelled r) := by
    have := hn s entry
    rw [← hf] at this
    exact this
  refine ⟨?_, ?_, ?_, ?_⟩
  · rw [hanswer]
    cases entry.trip s n with
    | none => exact .inl rfl
    | some r => exact .inr ⟨r, rfl⟩
  · intro hlive
    rw [hanswer, World.trip_eq_none.mpr hlive]; rfl
  · intro hdead
    obtain ⟨r, ht, hr⟩ := World.trip_of_not_live (hdead.elim not_live_entry id) (hpos hne)
    exact ⟨r, by rw [hanswer, ht]; rfl, hr⟩
  · intro x hx
    rw [hanswer] at hx
    cases ht : entry.trip s n with
    | none => rw [ht] at hx; cases hx
    | some r =>
      rw [ht] at hx
      cases hx
      obtain ⟨k, hk, hr, -⟩ := World.trip_eq_some.mp ht
      exact ⟨k, hk, r, rfl, hr⟩

/-- An evaluation that starts in a cancelled scope fails with that reason, also with time left. -/
theorem evaluate_cancelled_from_start :
    let f : Filter :=
      ⟨[.regex (.sequential [.char 'a']), .gitignore ⟨.sequential [], .sequential []⟩], .ofSeconds 1⟩
    let caller : Scope := ⟨⟨0, none⟩, []⟩
    let w : World := ⟨⟨5, [0], 1⟩, [], [], []⟩
    ((f.evaluate "a" caller).run w).1 = .error (.cancelled .requested) := by
  intro f caller w
  have hf : ((ofMatchers f.matchers (some f.timeout)).run []).1 = .ok f := rfl
  have hms : ∀ m ∈ f.matchers, m.Unraced := by simp [f, Matcher.Unraced]
  obtain ⟨n, hn⟩ := evaluate_cancelled hf hms "a"
  obtain ⟨r, ha, hr⟩ := (hn w caller).2.2.1 (.inl (by decide))
  have hreq : (f.entry w caller).settle.liveness.reason (f.scope w caller) = some .requested := by decide
  rw [ha, Option.some.inj (hr.symm.trans hreq)]

end Exclusion.Filter
