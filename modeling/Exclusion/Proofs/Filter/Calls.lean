import Exclusion.Proofs.Filter.Evaluator

/-! # Calls

Questions about paths are answered one after the other, each under a scope. Which live scopes these are does not
matter to the answers, and the same question is answered alike wherever it is asked.
-/

namespace Exclusion

open Evaluation

/-- A question about a path, for the verdict or only whether the path is excluded. -/
structure Question where
  evaluator : Evaluator
  path : String
  detailed : Bool

inductive Reply where
  | verdict (v : Verdict)
  | excluded (b : Bool)
  deriving DecidableEq, Repr

/-- The same but for the glob that a verdict names. -/
inductive Reply.Agree : Reply → Reply → Prop
  | verdict {v v' : Verdict} (h : v.Agree v') : Agree (.verdict v) (.verdict v')
  | excluded (b : Bool) : Agree (.excluded b) (.excluded b)

namespace Question

def reply (q : Question) (v : Verdict) : Reply := if q.detailed then .verdict v else .excluded v.isMatch

def answer (q : Question) (s : Scope) : Evaluation Reply := do
  return q.reply (← q.evaluator.evaluate q.path s)

/-- The scope outlasts the answer, and a filter has time for it. -/
structure Completes (q : Question) (s : Scope) (w : World) : Prop where
  live : ((q.answer s).run w).2.liveness.live s = true
  inTime : q.evaluator.InTime w ((q.answer s).run w).2

variable {q : Question} {s t : Scope} {v v' : Verdict} {w u : World}

theorem left_answer (q : Question) (s : Scope) (w : World) :
    ((q.answer s).run w).2 = ((q.evaluator.evaluate q.path s).run w).2 := by
  rcases run_bind_cases (q.evaluator.evaluate q.path s) (fun v => pure (q.reply v)) w with
    ⟨x, u, hr, he⟩ | ⟨v, u, hr, he⟩
  · exact (congrArg Prod.snd he).trans (congrArg Prod.snd hr).symm
  · exact (congrArg Prod.snd he).trans (congrArg Prod.snd hr).symm

theorem run_answer_congr (hs : ((q.answer s).run w).2.liveness.live s = true)
    (ht : ((q.answer s).run w).2.liveness.live t = true) : (q.answer s).run w = (q.answer t).run w := by
  rw [left_answer] at hs ht
  rw [answer, answer, run_bind, run_bind, Evaluator.run_evaluate_congr hs ht]

theorem agree_reply (q : Question) (h : v.Agree v') : (q.reply v).Agree (q.reply v') := by
  unfold reply
  split
  · exact .verdict h
  · rw [h.isMatch]
    exact .excluded _

theorem exists_reply (hw : w.Hosts s) (h : q.Completes s w) : ∃ v, q.evaluator.Allows q.path v ∧
    ((q.answer s).run w).1 = .ok (q.reply v) ∧ (q.evaluator.Unraced → v = q.evaluator.verdict q.path) := by
  obtain ⟨v, hv, hallow⟩ := q.evaluator.exists_allows q.path hw (q.left_answer s w ▸ h.live)
    (q.left_answer s w ▸ h.inTime)
  refine ⟨v, hallow, ?_, fun hu => Evaluator.eq_verdict_of_unraced hu hv⟩
  rw [answer, run_bind_ok (run_eq_of_ok hv)]
  rfl

theorem answers_agree (hw : w.Hosts s) (hu : u.Hosts t) (hs : q.Completes s w) (ht : q.Completes t u) :
    ∃ r r', ((q.answer s).run w).1 = .ok r ∧ ((q.answer t).run u).1 = .ok r' ∧ r.Agree r' ∧
      (q.evaluator.Unraced → r = r') := by
  obtain ⟨v, hv, hr, hverdict⟩ := exists_reply hw hs
  obtain ⟨v', hv', hr', hverdict'⟩ := exists_reply hu ht
  refine ⟨_, _, hr, hr', q.agree_reply (Evaluator.agree_of_allows hv hv'), fun h => ?_⟩
  rw [hverdict h, hverdict' h]

end Question

structure Call where
  question : Question
  scope : Scope

namespace Call

/-- The answers to all calls, one after the other, whether they fail or not, and the world that is left. -/
def answers : List Call → World → List (Except Failure Reply) × World
  | [], w => ([], w)
  | c :: calls, w =>
    let (x, w') := (c.question.answer c.scope).run w
    let (xs, w'') := answers calls w'
    (x :: xs, w'')

def left (c : Call) (w : World) : World := ((c.question.answer c.scope).run w).2

variable {c : Call} {calls others : List Call} {n : Nat} {s : Scope} {w : World}

theorem passes_left (c : Call) (hn : n ≤ w.liveness.fresh) : w.Passes n (c.left w) := by
  rw [left, Question.left_answer]
  exact c.question.evaluator.passes_evaluate c.question.path c.scope hn

theorem live_of_left (h : (c.left w).liveness.live s = true) : w.liveness.live s = true := by
  rw [left, Question.left_answer] at h
  exact Evaluator.live_of_evaluate h

theorem answers_cons : answers (c :: calls) w =
    (((c.question.answer c.scope).run w).1 :: (answers calls (c.left w)).1, (answers calls (c.left w)).2) :=
  rfl

theorem passes_answers (calls : List Call) (hn : n ≤ w.liveness.fresh) : w.Passes n (answers calls w).2 := by
  induction calls generalizing w with
  | nil => exact .refl n w
  | cons c calls ih =>
    have hc := c.passes_left hn
    exact hc.trans (ih (Nat.le_trans hn hc.fresh))

theorem live_of_answers (h : (answers calls w).2.liveness.live s = true) : w.liveness.live s = true := by
  induction calls generalizing w with
  | nil => exact h
  | cons c calls ih => exact live_of_left (ih h)

/-- Other live scopes give the same answers. -/
theorem answers_congr (h : List.Forall₂ (fun c c' => c.question = c'.question) calls others)
    (hc : ∀ c ∈ calls, (answers calls w).2.liveness.live c.scope = true)
    (ho : ∀ c ∈ others, (answers calls w).2.liveness.live c.scope = true) :
    answers others w = answers calls w := by
  induction h generalizing w with
  | nil => rfl
  | @cons c c' calls others hq _ ih =>
    have hrun : (c.question.answer c.scope).run w = (c'.question.answer c'.scope).run w := by
      rw [← hq]
      exact Question.run_answer_congr (live_of_answers (hc c List.mem_cons_self))
        (live_of_answers (ho c' List.mem_cons_self))
    have hrest : answers others (c.left w) = answers calls (c.left w) :=
      ih (fun d hd => hc d (List.mem_cons_of_mem _ hd)) fun d hd => ho d (List.mem_cons_of_mem _ hd)
    rw [answers_cons, answers_cons, ← hrun, left, ← hrun, ← left, hrest]

end Call

end Exclusion
