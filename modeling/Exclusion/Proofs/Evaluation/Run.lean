import Exclusion.Evaluation

/-! # Running an evaluation

An evaluation takes a world to an outcome and another world. Each of the operations that evaluations are
made of has an equation that says how.
-/

namespace Exclusion

/-- The surroundings have acted once, and what they did is no longer to come. -/
def World.settle (w : World) : World :=
  { w with liveness := (w.acts.head?.getD []).foldl Liveness.apply w.liveness, acts := w.acts.tail }

namespace Evaluation

variable {α β : Type} {w w' : World} {s : Scope} {e : Evaluation α} {f : α → Evaluation β}

theorem run_bind : (e >>= f).run w = ExceptT.bindCont f (e.run w).1 (e.run w).2 := rfl

theorem run_bind_ok {a : α} (h : e.run w = (.ok a, w')) : (e >>= f).run w = (f a).run w' := by
  rw [run_bind, h]; rfl

theorem run_bind_error {x : Failure} (h : e.run w = (.error x, w')) :
    (e >>= f).run w = (.error x, w') := by
  rw [run_bind, h]; rfl

theorem run_get : (get : Evaluation World).run w = (.ok w, w) := rfl

theorem run_surroundings : surroundings.run w = (.ok (), w.settle) := rfl

theorem run_check_ok (h : w.settle.liveness.reason s = none) : (check s).run w = (.ok (), w.settle) := by
  rw [check, run_bind_ok run_surroundings, run_bind_ok run_get]
  simp only [h]
  rfl

theorem run_check_error {r : Reason} (h : w.settle.liveness.reason s = some r) :
    (check s).run w = (.error (.cancelled r), w.settle) := by
  rw [check, run_bind_ok run_surroundings, run_bind_ok run_get]
  simp only [h]
  rfl

theorem run_openScope (timeout : Option Duration) : (openScope s timeout).run w =
    (.ok (w.liveness.openScope (timeout.bind w.liveness.deadlineAfter) (some s)).1,
      { w with liveness := (w.liveness.openScope (timeout.bind w.liveness.deadlineAfter) (some s)).2 }) :=
  rfl

def raceScope (w : World) (s : Scope) : Scope := ⟨⟨w.liveness.fresh, none⟩, s.chain⟩

def raceEnd (hits : List Bool) (w : World) (s : Scope) : Race.State :=
  Race.run (raceScope w s) (fun i => hits[i]?.getD false)
    { w.liveness with fresh := w.liveness.fresh + 1 } hits.length (w.races.head?.getD [])

def raced (hits : List Bool) (w : World) (s : Scope) : World :=
  { w with liveness := (raceEnd hits w s).liveness, races := w.races.tail }

/-- A race without a winner asks whether its parent is still live. -/
theorem run_race (hits : List Bool) : (race hits s).run w =
    ((raceEnd hits w s).slot.elim (do check s; pure none) (pure ∘ some) : Evaluation (Option Nat)).run
      (raced hits w s) := by
  refine (run_bind_ok (run_openScope none)).trans ?_
  refine (@run_bind_ok _ _ _ (raced hits w s) _ _ (raceEnd hits w s).slot ?_).trans ?_
  · rfl
  · cases (raceEnd hits w s).slot <;> rfl

theorem run_race_won {hits : List Bool} {i : Nat} (h : (raceEnd hits w s).slot = some i) :
    (race hits s).run w = (.ok (some i), raced hits w s) := by
  rw [run_race, h]; rfl

theorem run_race_lost {hits : List Bool} (h : (raceEnd hits w s).slot = none) :
    (race hits s).run w = (do check s; pure none : Evaluation (Option Nat)).run (raced hits w s) := by
  rw [run_race, h]; rfl

end Evaluation

end Exclusion
