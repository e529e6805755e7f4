import Exclusion.Scope

/-! # Races

Several tasks test one input each for themselves, and the first to succeed takes the only slot and
cancels the scope of the race. A task that finds the scope cancelled before its test gives up. The
order in which the tasks move is a schedule; when it is used up, the tasks finish one after another.
-/

namespace Exclusion.Race

inductive Phase where
  /-- Asks whether the race is still on. -/
  | waiting
  /-- Tests the input. -/
  | testing
  /-- Tries to take the slot. -/
  | claiming
  /-- Holds the slot and cancels the race. -/
  | winning
  | done
  deriving DecidableEq, Repr

structure State where
  liveness : Liveness
  slot : Option Nat
  phases : List Phase
  deriving DecidableEq, Repr

inductive Move where
  | task (i : Nat)
  | act (a : Act)
  deriving DecidableEq, Repr

namespace State

def start (v : Liveness) (tasks : Nat) : State := ⟨v, none, List.replicate tasks .waiting⟩

def goTo (st : State) (i : Nat) (p : Phase) : State := { st with phases := st.phases.set i p }

/-- One move of task `i` in a race under `scope`, where `hits` says whose test succeeds. -/
def moveTask (scope : Scope) (hits : Nat → Bool) (st : State) (i : Nat) : State :=
  match st.phases[i]? with
  | some .waiting => st.goTo i (if st.liveness.live scope then .testing else .done)
  | some .testing => st.goTo i (if hits i then .claiming else .done)
  | some .claiming =>
    if st.slot.isNone then { st.goTo i .winning with slot := some i } else st.goTo i .done
  | some .winning => { st.goTo i .done with liveness := st.liveness.cancel scope }
  | _ => st

def move (scope : Scope) (hits : Nat → Bool) (st : State) : Move → State
  | .task i => st.moveTask scope hits i
  | .act a => { st with liveness := st.liveness.apply a }

end State

/-- The moves that bring every task to its end, in order. -/
def remaining (tasks : Nat) : List Move :=
  (List.range tasks).flatMap fun i => List.replicate 4 (.task i)

/-- The state after a schedule and after all tasks have finished. -/
def run (scope : Scope) (hits : Nat → Bool) (v : Liveness) (tasks : Nat) (schedule : List Move) :
    State :=
  (schedule ++ remaining tasks).foldl (State.move scope hits) (.start v tasks)

end Exclusion.Race
