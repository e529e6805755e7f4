import Exclusion.Event
import Exclusion.Failure
import Exclusion.Race

/-! # Compiling and evaluating

Compiling may fail and reports events. Evaluating runs in a world: scopes that others may cancel, a
clock that moves on, and events. The surroundings act only where an evaluation asks whether its scope
is live, and where tasks race; what they do there is given in advance.
-/

namespace Exclusion

/-- Compiling: an outcome, and events even when it fails. -/
abbrev Build := ExceptT Failure (StateM Log)

namespace Build

def emit (e : Event) : Build Unit := modify (· ++ [e])

def debug (message : String) (fields : List (String × FieldValue)) : Build Unit :=
  emit ⟨.debug, message, fields⟩

def warn (message : String) : Build Unit := emit ⟨.warn, message, []⟩

end Build

structure World where
  liveness : Liveness
  log : Log
  /-- What the surroundings do before each check to come. -/
  acts : List (List Act)
  /-- How the tasks of each race to come move. -/
  races : List (List Race.Move)

def World.calm (v : Liveness) : World := ⟨v, [], [], []⟩

/-- An evaluation: an outcome, and the world it leaves. -/
abbrev Evaluation := ExceptT Failure (StateM World)

namespace Evaluation

def trace (message : String) (fields : List (String × String)) : Evaluation Unit :=
  modify fun w =>
    { w with log := w.log ++ [⟨.trace, message, fields.map fun (k, v) => (k, .text v)⟩] }

/-- Lets the surroundings act once. -/
def surroundings : Evaluation Unit :=
  modify fun w =>
    { w with liveness := (w.acts.head?.getD []).foldl Liveness.apply w.liveness, acts := w.acts.tail }

def check (s : Scope) : Evaluation Unit := do
  surroundings
  match (← get).liveness.reason s with
  | some r => throw (.cancelled r)
  | none => return ()

def openScope (parent : Scope) (timeout : Option Duration) : Evaluation Scope :=
  modifyGet fun w =>
    let (s, v) := w.liveness.openScope (timeout.bind w.liveness.deadlineAfter) (some parent)
    (s, { w with liveness := v })

def cancel (s : Scope) : Evaluation Unit :=
  modify fun w => { w with liveness := w.liveness.cancel s }

/-- Races one task per entry of `hits` in a scope inside `parent`. When none has taken the slot, the
tasks may have given up, and the race fails if its parent is no longer live. -/
def race (hits : List Bool) (parent : Scope) : Evaluation (Option Nat) := do
  let scope ← openScope parent none
  let winner ← modifyGet fun w =>
    let st := Race.run scope (fun i => hits[i]?.getD false) w.liveness hits.length (w.races.head?.getD [])
    (st.slot, { w with liveness := st.liveness, races := w.races.tail })
  match winner with
  | some i => return some i
  | none => do
    check parent
    return none

/-- The position of the first entry that holds, asking before each one whether the scope is live. -/
def scan {α : Type} (test : α → Bool) (s : Scope) (index : Nat) : List α → Evaluation (Option Nat)
  | [] => return none
  | a :: rest => do
    check s
    if test a then return some index else scan test s (index + 1) rest

end Evaluation

end Exclusion
