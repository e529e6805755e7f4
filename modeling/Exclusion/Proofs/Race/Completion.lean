import Exclusion.Proofs.Race.Invariant

/-! # How a race ends

The slot is taken once at most, by the task that holds it in the end. Every move of a task brings it
nearer to its end, so that in the end all tasks have finished, whatever the schedule.
-/

namespace Exclusion.Race

variable {scope : Scope} {hits : Nat → Bool} {st : State} {i j : Nat} {p : Phase}

section Claims

/-- The task that takes the slot with this move, if one does. -/
def State.claim? (st : State) : Move → Option Nat
  | .task i => if st.phases[i]? = some .claiming ∧ st.slot = none then some i else none
  | .act _ => none

/-- The tasks that take the slot in the course of a schedule. -/
def claimants (scope : Scope) (hits : Nat → Bool) (st : State) : List Move → List Nat
  | [] => []
  | m :: ms => (st.claim? m).toList ++ claimants scope hits (st.move scope hits m) ms

theorem slot_move (m : Move) : (st.move scope hits m).slot = st.slot.or (st.claim? m) := by
  cases m with
  | act a => simp [State.move, State.claim?]
  | task i =>
    simp only [State.move, State.moveTask, State.claim?]
    cases hi : st.phases[i]? with
    | none => simp
    | some p =>
      cases p with
      | claiming =>
        cases hs : st.slot with
        | none => simp
        | some j => simp [State.goTo, hs]
      | _ => simp [State.goTo]

theorem slot_moves_of_some {ms : List Move} (h : st.slot = some i) :
    (ms.foldl (State.move scope hits) st).slot = some i := by
  induction ms generalizing st with
  | nil => exact h
  | cons m ms ih => exact ih (by rw [slot_move, h, Option.some_or])

theorem claimants_of_some {ms : List Move} (h : st.slot = some i) : claimants scope hits st ms = [] := by
  induction ms generalizing st with
  | nil => rfl
  | cons m ms ih =>
    rw [claimants, ih (by rw [slot_move, h, Option.some_or])]
    cases m <;> simp [State.claim?, h]

theorem claimants_of_none {ms : List Move} (h : st.slot = none) :
    claimants scope hits st ms = (ms.foldl (State.move scope hits) st).slot.toList := by
  induction ms generalizing st with
  | nil => rw [claimants, List.foldl_nil, h]; rfl
  | cons m ms ih =>
    have hs : (st.move scope hits m).slot = st.claim? m := by rw [slot_move, h, Option.none_or]
    rw [claimants, List.foldl_cons]
    cases hc : st.claim? m with
    | none => rw [ih (hs.trans hc)]; rfl
    | some i =>
      rw [claimants_of_some (hs.trans hc), slot_moves_of_some (hs.trans hc)]
      rfl

end Claims

section Completion

variable (scope hits)

/-- How many moves a task in this phase still has. -/
def Phase.left : Phase → Nat
  | waiting => 4
  | testing => 3
  | claiming => 2
  | winning => 1
  | done => 0

theorem phases_moveTask_ne (h : i ≠ j) : (st.moveTask scope hits i).phases[j]? = st.phases[j]? := by
  unfold State.moveTask
  split
  · exact List.getElem?_set_ne h
  · exact List.getElem?_set_ne h
  · split
    · exact List.getElem?_set_ne h
    · exact List.getElem?_set_ne h
  · exact List.getElem?_set_ne h
  · rfl

/-- A move of a task brings it nearer to its end. -/
theorem left_moveTask (hj : st.phases[j]? = some p) :
    ∃ q, (st.moveTask scope hits j).phases[j]? = some q ∧ q.left ≤ p.left - 1 := by
  have hgo (q : Phase) : (st.goTo j q).phases[j]? = some q := by rw [phases_goTo hj, if_pos rfl]
  unfold State.moveTask
  cases p with
  | waiting =>
    rw [hj]
    refine ⟨_, hgo _, ?_⟩
    split <;> decide
  | testing =>
    rw [hj]
    refine ⟨_, hgo _, ?_⟩
    split <;> decide
  | claiming =>
    rw [hj]
    by_cases hs : st.slot.isNone = true
    · rw [if_pos hs]; exact ⟨_, hgo .winning, by decide⟩
    · rw [if_neg hs]; exact ⟨_, hgo .done, by decide⟩
  | winning => rw [hj]; exact ⟨_, hgo .done, by decide⟩
  | done => rw [hj]; exact ⟨_, hj, by decide⟩

theorem left_move (hj : st.phases[j]? = some p) (m : Move) :
    ∃ q, (st.move scope hits m).phases[j]? = some q ∧ q.left ≤ p.left := by
  cases m with
  | act a => exact ⟨p, hj, Nat.le_refl _⟩
  | task i =>
    by_cases h : i = j
    · subst h
      obtain ⟨q, hq, hl⟩ := left_moveTask scope hits hj
      exact ⟨q, hq, Nat.le_trans hl (Nat.sub_le _ 1)⟩
    · exact ⟨p, (phases_moveTask_ne scope hits h).trans hj, Nat.le_refl _⟩

theorem left_moves (ms : List Move) (hj : st.phases[j]? = some p) :
    ∃ q, (ms.foldl (State.move scope hits) st).phases[j]? = some q ∧ q.left ≤ p.left := by
  induction ms generalizing st p with
  | nil => exact ⟨p, hj, Nat.le_refl _⟩
  | cons m ms ih =>
    obtain ⟨q, hq, hl⟩ := left_move scope hits hj m
    obtain ⟨r, hr, hl'⟩ := ih hq
    exact ⟨r, hr, Nat.le_trans hl' hl⟩

theorem left_replicate (n : Nat) (hj : st.phases[j]? = some p) :
    ∃ q, ((List.replicate n (.task j)).foldl (State.move scope hits) st).phases[j]? = some q ∧
      q.left ≤ p.left - n := by
  induction n generalizing st p with
  | zero => exact ⟨p, hj, Nat.le_refl _⟩
  | succ n ih =>
    obtain ⟨q, hq, hl⟩ := left_moveTask scope hits hj
    obtain ⟨r, hr, hl'⟩ := ih hq
    exact ⟨r, hr, by omega⟩

theorem done_of_left {p : Phase} (h : p.left = 0) : p = .done := by
  cases p <;> first | rfl | cases h

/-- After what remains, every task has finished. -/
theorem done_remaining {tasks : Nat} (hj : j < tasks) (hp : st.phases[j]? = some p) :
    ((remaining tasks).foldl (State.move scope hits) st).phases[j]? = some .done := by
  obtain ⟨before, after, hr⟩ : ∃ before after, remaining tasks =
      before ++ (List.replicate 4 (.task j) ++ after) := by
    obtain ⟨xs, ys, he⟩ := List.append_of_mem (List.mem_range.mpr hj)
    exact ⟨_, _, by rw [remaining, he, List.flatMap_append, List.flatMap_cons]⟩
  rw [hr, List.foldl_append, List.foldl_append]
  obtain ⟨q, hq, -⟩ := left_moves scope hits before hp
  obtain ⟨r, hr, hl⟩ := left_replicate scope hits 4 hq
  obtain ⟨t, ht, hl'⟩ := left_moves scope hits after hr
  have hq4 : q.left ≤ 4 := by cases q <;> decide
  rw [ht, done_of_left (p := t) (by omega)]

theorem done_run (v : Liveness) {tasks : Nat} (schedule : List Move) (hj : j < tasks) :
    (run scope hits v tasks schedule).phases[j]? = some .done := by
  have hstart : (State.start v tasks).phases[j]? = some .waiting := by
    rw [State.start, List.getElem?_replicate, if_pos hj]
  obtain ⟨p, hp, -⟩ := left_moves scope hits schedule hstart
  rw [run, List.foldl_append]
  exact done_remaining scope hits hj hp

end Completion

end Exclusion.Race
