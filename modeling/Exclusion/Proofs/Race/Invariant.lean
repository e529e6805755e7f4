import Exclusion.Proofs.Evaluation.Liveness
import Exclusion.Race

/-! # What every race keeps

An empty slot does not say why tasks gave up. As long as it is empty, nothing but the scope around the
race can have ended it, so that tasks give up untested only when that scope is no longer live. What
one move keeps, every schedule keeps.
-/

namespace Exclusion.Race

structure Inside (scope caller : Scope) : Prop where
  outer : scope.outer = caller.chain
  timeless : scope.own.deadline = none

def Move.Spares (scope : Scope) : Move → Prop
  | task _ => True
  | act a => a.Spares scope.own.id

structure Sound (scope caller : Scope) (hits : Nat → Bool) (st : State) : Prop where
  slot_hits : ∀ i, st.slot = some i → hits i = true
  claiming_hits : ∀ i, st.phases[i]? = some .claiming → hits i = true
  winning_slot : ∀ i, st.phases[i]? = some .winning → st.slot = some i
  uncancelled : st.slot = none → scope.own.id ∉ st.liveness.requested
  finished : st.slot = none → st.liveness.live caller = true →
    ∀ i, st.phases[i]? = some .done → hits i = false

/-- Only tasks that pass their tests take the slot, even in a race that others cancel. -/
structure Earned (hits : Nat → Bool) (st : State) : Prop where
  slot : ∀ i, st.slot = some i → hits i = true
  claiming : ∀ i, st.phases[i]? = some .claiming → hits i = true

variable {scope caller : Scope} {hits : Nat → Bool} {st : State} {i j : Nat} {p q : Phase}

section Moves

theorem phases_goTo (hi : st.phases[i]? = some q) :
    (st.goTo i p).phases[j]? = if j = i then some p else st.phases[j]? := by
  have hlt : i < st.phases.length := (List.getElem?_eq_some_iff.mp hi).1
  rw [State.goTo, List.getElem?_set]
  by_cases h : i = j
  · subst h; simp [hlt]
  · simp [h, Ne.symm h]

theorem Earned.goTo (h : Earned hits st) (hi : st.phases[i]? = some q) (hp : p = .claiming → hits i = true) :
    Earned hits (st.goTo i p) := by
  refine ⟨h.slot, fun j hj => ?_⟩
  rw [phases_goTo hi] at hj
  split at hj
  · rename_i he; subst he; exact hp (Option.some.inj hj)
  · exact h.claiming j hj

theorem Earned.move (h : Earned hits st) (m : Move) : Earned hits (st.move scope hits m) := by
  cases m with
  | act a => exact ⟨h.slot, h.claiming⟩
  | task i =>
    rw [State.move, State.moveTask]
    split
    · rename_i hi; exact h.goTo hi (by split <;> nofun)
    · rename_i hi
      refine h.goTo hi ?_
      split
      · rename_i hh; exact fun _ => hh
      · nofun
    · rename_i hi
      split
      · refine ⟨?_, (h.goTo hi (p := .winning) nofun).claiming⟩
        rintro j ⟨⟩; exact h.claiming i hi
      · exact h.goTo hi nofun
    · rename_i hi
      have hg := h.goTo hi (p := .done) nofun
      exact ⟨hg.slot, hg.claiming⟩
    · exact h

theorem Earned.moves (h : Earned hits st) (ms : List Move) : Earned hits (ms.foldl (State.move scope hits) st) := by
  induction ms generalizing st with
  | nil => exact h
  | cons m ms ih => exact ih (h.move m)

theorem Earned.start (v : Liveness) (tasks : Nat) : Earned hits (.start v tasks) := by
  refine ⟨nofun, fun i hp => ?_⟩
  cases (List.mem_replicate.mp (List.mem_of_getElem? hp)).2

theorem Sound.earned (h : Sound scope caller hits st) : Earned hits st := ⟨h.slot_hits, h.claiming_hits⟩

theorem Sound.start {v : Liveness} {tasks : Nat} (h : scope.own.id ∉ v.requested) :
    Sound scope caller hits (.start v tasks) := by
  have hwait {i p} (hp : (State.start v tasks).phases[i]? = some p) : p = Phase.waiting :=
    (List.mem_replicate.mp (List.mem_of_getElem? hp)).2
  constructor
  · intro i hs; cases hs
  · intro i hp; cases hwait hp
  · intro i hp; cases hwait hp
  · intro _; exact h
  · intro _ _ i hp; cases hwait hp

theorem Sound.goTo (h : Sound scope caller hits st) (hi : st.phases[i]? = some q)
    (hclaim : p = .claiming → hits i = true) (hwin : p = .winning → st.slot = some i)
    (hdone : p = .done → st.slot = none → st.liveness.live caller = true → hits i = false) :
    Sound scope caller hits (st.goTo i p) := by
  have hearned := h.earned.goTo hi hclaim
  constructor
  · exact hearned.slot
  · exact hearned.claiming
  · intro j hj
    rw [phases_goTo hi] at hj
    split at hj
    · rename_i he; subst he; exact hwin (Option.some.inj hj)
    · exact h.winning_slot j hj
  · exact h.uncancelled
  · intro hs hl j hj
    rw [phases_goTo hi] at hj
    split at hj
    · rename_i he; subst he; exact hdone (Option.some.inj hj) hs hl
    · exact h.finished hs hl j hj

theorem Sound.claim (h : Sound scope caller hits st) (hi : st.phases[i]? = some .claiming)
    (hs : st.slot = none) : Sound scope caller hits { st.goTo i .winning with slot := some i } := by
  constructor
  · rintro j ⟨⟩; exact h.claiming_hits i hi
  · exact (h.earned.goTo hi (p := .winning) nofun).claiming
  · intro j hj
    rw [phases_goTo hi] at hj
    split at hj
    · rename_i he; rw [he]
    · exact absurd (h.winning_slot j hj) (by simp [hs])
  · intro hn; cases hn
  · intro hn; cases hn

theorem Sound.cancel (h : Sound scope caller hits st) (hi : st.phases[i]? = some .winning) :
    Sound scope caller hits { st.goTo i .done with liveness := st.liveness.cancel scope } := by
  have hslot : st.slot = some i := h.winning_slot i hi
  have hg := h.goTo hi (p := .done) nofun nofun fun _ hs => absurd (hs ▸ hslot) nofun
  constructor
  · exact hg.slot_hits
  · exact hg.claiming_hits
  · exact hg.winning_slot
  · intro hs; exact absurd (hs ▸ hslot) nofun
  · intro hs; exact absurd (hs ▸ hslot) nofun

theorem Sound.moveTask (hin : Inside scope caller) (h : Sound scope caller hits st) (i : Nat) :
    Sound scope caller hits (st.moveTask scope hits i) := by
  unfold State.moveTask
  split
  · rename_i hi
    -- With an empty slot the race ends only with its caller.
    refine h.goTo hi ?_ ?_ ?_
    · split <;> nofun
    · split <;> nofun
    · split
      · nofun
      · rename_i hlive
        intro _ hs hl
        rw [Liveness.live_child hin.outer hin.timeless (h.uncancelled hs)] at hlive
        exact absurd hl hlive
  · rename_i hi
    refine h.goTo hi ?_ ?_ ?_
    · split
      · rename_i hh; intro _; exact hh
      · nofun
    · split <;> nofun
    · split
      · nofun
      · rename_i hh; intro _ _ _; exact Bool.eq_false_iff.mpr hh
  · rename_i hi
    split
    · rename_i hs; exact h.claim hi (Option.isNone_iff_eq_none.mp hs)
    · rename_i hs
      exact h.goTo hi nofun nofun fun _ hn => absurd (by rw [hn]; rfl) hs
  · rename_i hi; exact h.cancel hi
  · exact h

theorem Sound.act {a : Act} (ha : a.Spares scope.own.id) (h : Sound scope caller hits st) :
    Sound scope caller hits { st with liveness := st.liveness.apply a } := by
  constructor
  · exact h.slot_hits
  · exact h.claiming_hits
  · exact h.winning_slot
  · intro hs hm; exact h.uncancelled hs ((Liveness.requested_apply ha).mp hm)
  · intro hs hl; exact h.finished hs (Liveness.live_of_apply hl)

theorem Sound.move {m : Move} (hin : Inside scope caller) (hm : m.Spares scope)
    (h : Sound scope caller hits st) : Sound scope caller hits (st.move scope hits m) := by
  cases m with
  | task i => exact h.moveTask hin i
  | act a => exact h.act hm

/-- What one move keeps, every schedule keeps. -/
theorem Sound.moves {ms : List Move} (hin : Inside scope caller) (hms : ∀ m ∈ ms, m.Spares scope)
    (h : Sound scope caller hits st) : Sound scope caller hits (ms.foldl (State.move scope hits) st) := by
  induction ms generalizing st with
  | nil => exact h
  | cons m ms ih =>
    exact ih (fun n hn => hms n (List.mem_cons_of_mem _ hn)) (h.move hin (hms m List.mem_cons_self))

def Move.act? : Move → Option Act
  | task _ => none
  | act a => some a

theorem liveness_moveTask (scope : Scope) (hits : Nat → Bool) (st : State) (i : Nat) :
    (st.moveTask scope hits i).liveness = st.liveness ∨
    (st.moveTask scope hits i).liveness = st.liveness.cancel scope := by
  unfold State.moveTask
  split
  · exact .inl rfl
  · exact .inl rfl
  · split
    · exact .inl rfl
    · exact .inl rfl
  · exact .inr rfl
  · exact .inl rfl

/-- A race tells its caller nothing: to the caller it is as if only the surroundings had moved. -/
theorem alike_moves {ms : List Move} {v : Liveness} (hid : ∀ l ∈ caller.chain, l.id ≠ scope.own.id)
    (h : Liveness.Alike caller st.liveness v) :
    Liveness.Alike caller (ms.foldl (State.move scope hits) st).liveness
      ((ms.filterMap Move.act?).foldl Liveness.apply v) := by
  induction ms generalizing st v with
  | nil => exact h
  | cons m ms ih =>
    cases m with
    | act a => exact ih (h.apply a)
    | task i =>
      refine ih ?_
      rcases liveness_moveTask scope hits st i with hl | hl
      · rw [State.move, hl]; exact h
      · rw [State.move, hl]; exact h.cancel hid

theorem bounded_moves {ms : List Move} {n : Nat} (hid : scope.own.id < n)
    (hms : ∀ a, .act a ∈ ms → a.Among n) (h : st.liveness.Bounded n) :
    (ms.foldl (State.move scope hits) st).liveness.Bounded n := by
  induction ms generalizing st with
  | nil => exact h
  | cons m ms ih =>
    refine ih (fun a ha => hms a (List.mem_cons_of_mem _ ha)) ?_
    cases m with
    | act a => exact h.apply (hms a List.mem_cons_self)
    | task i =>
      rcases liveness_moveTask scope hits st i with hl | hl
      · rw [State.move, hl]; exact h
      · rw [State.move, hl]; exact h.apply (a := .cancel scope) hid

theorem fresh_moves (ms : List Move) :
    (ms.foldl (State.move scope hits) st).liveness.fresh = st.liveness.fresh := by
  induction ms generalizing st with
  | nil => rfl
  | cons m ms ih =>
    rw [List.foldl_cons, ih]
    cases m with
    | act a => exact Liveness.fresh_apply
    | task i =>
      rcases liveness_moveTask scope hits st i with hl | hl
      · rw [State.move, hl]
      · rw [State.move, hl]; rfl

end Moves

end Exclusion.Race
