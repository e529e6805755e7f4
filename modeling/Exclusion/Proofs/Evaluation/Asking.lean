import Exclusion.Proofs.Evaluation.Contract
import Exclusion.Proofs.Evaluation.Frame

/-! # Evaluations that only ask

Matchers do nothing with their scope but ask whether it is live and race tasks in it. Whatever is made of such
steps blames its scope when it fails, cancels no scope from before, and cannot tell one live scope from another.
So does an evaluation that also cancels its scope, for the scopes around that one.
-/

namespace Exclusion

namespace Scope

/-- The first scope lies in `s` as the second one lies in `t`. -/
def Alongside (s t c d : Scope) : Prop := ∃ inner, c.chain = inner ++ s.chain ∧ d.chain = inner ++ t.chain

variable {s t c d : Scope}

theorem Alongside.refl (s t : Scope) : Alongside s t s t := ⟨[], rfl, rfl⟩

theorem Alongside.inside (h : Alongside s t c d) (l : Link) : Alongside s t ⟨l, c.chain⟩ ⟨l, d.chain⟩ := by
  obtain ⟨inner, hc, hd⟩ := h
  exact ⟨l :: inner, congrArg (l :: ·) hc, congrArg (l :: ·) hd⟩

theorem Alongside.reason {v : Liveness} (h : Alongside s t c d) (hs : v.live s = true) (ht : v.live t = true) :
    v.reason c = v.reason d := by
  obtain ⟨inner, hc, hd⟩ := h
  have hs : s.chain.findSome? v.linkReason = none := Option.isNone_iff_eq_none.mp hs
  have ht : t.chain.findSome? v.linkReason = none := Option.isNone_iff_eq_none.mp ht
  rw [Liveness.reason, Liveness.reason, hc, hd, List.findSome?_append, List.findSome?_append, hs, ht]

end Scope

namespace Race

variable {scope scope' s t : Scope} {hits : Nat → Bool} {st : State} {ms : List Move}

theorem live_of_moves (h : (ms.foldl (State.move scope hits) st).liveness.live s = true) :
    st.liveness.live s = true := by
  induction ms generalizing st with
  | nil => exact h
  | cons m ms ih =>
    have hl : (st.move scope hits m).liveness.live s = true := ih h
    cases m with
    | act a => exact Liveness.live_of_apply hl
    | task i =>
      rcases liveness_moveTask scope hits st i with he | he
      · rwa [State.move, he] at hl
      · rw [State.move, he] at hl
        exact Liveness.live_of_apply (a := .cancel scope) hl

theorem moveTask_congr (hid : scope.own.id = scope'.own.id)
    (hlive : st.liveness.live scope = st.liveness.live scope') (i : Nat) :
    st.moveTask scope hits i = st.moveTask scope' hits i := by
  have hcancel : st.liveness.cancel scope = st.liveness.cancel scope' := by
    rw [Liveness.cancel, Liveness.cancel, hid]
  unfold State.moveTask
  rw [hlive, hcancel]

/-- A race goes the same way in two scopes that stay live. -/
theorem moves_congr (h : Scope.Alongside s t scope scope') (hid : scope.own.id = scope'.own.id)
    (hs : (ms.foldl (State.move scope hits) st).liveness.live s = true)
    (ht : (ms.foldl (State.move scope hits) st).liveness.live t = true) :
    ms.foldl (State.move scope hits) st = ms.foldl (State.move scope' hits) st := by
  induction ms generalizing st with
  | nil => rfl
  | cons m ms ih =>
    have hmove : st.move scope hits m = st.move scope' hits m := by
      cases m with
      | act a => rfl
      | task i =>
        have hreason := h.reason (live_of_moves hs) (live_of_moves ht)
        exact moveTask_congr hid (congrArg Option.isNone hreason) i
    rw [List.foldl_cons, List.foldl_cons, ← hmove]
    exact ih hs ht

end Race

namespace Evaluation

variable {α β : Type} {w : World} {s t c d : Scope}

/-- Whatever scope it is given, it asks whether that is live, races tasks in it, reports, cancels it if it may,
and does nothing else. -/
inductive Asks (may : Bool) : {α : Type} → (Scope → Evaluation α) → Prop
  | pure {α : Type} (a : α) : Asks may fun _ => Pure.pure a
  | trace (message : String) (fields : List (String × String)) : Asks may fun _ => trace message fields
  | check : Asks may check
  | race (hits : List Bool) : Asks may (race hits)
  | cancel (h : may = true) : Asks may cancel
  | bind {α β : Type} {e : Scope → Evaluation α} {f : Scope → α → Evaluation β} (h : Asks may e)
    (h' : ∀ a, Asks may (f · a)) : Asks may fun s => e s >>= f s

section Steps

theorem left_check (s : Scope) (w : World) : ((check s).run w).2 = w.settle := by
  cases hr : w.settle.liveness.reason s with
  | none => rw [run_check_ok hr]
  | some r => rw [run_check_error hr]

theorem run_check_congr (h : w.settle.liveness.reason c = w.settle.liveness.reason d) :
    (check c).run w = (check d).run w := by
  cases hr : w.settle.liveness.reason c with
  | none => rw [run_check_ok hr, run_check_ok (h ▸ hr)]
  | some r => rw [run_check_error hr, run_check_error (h ▸ hr)]

theorem left_race (hits : List Bool) (s : Scope) (w : World) : ((race hits s).run w).2 =
    (raceEnd hits w s).slot.elim (raced hits w s).settle fun _ => raced hits w s := by
  rcases race_cases hits w s with ⟨i, hslot, hr⟩ | ⟨hslot, ⟨-, hr⟩ | ⟨r, -, hr⟩⟩
  · rw [hslot, hr]; rfl
  · rw [hslot, hr]; rfl
  · rw [hslot, hr]; rfl

theorem live_of_race {hits : List Bool} (h : ((race hits c).run w).2.liveness.live s = true) :
    (raceEnd hits w c).liveness.live s = true := by
  rw [left_race] at h
  cases hslot : (raceEnd hits w c).slot with
  | none =>
    rw [hslot] at h
    exact Liveness.live_of_acts h
  | some i => rwa [hslot] at h

theorem run_race_congr {hits : List Bool} (h : Scope.Alongside s t c d)
    (hs : ((race hits c).run w).2.liveness.live s = true) (ht : ((race hits c).run w).2.liveness.live t = true) :
    (race hits c).run w = (race hits d).run w := by
  have hend : raceEnd hits w c = raceEnd hits w d :=
    Race.moves_congr (h.inside ⟨w.liveness.fresh, none⟩) rfl (live_of_race hs) (live_of_race ht)
  have hraced : raced hits w c = raced hits w d := by rw [raced, raced, hend]
  rw [left_race] at hs ht
  cases hslot : (raceEnd hits w c).slot with
  | none =>
    rw [hslot] at hs ht
    rw [run_race_lost hslot, run_race_lost (hend ▸ hslot), ← hraced, run_bind, run_bind,
      run_check_congr (h.reason hs ht)]
  | some i => rw [run_race_won hslot, run_race_won (hend ▸ hslot), hraced]

theorem run_bind_cases (e : Evaluation α) (f : α → Evaluation β) (w : World) :
    (∃ x u, e.run w = (.error x, u) ∧ (e >>= f).run w = (.error x, u)) ∨
      ∃ a u, e.run w = (.ok a, u) ∧ (e >>= f).run w = (f a).run u := by
  rcases he : e.run w with ⟨x | a, u⟩
  · exact .inl ⟨x, u, rfl, run_bind_error he⟩
  · exact .inr ⟨a, u, rfl, run_bind_ok he⟩

end Steps

namespace Asks

variable {may : Bool} {e : Scope → Evaluation α} {n : Nat}

theorem traced (message : String) (fields : List (String × String)) (a : α) :
    Asks may fun _ => (do Evaluation.trace message fields; return a) :=
  .bind (Asks.trace message fields) fun _ => .pure a

theorem scan (test : α → Bool) (i : Nat) (l : List α) : Asks may fun s => Evaluation.scan test s i l := by
  induction l generalizing i with
  | nil => exact .pure none
  | cons a l ih =>
    refine .bind .check fun _ => ?_
    cases test a with
    | true => exact .pure (some i)
    | false => exact ih (i + 1)

theorem blames (h : Asks may e) (s : Scope) : Blames s (e s) := by
  induction h with
  | pure a => exact blames_pure s a
  | trace message fields => exact blames_of_ok fun _ => ⟨(), _, rfl⟩
  | check => exact blames_check s
  | race hits => exact blames_race hits s
  | cancel _ => exact blames_of_ok fun _ => ⟨(), _, rfl⟩
  | bind _ _ ih ih' => exact ih.bind ih'

/-- None of the scopes that were there before is cancelled, except perhaps its own. -/
theorem passes (h : Asks may e) (hn : n ≤ w.liveness.fresh)
    (hs : may = true → n ≤ s.own.id ∧ s.own.id < w.liveness.fresh) : w.Passes n ((e s).run w).2 := by
  induction h generalizing w with
  | pure a => exact .refl n w
  | trace message fields => exact .logged w _
  | check => exact left_check s w ▸ .settle w
  | race hits =>
    have hraced := World.Passes.raced hn hits s
    rw [left_race]
    cases (raceEnd hits w s).slot with
    | none => exact hraced.trans (.settle _)
    | some i => exact hraced
  | cancel hmay => exact .cancel (hs hmay).1 (hs hmay).2
  | @bind _ _ e f _ _ ih ih' =>
    rcases run_bind_cases (e s) (f s) w with ⟨x, u, hr, he⟩ | ⟨a, u, hr, he⟩
    · have hu := ih hn hs
      rw [hr] at hu
      rwa [he]
    · have hu := ih hn hs
      rw [hr] at hu
      rw [he]
      exact hu.trans (ih' a (Nat.le_trans hn hu.fresh) fun h => (hs h).imp_right (Nat.lt_of_lt_of_le · hu.fresh))

theorem live_of_run (h : Asks may e) (hl : ((e s).run w).2.liveness.live t = true) :
    w.liveness.live t = true := by
  induction h generalizing w with
  | pure a => exact hl
  | trace message fields => exact hl
  | check =>
    rw [left_check] at hl
    exact Liveness.live_of_acts hl
  | race hits => exact Race.live_of_moves (live_of_race hl)
  | cancel _ => exact Liveness.live_of_apply (a := .cancel s) hl
  | @bind _ _ e f _ _ ih ih' =>
    rcases run_bind_cases (e s) (f s) w with ⟨x, u, hr, he⟩ | ⟨a, u, hr, he⟩
    · rw [he] at hl
      exact ih (hr ▸ hl)
    · rw [he] at hl
      exact ih (hr ▸ ih' a hl)

/-- In another scope in the same place it answers the same and leaves the same world, if both places are live
until then. -/
theorem run_congr (h : Asks may e) (hcd : Scope.Alongside s t c d) (hid : may = true → c.own.id = d.own.id)
    (hs : ((e c).run w).2.liveness.live s = true) (ht : ((e c).run w).2.liveness.live t = true) :
    (e c).run w = (e d).run w := by
  induction h generalizing w with
  | pure a => rfl
  | trace message fields => rfl
  | check =>
    rw [left_check] at hs ht
    exact run_check_congr (hcd.reason hs ht)
  | race hits => exact run_race_congr hcd hs ht
  | cancel hmay => simp only [Evaluation.cancel, Liveness.cancel, hid hmay]
  | @bind _ _ e f _ h' ih ih' =>
    rcases run_bind_cases (e c) (f c) w with ⟨x, u, hr, he⟩ | ⟨a, u, hr, he⟩
    · rw [he] at hs ht ⊢
      rw [run_bind_error ((ih (hr ▸ hs) (hr ▸ ht)).symm.trans hr)]
    · rw [he] at hs ht ⊢
      have hlive {s : Scope} (hs : ((f c a).run u).2.liveness.live s = true) :
          ((e c).run w).2.liveness.live s = true := by
        rw [hr]
        exact (h' a).live_of_run hs
      have hu := ih (hlive hs) (hlive ht)
      rw [run_bind_ok (hu.symm.trans hr)]
      exact ih' a hs ht

end Asks

end Evaluation

end Exclusion
