import Exclusion.Proofs.Evaluation.Liveness
import Exclusion.Proofs.Evaluation.Run

/-! # Evaluations cut short

A steady evaluation asks a fixed number of times whether its scope is live, and has one answer: it fails
with the first reason that it is given, or answers when it is given none. Steadiness is composed as
evaluations are.
-/

namespace Exclusion

namespace World

def logged (w : World) (log : Log) : World := { w with log := log }

/-- The world after the next `n` checks, apart from what they find. -/
def settles (w : World) : Nat → World
  | 0 => w
  | n + 1 => w.settle.settles n

/-- The reason that the first of the next `n` checks to fail is given. -/
def trip (w : World) (s : Scope) : Nat → Option Reason
  | 0 => none
  | n + 1 => (w.settle.liveness.reason s).or (w.settle.trip s n)

variable {w : World} {s : Scope} {n m : Nat} {log : Log}

theorem settles_add : w.settles (n + m) = (w.settles n).settles m := by
  induction n generalizing w with
  | zero => rw [Nat.zero_add]; rfl
  | succ n ih => rw [Nat.succ_add]; exact ih

theorem trip_add : w.trip s (n + m) = (w.trip s n).or ((w.settles n).trip s m) := by
  induction n generalizing w with
  | zero => rw [Nat.zero_add]; rfl
  | succ n ih => rw [Nat.succ_add, trip, ih, trip, Option.or_assoc]; rfl

theorem settles_logged : (w.logged log).settles n = (w.settles n).logged log := by
  induction n generalizing w with
  | zero => rfl
  | succ n ih => exact ih (w := w.settle)

theorem trip_logged : (w.logged log).trip s n = w.trip s n := by
  induction n generalizing w with
  | zero => rfl
  | succ n ih => exact congrArg (Option.or _) (ih (w := w.settle))

/-- A reason that is given is that of the scope at one of the checks, and no earlier one is given. -/
theorem trip_eq_some {r : Reason} : w.trip s n = some r ↔
    ∃ k < n, (w.settles (k + 1)).liveness.reason s = some r ∧
      ∀ j < k, (w.settles (j + 1)).liveness.reason s = none := by
  induction n generalizing w with
  | zero => simp [trip]
  | succ n ih =>
    rw [trip, Option.or_eq_some_iff, ih]
    constructor
    · rintro (h | ⟨h, k, hk, hr, hj⟩)
      · exact ⟨0, Nat.succ_pos n, h, nofun⟩
      · refine ⟨k + 1, Nat.succ_lt_succ hk, hr, fun j hjk => ?_⟩
        cases j with
        | zero => exact h
        | succ j => exact hj j (Nat.lt_of_succ_lt_succ hjk)
    · rintro ⟨k, hk, hr, hj⟩
      cases k with
      | zero => exact .inl hr
      | succ k =>
        exact .inr ⟨hj 0 (Nat.succ_pos k), k, Nat.lt_of_succ_lt_succ hk, hr,
          fun j hjk => hj (j + 1) (Nat.succ_lt_succ hjk)⟩

theorem trip_eq_none : w.trip s n = none ↔
    ∀ k < n, (w.settles (k + 1)).liveness.live s = true := by
  simp only [Liveness.live, Option.isNone_iff_eq_none]
  induction n generalizing w with
  | zero => simp [trip]
  | succ n ih =>
    rw [trip, Option.or_eq_none_iff, ih]
    constructor
    · rintro ⟨h, hk⟩ k hkn
      cases k with
      | zero => exact h
      | succ k => exact hk k (Nat.lt_of_succ_lt_succ hkn)
    · intro h
      exact ⟨h 0 (Nat.succ_pos n), fun k hk => h (k + 1) (Nat.succ_lt_succ hk)⟩

theorem trip_of_not_live (h : w.liveness.live s = false) (hn : 0 < n) :
    ∃ r, w.trip s n = some r ∧ w.settle.liveness.reason s = some r := by
  cases hr : w.settle.liveness.reason s with
  | none =>
    have hl : w.settle.liveness.live s = true := by rw [Liveness.live, hr]; rfl
    rw [Liveness.live_of_acts hl] at h
    cases h
  | some r =>
    obtain ⟨k, rfl⟩ := Nat.exists_eq_add_one.mpr hn
    exact ⟨r, by rw [trip, hr, Option.some_or], rfl⟩

end World

namespace Evaluation

variable {α β : Type} {s : Scope} {n m : Nat} {a : α} {b : β} {e : Evaluation α} {f : α → Evaluation β}

/-- Asks `n` times about the scope, and answers `a` unless it is given a reason not to. -/
def Steady (s : Scope) (n : Nat) (a : α) (e : Evaluation α) : Prop :=
  ∀ w, (w.trip s n = none ∧ ∃ log, e.run w = (.ok a, (w.settles n).logged log)) ∨
    ∃ r w', w.trip s n = some r ∧ e.run w = (.error (.cancelled r), w')

def Answers (s : Scope) (n : Nat) (a : α) (e : Evaluation α) : Prop :=
  ∀ w, (e.run w).1 = (w.trip s n).elim (.ok a) fun r => .error (.cancelled r)

theorem Steady.answers (h : Steady s n a e) : Answers s n a e := by
  intro w
  rcases h w with ⟨ht, log, hr⟩ | ⟨r, w', ht, hr⟩
  · rw [hr, ht]; rfl
  · rw [hr, ht]; rfl

theorem steady_pure (s : Scope) (a : α) : Steady s 0 a (pure a) :=
  fun w => .inl ⟨rfl, w.log, rfl⟩

theorem steady_check (s : Scope) : Steady s 1 () (check s) := by
  intro w
  cases hr : w.settle.liveness.reason s with
  | none => exact .inl ⟨by rw [World.trip, hr]; rfl, w.log, run_check_ok hr⟩
  | some r => exact .inr ⟨r, _, by rw [World.trip, hr]; rfl, run_check_error hr⟩

theorem steady_trace (s : Scope) (message : String) (fields : List (String × String)) :
    Steady s 0 () (trace message fields) :=
  fun _ => .inl ⟨rfl, _, rfl⟩

theorem Steady.bind (h : Steady s n a e) (h' : Steady s m b (f a)) : Steady s (n + m) b (e >>= f) := by
  intro w
  rcases h w with ⟨ht, log, hr⟩ | ⟨r, w', ht, hr⟩
  · rw [run_bind_ok hr, World.trip_add, ht, Option.none_or, World.settles_add]
    rcases h' ((w.settles n).logged log) with ⟨ht', log', hr'⟩ | ⟨r, w', ht', hr'⟩
    · rw [World.trip_logged] at ht'
      rw [World.settles_logged] at hr'
      exact .inl ⟨ht', log', hr'⟩
    · rw [World.trip_logged] at ht'
      exact .inr ⟨r, w', ht', hr'⟩
  · rw [run_bind_error hr, World.trip_add, ht, Option.some_or]
    exact .inr ⟨r, w', rfl, rfl⟩

theorem Steady.bind_answers (h : Steady s n a e) (h' : Answers s m b (f a)) :
    Answers s (n + m) b (e >>= f) := by
  intro w
  rcases h w with ⟨ht, log, hr⟩ | ⟨r, w', ht, hr⟩
  · rw [run_bind_ok hr, h' _, World.trip_logged, World.trip_add, ht, Option.none_or]
  · rw [run_bind_error hr, World.trip_add, ht, Option.some_or]; rfl

theorem steady_traced (s : Scope) (message : String) (fields : List (String × String)) (a : α) :
    Steady s 0 a (do trace message fields; return a) :=
  (steady_trace s message fields).bind (m := 0) (steady_pure s a)

theorem steady_scan_from (test : α → Bool) (l : List α) (i : Nat) :
    ∃ n, ∀ s, Steady s n ((l.findIdx? test).map (· + i)) (scan test s i l) := by
  induction l generalizing i with
  | nil => exact ⟨0, fun s => steady_pure s none⟩
  | cons a l ih =>
    cases ha : test a with
    | true =>
      refine ⟨_, fun s => (steady_check s).bind (m := 0) ?_⟩
      rw [if_pos ha, List.findIdx?_cons, ha]
      simpa using steady_pure s (some i)
    | false =>
      obtain ⟨n, hn⟩ := ih (i + 1)
      refine ⟨_, fun s => (steady_check s).bind (m := n) ?_⟩
      rw [if_neg (by simp [ha]), List.findIdx?_cons, ha]
      simpa [Function.comp_def, Nat.add_assoc, Nat.add_comm 1 i] using hn s

/-- A scan asks before each test, and has the position of the first entry that holds. -/
theorem steady_scan (test : α → Bool) (l : List α) :
    ∃ n, ∀ s, Steady s n (l.findIdx? test) (scan test s 0 l) := by
  obtain ⟨n, hn⟩ := steady_scan_from test l 0
  exact ⟨n, fun s => by simpa using hn s⟩

end Evaluation

end Exclusion
