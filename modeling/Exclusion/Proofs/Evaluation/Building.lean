import Exclusion.Outcome
import Exclusion.Proofs.Evaluation.Outcomes

/-! # What compiling comes to

Compiling reports events on its way, but whether it succeeds and with what does not depend on them. So it
comes to an outcome, and a chain of steps to the chain of their outcomes.
-/

namespace Exclusion

theorem bind_eq_error {ε α β : Type} {x : Except ε α} {g : α → Except ε β} {e : ε} :
    (x >>= g) = .error e ↔ x = .error e ∨ ∃ a, x = .ok a ∧ g a = .error e := by
  cases x <;> simp [bind, Except.bind]

theorem map_eq_error {ε α β : Type} {x : Except ε α} {g : α → β} {e : ε} :
    x.map g = .error e ↔ x = .error e := by
  cases x <;> simp [Except.map]

theorem eq_ok_of_isOk {ε α : Type} {x : Except ε α} (h : x.isOk = true) : ∃ a, x = .ok a := by
  cases x with
  | ok a => exact ⟨a, rfl⟩
  | error e => cases h

/-- A fallible step for each element fails with the first element for which it does. -/
theorem mapM_eq_error {ε α β : Type} {f : α → Except ε β} {l : List α} {e : ε} :
    l.mapM f = .error e ↔ ∃ before a after, l = before ++ a :: after ∧
      (∀ b ∈ before, ∃ y, f b = .ok y) ∧ f a = .error e := by
  induction l with
  | nil => simp [pure, Except.pure]
  | cons b l ih =>
    rw [List.mapM_cons, bind_eq_error]
    constructor
    · rintro (hb | ⟨y, hb, h⟩)
      · exact ⟨[], b, l, rfl, nofun, hb⟩
      · rcases bind_eq_error.mp h with hl | ⟨ys, -, hy⟩
        · obtain ⟨before, a, after, rfl, hbefore, ha⟩ := ih.mp hl
          exact ⟨b :: before, a, after, rfl, List.forall_mem_cons.mpr ⟨⟨y, hb⟩, hbefore⟩, ha⟩
        · cases hy
    · rintro ⟨before, a, after, hl, hbefore, ha⟩
      cases before with
      | nil =>
        obtain ⟨rfl, rfl⟩ := List.cons.inj hl
        exact .inl ha
      | cons c before =>
        obtain ⟨rfl, rfl⟩ := List.cons.inj hl
        obtain ⟨⟨y, hy⟩, hbefore⟩ := List.forall_mem_cons.mp hbefore
        exact .inr ⟨y, hy, bind_eq_error.mpr (.inl (ih.mpr ⟨before, a, after, rfl, hbefore, ha⟩))⟩

namespace Build

variable {α β : Type} {b : Build α} {f : α → Build β} {x : Except Failure α}

/-- Whatever has been reported before, this is the outcome. -/
def Settles (b : Build α) (x : Except Failure α) : Prop := ∀ log, (b.run log).1 = x

theorem run_bind_ok {a : α} {log log' : Log} (h : b.run log = (.ok a, log')) :
    (b >>= f).run log = (f a).run log' := by
  rw [run_bind, h]; rfl

theorem Settles.unique {y : Except Failure α} (h : b.Settles x) (h' : b.Settles y) : x = y :=
  (h []).symm.trans (h' [])

theorem settles_pure (a : α) : Settles (pure a) (.ok a) := fun _ => rfl

theorem settles_throw (e : Failure) : Settles (throw e : Build α) (.error e) := fun _ => rfl

theorem settles_lift (x : Except Failure α) : Settles (liftExcept x) x := by
  cases x with
  | ok a => exact fun _ => rfl
  | error e => exact fun _ => rfl

theorem settles_debug (message : String) (fields : List (String × FieldValue)) :
    Settles (debug message fields) (.ok ()) := fun _ => rfl

theorem Settles.bind {g : α → Except Failure β} (h : b.Settles x) (hf : ∀ a, (f a).Settles (g a)) :
    (b >>= f).Settles (x >>= g) := by
  intro log
  rw [run_bind, h log]
  cases x with
  | ok a => exact hf a _
  | error e => rfl

theorem Settles.bind_ok {a : α} {y : Except Failure β} (h : b.Settles (.ok a)) (hf : (f a).Settles y) :
    (b >>= f).Settles y := by
  intro log
  rw [run_bind, h log]
  exact hf _

theorem Settles.bind_error {e : Failure} (h : b.Settles (.error e)) : (b >>= f).Settles (.error e) := by
  intro log
  rw [run_bind, h log]
  rfl

theorem ok_of_run_bind {a : β} {log : Log} (h : ((b >>= f).run log).1 = .ok a) :
    ∃ c log', (b.run log).1 = .ok c ∧ ((f c).run log').1 = .ok a := by
  rw [run_bind] at h
  cases hb : (b.run log).1 with
  | ok c => exact ⟨c, _, rfl, by rw [hb] at h; exact h⟩
  | error x => rw [hb] at h; cases h

theorem settles_report {x : Except Failure α} {g : α → β} (h : ∀ a, (f a).Settles (.ok (g a))) :
    (liftExcept x >>= f).Settles (x.map g) := by
  cases x with
  | ok a => exact (settles_lift _).bind_ok (h a)
  | error e => exact (settles_lift _).bind_error

theorem Settles.map {g : α → β} (h : b.Settles x) : Settles (do return g (← b)) (x.map g) := by
  cases x with
  | ok a => exact h.bind_ok (settles_pure _)
  | error e => exact h.bind_error

end Build

end Exclusion
