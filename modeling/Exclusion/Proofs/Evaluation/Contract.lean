import Exclusion.Proofs.Evaluation.Undisturbed

/-! # What evaluations promise

Whatever the surroundings do, some answers cannot come out, and an evaluation that fails blames its own scope,
which has ended by then. Both promises are composed as evaluations are.
-/

namespace Exclusion

namespace World

/-- Neither checks nor events lead out of these worlds. -/
structure Closed (I : World → Prop) : Prop where
  settle : ∀ w, I w → I w.settle
  logged : ∀ w log, I w → I (w.logged log)

variable {w : World} {s : Scope}

theorem closed_true : Closed fun _ => True := ⟨fun _ _ => trivial, fun _ _ _ => trivial⟩

theorem closed_hosts (s : Scope) : Closed (·.Hosts s) :=
  ⟨fun _ h => h.settle, fun _ _ h => ⟨⟨h.bounded, h.pool⟩, h.known⟩⟩

theorem Closed.settles {I : World → Prop} (hI : Closed I) (h : I w) (n : Nat) : I (w.settles n) := by
  induction n generalizing w with
  | zero => exact h
  | succ n ih => exact ih (hI.settle w h)

end World

namespace Evaluation

variable {α β : Type} {w w' : World} {s : Scope} {e : Evaluation α} {f : α → Evaluation β} {x : Failure}
  {I : World → Prop} {P : α → Prop} {Q : β → Prop}

theorem run_eq_of_ok {a : α} (h : (e.run w).1 = .ok a) : e.run w = (.ok a, (e.run w).2) := Prod.ext h rfl

theorem ok_of_run_bind {b : β} (h : (e >>= f).run w = (.ok b, w')) :
    ∃ a u, e.run w = (.ok a, u) ∧ (f a).run u = (.ok b, w') := by
  rcases he : e.run w with ⟨y | a, u⟩
  · cases (run_bind_error he).symm.trans h
  · exact ⟨a, u, rfl, (run_bind_ok he).symm.trans h⟩

theorem error_of_run_bind (h : (e >>= f).run w = (.error x, w')) :
    e.run w = (.error x, w') ∨ ∃ a u, e.run w = (.ok a, u) ∧ (f a).run u = (.error x, w') := by
  rcases he : e.run w with ⟨y | a, u⟩
  · cases (run_bind_error he).symm.trans h
    exact .inl rfl
  · exact .inr ⟨a, u, rfl, (run_bind_ok he).symm.trans h⟩

/-- If it answers in one of these worlds, then in this way, and it leaves one of them. -/
def Meets (I : World → Prop) (P : α → Prop) (e : Evaluation α) : Prop :=
  ∀ w a w', I w → e.run w = (.ok a, w') → P a ∧ I w'

theorem Meets.bind (h : Meets I P e) (h' : ∀ a, P a → Meets I Q (f a)) : Meets I Q (e >>= f) := by
  intro w b w' hw hr
  obtain ⟨a, u, he, hf⟩ := ok_of_run_bind hr
  obtain ⟨ha, hu⟩ := h w a u hw he
  exact h' a ha u b w' hu hf

theorem Meets.mono {P' : α → Prop} (h : Meets I P e) (hP : ∀ a, P a → P' a) : Meets I P' e :=
  fun w a w' hw hr => (h w a w' hw hr).imp_left (hP a)

theorem Steady.meets {n : Nat} {a : α} (hI : World.Closed I) (h : Steady s n a e) (ha : P a) : Meets I P e := by
  intro w b w' hw hr
  rcases h w with ⟨-, log, hr'⟩ | ⟨r, u, -, hr'⟩
  · cases hr.symm.trans hr'
    exact ⟨ha, hI.logged _ log (hI.settles hw n)⟩
  · cases hr.symm.trans hr'

/-- Whoever wins a race has passed its test. -/
theorem race_meets (hits : List Bool) (s : Scope) :
    Meets (fun _ => True) (fun winner => ∀ i, winner = some i → hits[i]? = some true) (race hits s) := by
  intro w winner w' _ hr
  refine ⟨?_, trivial⟩
  rintro i rfl
  rcases race_cases hits w s with ⟨j, hslot, hr'⟩ | ⟨-, ⟨-, hr'⟩ | ⟨r, -, hr'⟩⟩
  · cases hr.symm.trans hr'
    exact hits_of_slot hslot
  · cases hr.symm.trans hr'
  · cases hr.symm.trans hr'

/-- And if nobody does, all have failed theirs. -/
theorem race_meets_hosts (hits : List Bool) (s : Scope) :
    Meets (·.Hosts s) (fun | some i => hits[i]? = some true | none => ∀ b ∈ hits, b = false) (race hits s) := by
  intro w winner w' hw hr
  rcases race_cases hits w s with ⟨j, hslot, hr'⟩ | ⟨hslot, ⟨hn, hr'⟩ | ⟨r, -, hr'⟩⟩
  · cases hr.symm.trans hr'
    exact ⟨hits_of_slot hslot, hw.raced hits⟩
  · cases hr.symm.trans hr'
    exact ⟨misses_of_lost hw.toProper hslot (live_of_settle_reason hn), (hw.raced hits).settle⟩
  · cases hr.symm.trans hr'

/-- If it fails, its scope has ended for the reason that it gives. -/
def Blames (s : Scope) (e : Evaluation α) : Prop :=
  ∀ w x w', e.run w = (.error x, w') → ∃ r, x = .cancelled r ∧ w'.liveness.reason s = some r

theorem blames_of_ok (h : ∀ w, ∃ a w', e.run w = (.ok a, w')) : Blames s e := by
  intro w x w' hr
  obtain ⟨a, u, ha⟩ := h w
  cases hr.symm.trans ha

theorem blames_pure (s : Scope) (a : α) : Blames s (pure a) := blames_of_ok fun w => ⟨a, w, rfl⟩

theorem blames_check (s : Scope) : Blames s (check s) := by
  intro w x w' hr
  cases hreason : w.settle.liveness.reason s with
  | none => cases hr.symm.trans (run_check_ok hreason)
  | some r =>
    cases hr.symm.trans (run_check_error hreason)
    exact ⟨r, rfl, hreason⟩

theorem Blames.bind (h : Blames s e) (h' : ∀ a, Blames s (f a)) : Blames s (e >>= f) := by
  intro w x w' hr
  rcases error_of_run_bind hr with he | ⟨a, u, -, hf⟩
  · exact h w x w' he
  · exact h' a u x w' hf

theorem blames_race (hits : List Bool) (s : Scope) : Blames s (race hits s) := by
  intro w x w' hr
  rcases race_cases hits w s with ⟨j, -, hr'⟩ | ⟨-, ⟨-, hr'⟩ | ⟨r, hreason, hr'⟩⟩
  · cases hr.symm.trans hr'
  · cases hr.symm.trans hr'
  · cases hr.symm.trans hr'
    exact ⟨r, rfl, hreason⟩

end Evaluation

end Exclusion
