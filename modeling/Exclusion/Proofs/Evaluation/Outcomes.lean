import Exclusion.Evaluation
import Mathlib.Data.List.Forall2

/-! # Compiling alike

Two ways to compile agree if they fail alike or give related results. Agreement is composed as the ways
to compile are, and what they report does not matter.
-/

namespace Exclusion

variable {α β α' β' : Type}

/-- The same failure, or results that are related. -/
inductive Outcomes (R : α → β → Prop) : Except Failure α → Except Failure β → Prop
  | ok {a : α} {b : β} (h : R a b) : Outcomes R (.ok a) (.ok b)
  | error (x : Failure) : Outcomes R (.error x) (.error x)

theorem Outcomes.mono {R S : α → β → Prop} {x : Except Failure α} {y : Except Failure β} (h : Outcomes R x y)
    (hRS : ∀ a b, R a b → S a b) : Outcomes S x y := by
  cases h with
  | ok h => exact .ok (hRS _ _ h)
  | error f => exact .error f

theorem Outcomes.self (x : Except Failure α) : Outcomes (fun a b => a = b ∧ x = .ok a) x x := by
  cases x with
  | ok a => exact .ok ⟨rfl, rfl⟩
  | error f => exact .error f

inductive Resemble (E : Failure → Failure → Prop) (R : α → β → Prop) :
    Except Failure α → Except Failure β → Prop
  | ok {a : α} {b : β} (h : R a b) : Resemble E R (.ok a) (.ok b)
  | error {x y : Failure} (h : E x y) : Resemble E R (.error x) (.error y)

section Resemblance

variable {E : Failure → Failure → Prop} {R : α → β → Prop} {S : α' → β' → Prop} {x : Except Failure α}
  {y : Except Failure β}

theorem Resemble.bind {f : α → Except Failure α'} {g : β → Except Failure β'} (h : Resemble E R x y)
    (hf : ∀ a b, R a b → Resemble E S (f a) (g b)) : Resemble E S (x >>= f) (y >>= g) := by
  cases h with
  | ok h => exact hf _ _ h
  | error h => exact .error h

theorem Resemble.mono {R' : α → β → Prop} (h : Resemble E R x y) (hR : ∀ a b, R a b → R' a b) :
    Resemble E R' x y := by
  cases h with
  | ok h => exact .ok (hR _ _ h)
  | error h => exact .error h

theorem Resemble.map {f : α → α'} {g : β → β'} (h : Resemble E R x y) (hf : ∀ a b, R a b → S (f a) (g b)) :
    Resemble E S (x.map f) (y.map g) := by
  cases h with
  | ok h => exact .ok (hf _ _ h)
  | error h => exact .error h

theorem resemble_mapM {γ δ : Type} {T : γ → δ → Prop} {f : γ → Except Failure α} {g : δ → Except Failure β}
    {l : List γ} {l' : List δ} (hl : List.Forall₂ T l l') (hf : ∀ c d, T c d → Resemble E R (f c) (g d)) :
    Resemble E (List.Forall₂ R) (l.mapM f) (l'.mapM g) := by
  induction hl with
  | nil => exact .ok .nil
  | cons hcd _ ih =>
    rw [List.mapM_cons, List.mapM_cons]
    refine (hf _ _ hcd).bind fun a b hab => ih.bind fun as bs habs => ?_
    exact .ok (.cons hab habs)

end Resemblance

namespace Build

variable {R : α → β → Prop} {S : α' → β' → Prop}

theorem run_bind {b : Build α} {f : α → Build α'} {log : Log} :
    (b >>= f).run log = ExceptT.bindCont f (b.run log).1 (b.run log).2 :=
  rfl

def Agree (R : α → β → Prop) (b : Build α) (b' : Build β) : Prop :=
  ∀ log log', Outcomes R (b.run log).1 (b'.run log').1

theorem agree_pure {a : α} {b : β} (h : R a b) : Agree R (pure a) (pure b) :=
  fun _ _ => .ok h

theorem agree_throw (x : Failure) : Agree R (throw x) (throw x) :=
  fun _ _ => .error x

theorem agree_lift {x : Except Failure α} {y : Except Failure β} (h : Outcomes R x y) :
    Agree R (liftExcept x) (liftExcept y) := by
  intro log log'
  cases h with
  | ok h => exact .ok h
  | error x => exact .error x

theorem agree_debug {message message' : String} {fields fields' : List (String × FieldValue)} :
    Agree (fun _ _ => True) (debug message fields) (debug message' fields') :=
  fun _ _ => .ok trivial

theorem Agree.bind {b : Build α} {b' : Build β} {f : α → Build α'} {f' : β → Build β'} (h : Agree R b b')
    (hf : ∀ x y, R x y → Agree S (f x) (f' y)) : Agree S (b >>= f) (b' >>= f') := by
  intro log log'
  have ho := h log log'
  rw [run_bind, run_bind]
  generalize (b.run log).1 = x at ho ⊢
  generalize (b'.run log').1 = y at ho ⊢
  cases ho with
  | ok hxy => exact hf _ _ hxy _ _
  | error x => exact .error x

theorem agree_mapM {γ δ : Type} {T : γ → δ → Prop} {f : γ → Build α} {f' : δ → Build β} {l : List γ}
    {l' : List δ} (hl : List.Forall₂ T l l') (hf : ∀ x y, T x y → Agree R (f x) (f' y)) :
    Agree (List.Forall₂ R) (l.mapM f) (l'.mapM f') := by
  induction hl with
  | nil => exact agree_pure .nil
  | cons hxy _ ih =>
    rw [List.mapM_cons, List.mapM_cons]
    refine (hf _ _ hxy).bind fun a b hab => ih.bind fun as bs habs => ?_
    exact agree_pure (.cons hab habs)

end Build

end Exclusion
