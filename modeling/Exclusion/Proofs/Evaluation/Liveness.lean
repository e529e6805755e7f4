import Exclusion.Scope

/-! # Liveness over time

A scope that is no longer live stays so, whatever happens. A scope that is opened inside another one
without a deadline ends for no reason of its own until it is cancelled.
-/

namespace Exclusion

namespace Act

def Spares (id : Nat) : Act → Prop
  | cancel s => s.own.id ≠ id
  | advance _ => True

def Among (n : Nat) : Act → Prop
  | cancel s => s.own.id < n
  | advance _ => True

instance (n : Nat) : DecidablePred (Among n)
  | cancel s => inferInstanceAs (Decidable (s.own.id < n))
  | advance _ => .isTrue trivial

theorem Among.spares {n : Nat} {a : Act} (h : a.Among n) : a.Spares n := by
  cases a with
  | cancel s => exact Nat.ne_of_lt h
  | advance d => trivial

theorem Among.mono {n m : Nat} {a : Act} (h : a.Among n) (hnm : n ≤ m) : a.Among m := by
  cases a with
  | cancel s => exact Nat.lt_of_lt_of_le h hnm
  | advance d => trivial

end Act

namespace Liveness

variable {v : Liveness} {s : Scope} {l : Link} {a : Act}

/-- All scopes around, and the scope itself, have been opened. -/
def Knows (v : Liveness) (s : Scope) : Prop := ∀ l ∈ s.chain, l.id < v.fresh

def Bounded (n : Nat) (v : Liveness) : Prop := ∀ id ∈ v.requested, id < n

theorem Bounded.apply {n : Nat} (h : v.Bounded n) (ha : a.Among n) : (v.apply a).Bounded n := by
  cases a with
  | cancel s =>
    intro id hid
    rcases List.mem_cons.mp hid with rfl | hid
    · exact ha
    · exact h id hid
  | advance d => exact h

theorem Bounded.acts {n : Nat} {acts : List Act} (h : v.Bounded n) (ha : ∀ a ∈ acts, a.Among n) :
    (acts.foldl Liveness.apply v).Bounded n := by
  induction acts generalizing v with
  | nil => exact h
  | cons a acts ih =>
    exact ih (h.apply (ha a List.mem_cons_self)) fun b hb => ha b (List.mem_cons_of_mem _ hb)

theorem live_iff : v.live s = true ↔ ∀ l ∈ s.chain, v.linkReason l = none := by
  rw [live, Option.isNone_iff_eq_none, reason, List.findSome?_eq_none_iff]

theorem linkReason_eq_none : v.linkReason l = none ↔
    l.id ∉ v.requested ∧ ∀ d, l.deadline = some d → v.now < d := by
  unfold linkReason
  cases l.deadline with
  | none => simp
  | some d => split <;> simp_all

theorem linkReason_of_apply (h : (v.apply a).linkReason l = none) : v.linkReason l = none := by
  rw [linkReason_eq_none] at h ⊢
  cases a with
  | cancel s => exact ⟨fun hm => h.1 (List.mem_cons_of_mem _ hm), h.2⟩
  | advance d => exact ⟨h.1, fun t ht => Nat.lt_of_le_of_lt (Nat.le_add_right _ d) (h.2 t ht)⟩

theorem live_of_apply (h : (v.apply a).live s = true) : v.live s = true :=
  live_iff.mpr fun l hl => linkReason_of_apply (live_iff.mp h l hl)

theorem live_of_acts {acts : List Act} (h : (acts.foldl Liveness.apply v).live s = true) :
    v.live s = true := by
  induction acts generalizing v with
  | nil => exact h
  | cons a acts ih => exact live_of_apply (ih h)

@[simp] theorem fresh_apply : (v.apply a).fresh = v.fresh := by
  cases a <;> rfl

@[simp] theorem fresh_acts (acts : List Act) : (acts.foldl Liveness.apply v).fresh = v.fresh := by
  induction acts generalizing v with
  | nil => rfl
  | cons a acts ih => rw [List.foldl_cons, ih, fresh_apply]

theorem requested_apply {id : Nat} (ha : a.Spares id) :
    id ∈ (v.apply a).requested ↔ id ∈ v.requested := by
  cases a with
  | cancel s => simp [apply, cancel, (Ne.symm ha : id ≠ s.own.id)]
  | advance d => rfl

/-- Without a deadline and a request of its own, a scope is live as long as the one around it. -/
theorem live_child {t : Scope} (hout : t.outer = s.chain) (hown : t.own.deadline = none)
    (hreq : t.own.id ∉ v.requested) : v.live t = v.live s := by
  rw [Bool.eq_iff_iff, live_iff, live_iff, Scope.chain, hout]
  have : v.linkReason t.own = none := linkReason_eq_none.mpr ⟨hreq, fun d hd => by simp [hown] at hd⟩
  simp [this]

/-- To a scope the two are the same. -/
structure Alike (s : Scope) (v v' : Liveness) : Prop where
  now : v.now = v'.now
  requested : ∀ l ∈ s.chain, l.id ∈ v.requested ↔ l.id ∈ v'.requested

namespace Alike

variable {v' : Liveness}

theorem refl (s : Scope) (v : Liveness) : Alike s v v := ⟨rfl, fun _ _ => Iff.rfl⟩

theorem reason (h : Alike s v v') : v.reason s = v'.reason s := by
  have hlinks : ∀ links : List Link, (∀ l ∈ links, l ∈ s.chain) →
      links.findSome? v.linkReason = links.findSome? v'.linkReason := by
    intro links hsub
    induction links with
    | nil => rfl
    | cons l links ih =>
      have hl : v.linkReason l = v'.linkReason l := by
        simp only [linkReason, h.now, h.requested l (hsub l List.mem_cons_self)]
      rw [List.findSome?_cons, List.findSome?_cons, hl, ih fun k hk => hsub k (List.mem_cons_of_mem l hk)]
  exact hlinks s.chain fun _ hl => hl

theorem live (h : Alike s v v') : v.live s = v'.live s := by
  rw [Liveness.live, Liveness.live, h.reason]

theorem apply (h : Alike s v v') (a : Act) : Alike s (v.apply a) (v'.apply a) := by
  cases a with
  | cancel t => exact ⟨h.now, fun l hl => by simp [Liveness.apply, Liveness.cancel, h.requested l hl]⟩
  | advance d => exact ⟨congrArg (· + d) h.now, h.requested⟩

theorem acts (h : Alike s v v') (acts : List Act) :
    Alike s (acts.foldl Liveness.apply v) (acts.foldl Liveness.apply v') := by
  induction acts generalizing v v' with
  | nil => exact h
  | cons a acts ih => exact ih (h.apply a)

theorem cancel {t : Scope} (h : Alike s v v') (ht : ∀ l ∈ s.chain, l.id ≠ t.own.id) :
    Alike s (v.cancel t) v' :=
  ⟨h.now, fun l hl => by simp [Liveness.cancel, ht l hl, h.requested l hl]⟩

end Alike

end Liveness

end Exclusion
