import Exclusion.Proofs.Evaluation.Undisturbed

/-! # What was there before

From one world to a later one, part of what was to come has happened. An evaluation does more than that: it opens
scopes and cancels them again. But the scopes that were there before cannot tell.
-/

namespace Exclusion

theorem Liveness.Alike.trans {s : Scope} {v v' v'' : Liveness} (h : Alike s v v') (h' : Alike s v' v'') :
    Alike s v v'' :=
  ⟨h.now.trans h'.now, fun l hl => (h.requested l hl).trans (h'.requested l hl)⟩

namespace World

/-- Part of what was to come has happened, and to the first `n` scopes nothing else. -/
structure Passes (n : Nat) (w w' : World) : Prop where
  fresh : w.liveness.fresh ≤ w'.liveness.fresh
  proper : w.Proper → w'.Proper
  acted : ∃ acts, w.pool.Perm (acts ++ w'.pool) ∧ ∀ t : Scope, (∀ l ∈ t.chain, l.id < n) →
    Liveness.Alike t w'.liveness (acts.foldl Liveness.apply w.liveness)

namespace Passes

variable {n : Nat} {w w' w'' : World} {s t : Scope}

theorem refl (n : Nat) (w : World) : Passes n w w :=
  ⟨Nat.le_refl _, id, [], .refl _, fun t _ => .refl t _⟩

theorem trans (h : Passes n w w') (h' : Passes n w' w'') : Passes n w w'' := by
  obtain ⟨acts, hp, ha⟩ := h.acted
  obtain ⟨acts', hp', ha'⟩ := h'.acted
  refine ⟨Nat.le_trans h.fresh h'.fresh, h'.proper ∘ h.proper, acts ++ acts', ?_, fun t ht => ?_⟩
  · rw [List.append_assoc]
    exact hp.trans (hp'.append_left acts)
  · rw [List.foldl_append]
    exact (ha' t ht).trans ((ha t ht).acts acts')

theorem logged (w : World) (log : Log) : Passes n w (w.logged log) :=
  ⟨Nat.le_refl _, fun h => ⟨h.bounded, h.pool⟩, [], .refl _, fun t _ => .refl t _⟩

theorem settle (w : World) : Passes n w w.settle :=
  ⟨Nat.le_of_eq (Liveness.fresh_acts _).symm, Proper.settle, _, w.pool_settle ▸ .refl _, fun t _ => .refl t _⟩

theorem opened (w : World) (deadline : Option Instant) (parent : Option Scope) :
    Passes n w { w with liveness := (w.liveness.openScope deadline parent).2 } :=
  ⟨Nat.le_succ _, fun h => ⟨fun id hid => Nat.lt_succ_of_lt (h.bounded id hid),
    fun a ha => (h.pool a ha).mono (Nat.le_succ _)⟩, [], .refl _, fun _ _ => ⟨rfl, fun _ _ => .rfl⟩⟩

theorem cancel (hn : n ≤ s.own.id) (hs : s.own.id < w.liveness.fresh) :
    Passes n w { w with liveness := w.liveness.cancel s } := by
  refine ⟨Nat.le_refl _, fun h => ⟨h.bounded.apply (a := .cancel s) hs, h.pool⟩, [], .refl _, fun t ht => ?_⟩
  exact (Liveness.Alike.refl t _).cancel fun l hl => Nat.ne_of_lt (Nat.lt_of_lt_of_le (ht l hl) hn)

theorem raced (hn : n ≤ w.liveness.fresh) (hits : List Bool) (s : Scope) :
    Passes n w (Evaluation.raced hits w s) := by
  refine ⟨fresh_raced hits w s ▸ Nat.le_succ _, fun h => h.raced hits s, _, pool_raced hits w s, fun t ht => ?_⟩
  exact Evaluation.raceEnd_alike fun l hl => Nat.lt_of_lt_of_le (ht l hl) hn

theorem knows (h : Passes n w w') (ht : w.liveness.Knows t) : w'.liveness.Knows t :=
  fun l hl => Nat.lt_of_lt_of_le (ht l hl) h.fresh

theorem hosts (h : Passes n w w') (ht : w.Hosts t) : w'.Hosts t := ⟨h.proper ht.toProper, h.knows ht.known⟩

end Passes

end World

end Exclusion
