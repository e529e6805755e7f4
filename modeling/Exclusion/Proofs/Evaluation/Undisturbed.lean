import Exclusion.Proofs.Evaluation.Checks
import Exclusion.Proofs.Race.Outcome

/-! # Undisturbed evaluations

When nothing to come cancels a live scope or one around it, and no deadline of theirs passes, every check
succeeds, and a race has a winner exactly if a test succeeds. What the surroundings otherwise do makes no
difference.
-/

namespace Exclusion

namespace Act

def Leaves (s : Scope) : Act → Prop
  | cancel t => ∀ l ∈ s.chain, l.id ≠ t.own.id
  | advance _ => True

def span : Act → Nat
  | cancel _ => 0
  | advance d => d

end Act

def span : List Act → Nat
  | [] => 0
  | a :: acts => a.span + span acts

theorem span_append (as bs : List Act) : span (as ++ bs) = span as + span bs := by
  induction as with
  | nil => simp [span]
  | cons a as ih => simp [span, ih, Nat.add_assoc]

theorem span_perm {as bs : List Act} (h : as.Perm bs) : span as = span bs := by
  induction h with
  | nil => rfl
  | cons a _ ih => rw [span, span, ih]
  | swap a b as => exact Nat.add_left_comm _ _ _
  | trans _ _ ih ih' => exact ih.trans ih'

namespace Liveness

variable {v : Liveness} {s : Scope} {acts : List Act}

theorem now_acts (acts : List Act) : (acts.foldl Liveness.apply v).now = v.now + span acts := by
  induction acts generalizing v with
  | nil => rfl
  | cons a acts ih =>
    rw [List.foldl_cons, ih]
    cases a with
    | cancel t => simp [span, Act.span, apply, cancel]
    | advance d => simp [span, Act.span, apply, advance, Nat.add_assoc]

theorem requested_acts {l : Link} (hl : l ∈ s.chain) (ha : ∀ a ∈ acts, a.Leaves s) :
    l.id ∈ (acts.foldl Liveness.apply v).requested ↔ l.id ∈ v.requested := by
  induction acts generalizing v with
  | nil => rfl
  | cons a acts ih =>
    rw [List.foldl_cons, ih fun b hb => ha b (List.mem_cons_of_mem _ hb)]
    have := ha a List.mem_cons_self
    cases a with
    | cancel t => simp [apply, cancel, this l hl]
    | advance d => rfl

theorem live_acts (h : v.live s = true) (ha : ∀ a ∈ acts, a.Leaves s)
    (hc : ∀ l ∈ s.chain, ∀ d, l.deadline = some d → v.now < d → v.now + span acts < d) :
    (acts.foldl Liveness.apply v).live s = true := by
  rw [live_iff] at h ⊢
  intro l hl
  obtain ⟨hr, hd⟩ := linkReason_eq_none.mp (h l hl)
  refine linkReason_eq_none.mpr ⟨fun hm => hr ((requested_acts hl ha).mp hm), fun d hld => ?_⟩
  rw [now_acts]
  exact hc l hl d hld (hd d hld)

end Liveness

namespace World

/-- Only scopes that have been opened are cancelled, and this is one of them. -/
structure Hosts (w : World) (s : Scope) : Prop extends w.Proper where
  known : w.liveness.Knows s

/-- The scope is live, and nothing to come ends it. -/
structure Undisturbed (w : World) (s : Scope) : Prop extends w.Proper where
  live : w.liveness.live s = true
  known : w.liveness.Knows s
  leaves : ∀ a ∈ w.pool, a.Leaves s
  clock : ∀ l ∈ s.chain, ∀ d, l.deadline = some d → w.liveness.now + span w.pool < d

variable {w w' : World} {s : Scope} {acts : List Act}

theorem pool_settle (w : World) : w.pool = w.acts.head?.getD [] ++ w.settle.pool := by
  have hacts : w.acts.flatten = w.acts.head?.getD [] ++ w.acts.tail.flatten := by cases w.acts <;> rfl
  rw [pool, hacts, List.append_assoc]; rfl

theorem pool_raced (hits : List Bool) (w : World) (s : Scope) : w.pool.Perm
    ((w.races.head?.getD []).filterMap Race.Move.act? ++ (Evaluation.raced hits w s).pool) := by
  rw [pool, Evaluation.race_acts, ← List.append_assoc]
  exact (List.perm_append_comm.append_right _).trans (by rw [List.append_assoc]; rfl)

theorem Proper.settle (h : w.Proper) : w.settle.Proper := by
  have hmem {a : Act} (ha : a ∈ w.acts.head?.getD [] ∨ a ∈ w.settle.pool) : a.Among w.liveness.fresh :=
    h.pool a (w.pool_settle ▸ List.mem_append.mpr ha)
  have hfresh : w.settle.liveness.fresh = w.liveness.fresh := Liveness.fresh_acts _
  refine ⟨?_, fun a ha => ?_⟩
  · rw [hfresh]; exact h.bounded.acts fun a ha => hmem (.inl ha)
  · rw [hfresh]; exact hmem (.inr ha)

theorem Hosts.settle (h : w.Hosts s) : w.settle.Hosts s :=
  ⟨h.toProper.settle, fun l hl => Nat.lt_of_lt_of_eq (h.known l hl) (Liveness.fresh_acts _).symm⟩

theorem fresh_raced (hits : List Bool) (w : World) (s : Scope) :
    (Evaluation.raced hits w s).liveness.fresh = w.liveness.fresh + 1 :=
  Race.fresh_moves _

theorem Proper.raced (h : w.Proper) (hits : List Bool) (s : Scope) : (Evaluation.raced hits w s).Proper := by
  refine ⟨?_, fun a ha => ?_⟩
  · rw [fresh_raced]
    refine Race.bounded_moves (Nat.lt_succ_self _) (fun a ha => ?_) fun id hid => ?_
    · exact (h.pool a (Evaluation.mem_pool_of_move ha)).mono (Nat.le_succ _)
    · exact Nat.lt_succ_of_lt (h.bounded id hid)
  · rw [fresh_raced]
    have hpool : a ∈ w.pool := (pool_raced hits w s).mem_iff.mpr (List.mem_append_right _ ha)
    exact (h.pool a hpool).mono (Nat.le_succ _)

theorem Hosts.raced (h : w.Hosts s) (hits : List Bool) : (Evaluation.raced hits w s).Hosts s := by
  refine ⟨h.toProper.raced hits s, fun l hl => ?_⟩
  rw [fresh_raced]
  exact Nat.lt_succ_of_lt (h.known l hl)

theorem Undisturbed.hosts (h : w.Undisturbed s) : w.Hosts s := ⟨h.toProper, h.known⟩

/-- Whatever of the things to come happens next, the scope remains undisturbed. -/
theorem Undisturbed.after (h : w.Undisturbed s) (hp : w.pool.Perm (acts ++ w'.pool))
    (hl : Liveness.Alike s w'.liveness (acts.foldl Liveness.apply w.liveness)) (hw' : w'.Hosts s) :
    w'.Undisturbed s := by
  have hspan : span w.pool = span acts + span w'.pool := by rw [span_perm hp, span_append]
  have hmem {a : Act} (ha : a ∈ acts ∨ a ∈ w'.pool) : a ∈ w.pool :=
    hp.mem_iff.mpr (List.mem_append.mpr ha)
  refine ⟨hw'.toProper, ?_, hw'.known, fun a ha => h.leaves a (hmem (.inr ha)), ?_⟩
  · rw [hl.live]
    refine Liveness.live_acts h.live (fun a ha => h.leaves a (hmem (.inl ha))) fun l hl d hd _ => ?_
    have hle : span acts ≤ span w.pool := hspan ▸ Nat.le_add_right _ _
    exact Nat.lt_of_le_of_lt (Nat.add_le_add_left hle _) (h.clock l hl d hd)
  · intro l hl' d hd
    rw [hl.now, Liveness.now_acts, Nat.add_assoc, ← hspan]
    exact h.clock l hl' d hd

theorem Undisturbed.settle (h : w.Undisturbed s) : w.settle.Undisturbed s :=
  h.after (w.pool_settle ▸ List.Perm.refl _) (Liveness.Alike.refl _ _) h.hosts.settle

theorem Undisturbed.settles (h : w.Undisturbed s) (n : Nat) : (w.settles n).Undisturbed s := by
  induction n generalizing w with
  | zero => exact h
  | succ n ih => exact ih h.settle

theorem Undisturbed.logged (h : w.Undisturbed s) (log : Log) : (w.logged log).Undisturbed s :=
  ⟨⟨h.bounded, h.pool⟩, h.live, h.known, h.leaves, h.clock⟩

theorem Undisturbed.trip (h : w.Undisturbed s) (n : Nat) : w.trip s n = none :=
  trip_eq_none.mpr fun k _ => (h.settles (k + 1)).live

theorem Undisturbed.raced (h : w.Undisturbed s) (hits : List Bool) :
    (Evaluation.raced hits w s).Undisturbed s :=
  h.after (pool_raced hits w s) (Evaluation.raceEnd_alike h.known) (h.hosts.raced hits)

/-- What is to come does not change the state of the scope: it leaves a live one undisturbed, and gives one
that has ended no other reason. -/
structure Keeps (w : World) (s : Scope) : Prop where
  live : w.liveness.live s = true → w.Undisturbed s
  ended : w.liveness.live s = false → w.settle.liveness.reason s = w.liveness.reason s

theorem calm_keeps {v : Liveness} (hb : v.Bounded v.fresh) (hs : v.Knows s) : (World.calm v).Keeps s := by
  refine ⟨fun hl => ⟨⟨hb, nofun⟩, hl, hs, nofun, fun l hl' d hd => ?_⟩, fun _ => rfl⟩
  exact (Liveness.linkReason_eq_none.mp (Liveness.live_iff.mp hl l hl')).2 d hd

end World

namespace Evaluation

variable {α β : Type} {s : Scope} {e : Evaluation α} {f : α → Evaluation β} {P : α → Prop} {Q : β → Prop}

/-- Left undisturbed, answers with a value of which this holds, and leaves its scope undisturbed. -/
def Yields (s : Scope) (P : α → Prop) (e : Evaluation α) : Prop :=
  ∀ w : World, w.Undisturbed s → ∃ a w', e.run w = (.ok a, w') ∧ P a ∧ w'.Undisturbed s

theorem Yields.bind (h : Yields s P e) (h' : ∀ a, P a → Yields s Q (f a)) : Yields s Q (e >>= f) := by
  intro w hw
  obtain ⟨a, w', hr, ha, hw'⟩ := h w hw
  obtain ⟨b, w'', hr', hb⟩ := h' a ha w' hw'
  exact ⟨b, w'', by rw [run_bind_ok hr, hr'], hb⟩

theorem Steady.yields {n : Nat} {a : α} (h : Steady s n a e) (ha : P a) : Yields s P e := by
  intro w hw
  rcases h w with ⟨-, log, hr⟩ | ⟨r, w', ht, -⟩
  · exact ⟨a, _, hr, ha, (hw.settles n).logged log⟩
  · rw [hw.trip n] at ht; cases ht

/-- The winner of a race has passed its test, and without a winner nobody has. -/
theorem race_yields (hits : List Bool) (s : Scope) :
    Yields s (fun | some i => hits[i]? = some true | none => ∀ b ∈ hits, b = false) (race hits s) := by
  intro w hw
  rcases race_cases hits w s with ⟨i, hs, hr⟩ | ⟨hs, ⟨hn, hr⟩ | ⟨r, hn, hr⟩⟩
  · exact ⟨_, _, hr, hits_of_slot hs, hw.raced hits⟩
  · exact ⟨_, _, hr, misses_of_lost hw.toProper hs (hw.raced hits).live, (hw.raced hits).settle⟩
  · have := (hw.raced hits).settle.live
    rw [Liveness.live, hn] at this
    cases this

end Evaluation

end Exclusion
