import Exclusion.Glob.Matcher
import Exclusion.Proofs.Evaluation.Run
import Exclusion.Proofs.Race.Completion

/-! # What a race answers

Whatever the schedule, the winner of a race succeeds, a race without a winner has no input to succeed
with, and a race that fails has been cancelled from outside.
-/

namespace Exclusion

def World.pool (w : World) : List Act :=
  w.acts.flatten ++ w.races.flatMap (·.filterMap Race.Move.act?)

/-- Only scopes that have been opened are cancelled, now and by what is to come. -/
structure World.Proper (w : World) : Prop where
  bounded : w.liveness.Bounded w.liveness.fresh
  pool : ∀ a ∈ w.pool, a.Among w.liveness.fresh

namespace Evaluation

open Race

variable {hits : List Bool} {w w' : World} {s : Scope}

/-- The tasks that take the slot of a race that starts now, in order. -/
def raceClaimants (hits : List Bool) (w : World) (s : Scope) : List Nat :=
  claimants (raceScope w s) (fun i => hits[i]?.getD false)
    (.start { w.liveness with fresh := w.liveness.fresh + 1 } hits.length)
    (w.races.head?.getD [] ++ remaining hits.length)

theorem raceClaimants_eq : raceClaimants hits w s = (raceEnd hits w s).slot.toList :=
  claimants_of_none rfl

theorem remaining_act? (tasks : Nat) : (remaining tasks).filterMap Move.act? = [] := by
  rw [List.filterMap_eq_nil_iff]
  intro m hm
  rw [remaining, List.mem_flatMap] at hm
  obtain ⟨i, -, hi⟩ := hm
  rw [List.eq_of_mem_replicate hi]
  rfl

theorem race_acts (w : World) : w.races.flatMap (·.filterMap Move.act?) =
    (w.races.head?.getD []).filterMap Move.act? ++ w.races.tail.flatMap (·.filterMap Move.act?) := by
  cases w.races <;> rfl

theorem mem_pool_of_move {a : Act} (h : .act a ∈ w.races.head?.getD [] ++ remaining hits.length) :
    a ∈ w.pool := by
  have ha : a ∈ (w.races.head?.getD [] ++ remaining hits.length).filterMap Move.act? :=
    List.mem_filterMap.mpr ⟨_, h, rfl⟩
  rw [List.filterMap_append, remaining_act?, List.append_nil] at ha
  rw [World.pool, race_acts]
  exact List.mem_append_right _ (List.mem_append_left _ ha)

theorem raceEnd_sound (hw : w.Proper) :
    Sound (raceScope w s) s (fun i => hits[i]?.getD false) (raceEnd hits w s) := by
  refine Sound.moves ⟨rfl, rfl⟩ (fun m hm => ?_) (Sound.start fun hr => Nat.lt_irrefl _ (hw.bounded _ hr))
  cases m with
  | task i => trivial
  | act a => exact (hw.pool a (mem_pool_of_move hm)).spares

/-- A race has a winner, or it asks for its caller and finds nothing or fails. -/
theorem race_cases (hits : List Bool) (w : World) (s : Scope) :
    (∃ i, (raceEnd hits w s).slot = some i ∧ (race hits s).run w = (.ok (some i), raced hits w s)) ∨
      (raceEnd hits w s).slot = none ∧
        (((raced hits w s).settle.liveness.reason s = none ∧
            (race hits s).run w = (.ok none, (raced hits w s).settle)) ∨
          ∃ r, (raced hits w s).settle.liveness.reason s = some r ∧
            (race hits s).run w = (.error (.cancelled r), (raced hits w s).settle)) := by
  cases hs : (raceEnd hits w s).slot with
  | some i => exact .inl ⟨i, rfl, run_race_won hs⟩
  | none =>
    refine .inr ⟨rfl, ?_⟩
    rw [run_race_lost hs]
    cases hr : (raced hits w s).settle.liveness.reason s with
    | none => exact .inl ⟨rfl, run_bind_ok (run_check_ok hr)⟩
    | some r => exact .inr ⟨r, rfl, run_bind_error (run_check_error hr)⟩

theorem hits_of_slot {i : Nat} (h : (raceEnd hits w s).slot = some i) : hits[i]? = some true := by
  have := ((Earned.start _ _).moves _).slot i h
  cases hi : hits[i]? with
  | none => simp [hi] at this
  | some b => simpa [hi] using this

theorem misses_of_lost (hw : w.Proper) (hs : (raceEnd hits w s).slot = none)
    (hlive : (raced hits w s).liveness.live s = true) : ∀ b ∈ hits, b = false := by
  intro b hb
  obtain ⟨i, hi, rfl⟩ := List.getElem_of_mem hb
  have := (raceEnd_sound hw).finished hs hlive i (done_run _ _ _ _ hi)
  simpa [hi] using this

def raceActs (w : World) : List Act :=
  (w.races.head?.getD []).filterMap Move.act? ++ w.acts.head?.getD []

/-- To every scope from before it is as if only the surroundings had acted in the race. -/
theorem raceEnd_alike {t : Scope} (ht : w.liveness.Knows t) : Liveness.Alike t (raceEnd hits w s).liveness
    (((w.races.head?.getD []).filterMap Move.act?).foldl Liveness.apply w.liveness) := by
  have hid : ∀ l ∈ t.chain, l.id ≠ (raceScope w s).own.id := fun l hl => Nat.ne_of_lt (ht l hl)
  have halike : Liveness.Alike t (raceEnd hits w s).liveness
      (((w.races.head?.getD [] ++ remaining hits.length).filterMap Move.act?).foldl Liveness.apply
        w.liveness) :=
    alike_moves hid ⟨rfl, fun _ _ => Iff.rfl⟩
  rwa [List.filterMap_append, remaining_act?, List.append_nil] at halike

theorem raced_live (hits : List Bool) (hs : w.liveness.Knows s)
    (h : ((raceActs w).foldl Liveness.apply w.liveness).live s = true) :
    (raced hits w s).settle.liveness.live s = true := by
  rw [raceActs, List.foldl_append] at h
  rw [← h]
  exact ((raceEnd_alike hs).acts _).live

theorem live_of_settle_reason (h : w.settle.liveness.reason s = none) : w.liveness.live s = true := by
  have hl : ((w.acts.head?.getD []).foldl Liveness.apply w.liveness).live s = true :=
    Option.isNone_iff_eq_none.mpr h
  exact Liveness.live_of_acts hl

/-- Whatever the schedule: one task at most takes the slot, the winner succeeds, without a winner none
does, and a failure means that the caller is no longer live. -/
theorem race_sound (globs : List GlobEntry) (path : String) (w : World) (s : Scope) (hw : w.Proper)
    (hs : w.liveness.Knows s) :
    let hits := globs.map (·.matchesPath path)
    let answer := ((race hits s).run w).1
    let after := ((race hits s).run w).2
    (raceClaimants hits w s).length ≤ 1 ∧
      (∀ i, answer = .ok (some i) → ∃ g, globs[i]? = some g ∧ g.matchesPath path = true) ∧
      (answer = .ok none → ∀ g ∈ globs, g.matchesPath path = false) ∧
      (∀ x, answer = .error x → ∃ r, x = .cancelled r ∧ after.liveness.reason s = some r) ∧
      (((raceActs w).foldl Liveness.apply w.liveness).live s = true →
        ((∃ i, answer = .ok (some i)) ↔ ∃ g ∈ globs, g.matchesPath path = true) ∧
        ∀ i, (∀ j, (∃ g, globs[j]? = some g ∧ g.matchesPath path = true) ↔ j = i) →
          answer = .ok (some i)) := by
  intro hits answer after
  have hhit {i : Nat} (h : hits[i]? = some true) :
      ∃ g, globs[i]? = some g ∧ g.matchesPath path = true := by
    simpa [hits] using h
  have hmiss (h : ∀ b ∈ hits, b = false) : ∀ g ∈ globs, g.matchesPath path = false :=
    fun g hg => h _ (List.mem_map_of_mem hg)
  have hclaim : (raceClaimants hits w s).length ≤ 1 := by
    rw [raceClaimants_eq]
    cases (raceEnd hits w s).slot <;> simp
  rcases race_cases hits w s with ⟨i, hslot, hrun⟩ | ⟨hslot, ⟨hr, hrun⟩ | ⟨r, hr, hrun⟩⟩
  · simp only [answer, after, hrun]
    obtain ⟨g, hg, hm⟩ := hhit (hits_of_slot hslot)
    refine ⟨hclaim, ?_, nofun, nofun, fun _ => ⟨?_, ?_⟩⟩
    · rintro j ⟨⟩; exact ⟨g, hg, hm⟩
    · exact ⟨fun _ => ⟨g, List.mem_of_getElem? hg, hm⟩, fun _ => ⟨i, rfl⟩⟩
    · intro j hj; rw [(hj i).mp ⟨g, hg, hm⟩]
  · simp only [answer, after, hrun]
    have hnone := hmiss (misses_of_lost hw hslot (live_of_settle_reason hr))
    refine ⟨hclaim, nofun, fun _ => hnone, nofun, fun _ => ⟨⟨nofun, ?_⟩, ?_⟩⟩
    · rintro ⟨g, hg, hm⟩; exact absurd hm (by simp [hnone g hg])
    · intro j hj
      obtain ⟨g, hg, hm⟩ := (hj j).mpr rfl
      exact absurd hm (by simp [hnone g (List.mem_of_getElem? hg)])
  · simp only [answer, after, hrun]
    refine ⟨hclaim, nofun, nofun, ?_, fun hlive => ?_⟩
    · rintro x ⟨⟩; exact ⟨r, rfl, hr⟩
    · have := raced_live hits hs hlive
      rw [Liveness.live, hr] at this
      cases this

/-- Of two tasks the second succeeds, whatever happens to scopes that are not around the race. -/
theorem race_sound_of_two :
    let globs : List GlobEntry := [⟨"a", .char 'a'⟩, ⟨"b", .char 'b'⟩]
    let caller : Scope := ⟨⟨2, some 100⟩, [⟨1, none⟩]⟩
    let moves := [.task 1, .task 0, .act (.advance 7), .task 1, .act (.cancel ⟨⟨0, none⟩, []⟩), .task 1]
    let w : World := ⟨⟨5, [], 3⟩, [], [[.advance 80]], [moves]⟩
    ((race (globs.map (GlobEntry.matchesPath · "b")) caller).run w).1 = .ok (some 1) := by
  intro globs caller moves w
  have hw : w.Proper := ⟨by unfold Liveness.Bounded; decide, by decide⟩
  have hs : w.liveness.Knows caller := by unfold Liveness.Knows; decide
  have hl : ((raceActs w).foldl Liveness.apply w.liveness).live caller = true := by decide
  have ha : globs.map (GlobEntry.matchesPath · "b") = [false, true] := by decide
  have := (race_sound globs "b" w caller hw hs).2.2.2.2 hl
  refine this.2 1 fun j => ?_
  have hj : (∃ g, globs[j]? = some g ∧ g.matchesPath "b" = true) ↔ [false, true][j]? = some true := by
    rw [← ha]; simp
  rw [hj]
  match j with
  | 0 => simp
  | 1 => simp
  | j + 2 => simp

end Evaluation

end Exclusion
