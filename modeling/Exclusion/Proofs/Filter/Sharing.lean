import Exclusion.Proofs.Filter.Calls
import Exclusion.Proofs.Scope.Forest

/-! # Sharing scopes

Calls leave every scope from before as it was, whatever comes out. So a live scope can be shared: each question is
answered as under any other live scope, whichever questions came before.
-/

namespace Exclusion

namespace Forest

def after (f : Forest) (w : World) : Forest := { f with liveness := w.liveness }

/-- A forest that operations have made, with calls among them that its surroundings may disturb. -/
inductive Reached : Forest → Prop
  | start (now : Instant) : Reached (start now)
  | perform {f g : Forest} {op : Operation} (h : Reached f) (hp : f.perform op = some g) : Reached g
  | call {f : Forest} {w : World} (h : Reached f) (hw : w.liveness = f.liveness)
    (ha : ∀ a ∈ w.pool, a.Among f.liveness.fresh) (c : Call) : Reached (f.after (c.left w))

structure Sound (f : Forest) : Prop where
  known : ∀ h s, f.scope? h = some s → f.liveness.Knows s
  bounded : f.liveness.Bounded f.liveness.fresh

variable {f g : Forest} {op : Operation} {s : Scope} {w : World} {v : Liveness} {now : Instant}
  {ops : List Operation}

theorem reached_of_run (h : run now ops = some f) : f.Reached := by
  induction ops using List.reverseRecOn generalizing f with
  | nil => cases h; exact .start now
  | append_singleton ops op ih =>
    obtain ⟨e, he, hp⟩ := run_append_singleton.mp h
    exact (ih he).perform hp

namespace Sound

theorem record (hf : f.Sound) {s? : Option Scope} (hfresh : f.liveness.fresh ≤ v.fresh)
    (hs : ∀ s, s? = some s → v.Knows s) (hb : v.Bounded v.fresh) : (f.record s? v).Sound := by
  refine ⟨fun h s hscope => ?_, hb⟩
  rcases Nat.lt_or_ge h f.given.length with hlt | hge
  · have hold : f.scope? h = some s := by
      rwa [scope?, Forest.record, List.getElem?_append_left hlt] at hscope
    exact fun l hl => Nat.lt_of_lt_of_le (hf.known h s hold l hl) hfresh
  · have hlen : h = f.given.length := by
      have := lt_of_scope? hscope
      rw [Forest.record, List.length_append, List.length_singleton] at this
      omega
    rw [hlen, scope?_record] at hscope
    exact hs s hscope

theorem held (hf : f.Sound) {h : Nat} (hs : f.held? h = some s) : f.liveness.Knows s :=
  hf.known h s (scope?_of_held? hs)

theorem perform (hf : f.Sound) (hp : f.perform op = some g) : g.Sound := by
  cases op with
  | opening inside limit =>
    obtain ⟨parent, ha, rfl⟩ := Option.map_eq_some_iff.mp hp
    refine hf.record (Nat.le_succ _) ?_ fun id hid => Nat.lt_succ_of_lt (hf.bounded id hid)
    rintro s ⟨⟩ l hl
    rcases List.mem_cons.mp hl with rfl | hl
    · exact Nat.lt_succ_self _
    · cases inside with
      | none => cases ha; cases hl
      | some k =>
        obtain ⟨t, ht, rfl⟩ := Option.map_eq_some_iff.mp ha
        exact Nat.lt_succ_of_lt (hf.held ht l hl)
  | clone k =>
    obtain ⟨s, hs, rfl⟩ := Option.map_eq_some_iff.mp hp
    refine hf.record (Nat.le_refl _) ?_ hf.bounded
    rintro s ⟨⟩
    exact hf.held hs
  | cancel k =>
    obtain ⟨s, hs, rfl⟩ := Option.map_eq_some_iff.mp hp
    refine hf.record (Nat.le_refl _) nofun (hf.bounded.apply (a := .cancel s) ?_)
    exact hf.held hs _ List.mem_cons_self
  | drop k =>
    obtain ⟨s, hs, rfl⟩ := Option.map_eq_some_iff.mp hp
    have hrecord : (f.record none f.liveness).Sound := hf.record (Nat.le_refl _) nofun hf.bounded
    exact ⟨hrecord.known, hrecord.bounded⟩
  | wait d =>
    cases hp
    exact hf.record (Nat.le_refl _) nofun hf.bounded

end Sound

theorem Reached.sound (h : f.Reached) : f.Sound := by
  induction h with
  | start now => exact ⟨nofun, nofun⟩
  | perform _ hp ih => exact ih.perform hp
  | @call f w _ hw ha c ih =>
    have hpass : w.Passes w.liveness.fresh (c.left w) := c.passes_left (Nat.le_refl _)
    rw [← hw] at ha
    have hproper : w.Proper := ⟨hw ▸ ih.bounded, ha⟩
    refine ⟨fun h s hs => hpass.knows (hw ▸ ih.known h s hs), (hpass.proper hproper).bounded⟩

end Forest

namespace Call

/-- What calls do to the scopes of a forest, and what is answered under these. -/
structure Harmless (f : Forest) (w : World) (calls : List Call) : Prop where
  /-- Every scope keeps its deadline. -/
  deadline : ∀ h, ((f.after (answers calls w).2).scope? h).map Scope.deadline = (f.scope? h).map Scope.deadline
  /-- What a scope ends for comes from the surroundings alone. -/
  reason : ∃ acts, w.pool.Perm (acts ++ (answers calls w).2.pool) ∧ ∀ h s, f.scope? h = some s →
    (answers calls w).2.liveness.reason s = (acts.foldl Liveness.apply f.liveness).reason s
  /-- If nobody else cancels it, a scope has the same reason as before, at the same time. -/
  steady : ∀ h s, f.scope? h = some s → (∀ a ∈ w.pool, a.Leaves s) → ∀ time : Instant,
    ({ (answers calls w).2.liveness with now := time } : Liveness).reason s =
      ({ f.liveness with now := time } : Liveness).reason s
  /-- A live scope that nothing from outside ends outlasts the calls. -/
  outlasts : ∀ h s, f.scope? h = some s → w.Undisturbed s → (answers calls w).2.Undisturbed s
  /-- Under other live scopes, such as a new one for each call, all is the same. -/
  shared : ∀ others, List.Forall₂ (fun c c' => c.question = c'.question) calls others →
    (∀ c ∈ calls ++ others, (answers calls w).2.liveness.live c.scope = true) →
    answers others w = answers calls w
  /-- After these calls, whichever they are, the next one is answered as anywhere else. -/
  next : ∀ h s, f.scope? h = some s → (∀ a ∈ w.pool, a.Among f.liveness.fresh) →
    ∀ q : Question, q.Completes s (answers calls w).2 →
      ∀ (u : World) (t : Scope), u.Hosts t → q.Completes t u →
        ∃ r r', ((q.answer s).run (answers calls w).2).1 = .ok r ∧ ((q.answer t).run u).1 = .ok r' ∧
          r.Agree r' ∧ (q.evaluator.Unraced → r = r')

variable {f : Forest} {w : World}

/-- No call disturbs the scopes of a forest. -/
theorem answers_harmless (hr : f.Reached) (hw : w.liveness = f.liveness) (calls : List Call) :
    Harmless f w calls := by
  have hf := hr.sound
  have hpass : w.Passes w.liveness.fresh (answers calls w).2 := passes_answers calls (Nat.le_refl _)
  have hknows {h : Nat} {s : Scope} (hs : f.scope? h = some s) : w.liveness.Knows s := hw ▸ hf.known h s hs
  obtain ⟨acts, hpool, halike⟩ := hpass.acted
  refine ⟨fun h => rfl, ⟨acts, hpool, fun h s hs => ?_⟩, fun h s hs hleaves time => ?_, fun h s hs hund => ?_,
    fun others hsame hlive => ?_, fun h s hs hamong q hq u t hu ht => ?_⟩
  · rw [(halike s (hknows hs)).reason, hw]
  · have hacts : ∀ a ∈ acts, a.Leaves s := fun a ha => hleaves a (hpool.mem_iff.mpr (List.mem_append_left _ ha))
    refine Liveness.Alike.reason ⟨rfl, fun l hl => ?_⟩
    rw [(halike s (hknows hs)).requested l hl, Liveness.requested_acts hl hacts, hw]
  · exact hund.after hpool (halike s (hknows hs)) (hpass.hosts hund.hosts)
  · exact answers_congr hsame (fun c hc => hlive c (List.mem_append_left _ hc))
      fun c hc => hlive c (List.mem_append_right _ hc)
  · have hhosts : w.Hosts s := ⟨⟨hw ▸ hf.bounded, hw ▸ hamong⟩, hknows hs⟩
    exact Question.answers_agree (hpass.hosts hhosts) hu hq ht

/-- Two calls that share a scope, one of them with a race, answer as they do under two others. -/
theorem answers_harmless_of_race :
    let ops : List Operation := [.opening none (.after ⟨900⟩), .opening (some 0) .never, .opening none .never,
      .opening none .never]
    let globs : Matcher := .glob ⟨[⟨"a", .char 'a'⟩, ⟨"b", .char 'b'⟩], true⟩
    let named : Question := ⟨.filter ⟨[globs], ⟨50⟩⟩, "b", true⟩
    let unnamed : Question := ⟨.matcher globs, "c", false⟩
    let w : World := ⟨⟨100, [], 4⟩, [], [[.advance 7]], [[.task 1, .task 0, .act (.advance 5), .task 1]]⟩
    let shared : Scope := ⟨⟨1, none⟩, [⟨0, some 1000⟩]⟩
    let apart : List Call := [⟨named, ⟨⟨2, none⟩, []⟩⟩, ⟨unnamed, ⟨⟨3, none⟩, []⟩⟩]
    ∃ f, Forest.run 100 ops = some f ∧ w.liveness = f.liveness ∧ f.held? 1 = some shared ∧
      Harmless f w [⟨named, shared⟩, ⟨unnamed, shared⟩] ∧
      (answers apart w).1 = [.ok (.verdict (.matched .glob "b")), .ok (.excluded false)] := by
  intro ops globs named unnamed w shared apart
  have h : Harmless _ w [⟨named, shared⟩, ⟨unnamed, shared⟩] :=
    answers_harmless (Forest.reached_of_run (rfl : Forest.run 100 ops = _)) rfl _
  refine ⟨_, rfl, rfl, by decide +kernel, h, ?_⟩
  have hsame : List.Forall₂ (fun c c' : Call => c.question = c'.question)
      [⟨named, shared⟩, ⟨unnamed, shared⟩] apart := .cons rfl (.cons rfl .nil)
  rw [h.shared apart hsame (by decide)]
  decide

end Call

end Exclusion
