import Exclusion.Proofs.Filter.Agreement
import Exclusion.Proofs.Filter.Answers
import Exclusion.Proofs.Filter.Construction
import Mathlib.Data.List.Perm.Basic

/-! # Precedence

The first matcher to exclude a path gives the verdict, and the order of the matchers has no other effect.
Whether the path is excluded is up to each matcher on its own.
-/

namespace Exclusion

open Evaluation

namespace Matcher

variable {m : Matcher} {path : String} {b : Bool} {v : Verdict}

structure Decides (m : Matcher) (path : String) (b : Bool) : Prop where
  answers : ∀ (w : World) (s : Scope), w.Undisturbed s → ∃ v w', (m.evaluate path s).run w = (.ok v, w')
  agrees : ∀ (w : World) (s : Scope) (v : Verdict) (w' : World), w.Hosts s →
    (m.evaluate path s).run w = (.ok v, w') → v.isMatch = b

theorem Agree.refl (m : Matcher) : m.Agree m := by
  cases m with
  | regex m => exact fun _ => rfl
  | glob m => exact rfl
  | gitignore m => exact fun _ => rfl

theorem isMatch_of_allows (h : m.Allows path v) : v.isMatch = (m.verdict path).isMatch :=
  ((Agree.refl m).allows h (m.allows_verdict path)).isMatch

theorem decides_iff : m.Decides path b ↔ (m.verdict path).isMatch = b := by
  have hanswers (w : World) (s : Scope) (hw : w.Undisturbed s) :
      ∃ v w', (m.evaluate path s).run w = (.ok v, w') := by
    obtain ⟨v, w', hr, -⟩ := m.yields_evaluate path s w hw
    exact ⟨v, w', hr⟩
  have hagrees (w : World) (s : Scope) (v : Verdict) (w' : World) (hw : w.Hosts s)
      (hr : (m.evaluate path s).run w = (.ok v, w')) : v.isMatch = (m.verdict path).isMatch :=
    isMatch_of_allows (m.meets_evaluate path s w v w' hw hr).1
  constructor
  · intro h
    have hw : (World.calm ⟨0, [], 1⟩).Undisturbed ⟨⟨0, none⟩, []⟩ :=
      (World.calm_keeps (v := ⟨0, [], 1⟩) nofun (by unfold Liveness.Knows; decide)).live rfl
    obtain ⟨v, w', hr⟩ := hanswers _ _ hw
    rw [← hagrees _ _ _ _ hw.hosts hr, h.agrees _ _ _ _ hw.hosts hr]
  · rintro rfl
    exact ⟨hanswers, hagrees⟩

end Matcher

namespace FilterOptions

variable {files : Files} {o : FilterOptions} {order : Option (List Dialect)} {d : Dialect}

theorem SectionYields.reordered {x : Except Failure Matcher} (h : o.SectionYields files d x) :
    ({ o with order := order } : FilterOptions).SectionYields files d x := by
  cases h with
  | regex hs h => exact .regex hs h
  | glob hs h => exact .glob hs h
  | gitignore hs h => exact .gitignore hs h

theorem configured_reordered (o : FilterOptions) (order : Option (List Dialect)) :
    ({ o with order := order } : FilterOptions).configured = o.configured := by
  funext d
  cases d <;> rfl

/-- Any other order that is valid and complete would do, too. -/
theorem Buildable.reordered (h : o.Buildable files)
    (hvalid : ValidOrder ({ o with order := order } : FilterOptions).wanted)
    (hplaced : ∀ d, o.configured d → d ∈ ({ o with order := order } : FilterOptions).wanted) :
    ({ o with order := order } : FilterOptions).Buildable files := by
  constructor
  · exact hvalid
  · rw [configured_reordered]; exact hplaced
  · rw [configured_reordered]; exact h.filled
  · rw [configured_reordered]
    intro d hd
    obtain ⟨m, hm⟩ := h.compiles d hd
    exact ⟨m, hm.reordered⟩

theorem perm_configured {ds ds' : List Dialect} (h : ds.Nodup) (h' : ds'.Nodup)
    (hplaced : ∀ d, o.configured d → d ∈ ds) (hplaced' : ∀ d, o.configured d → d ∈ ds') :
    (ds.filter o.configured).Perm (ds'.filter o.configured) := by
  rw [List.perm_ext_iff_of_nodup (h.filter _) (h'.filter _)]
  intro d
  rw [List.mem_filter, List.mem_filter]
  exact and_congr_left fun hd => ⟨fun _ => hplaced' d hd, fun _ => hplaced d hd⟩

end FilterOptions

namespace Filter

open FilterOptions

variable {path : String} {s : Scope} {ms : List Matcher} {v : Verdict} {w w' : World} {f : Filter}
  {files : Files} {o : FilterOptions} {order : Option (List Dialect)}

/-- No matcher excludes the path, or the verdict is what the first of them to do so says after those before
it have been asked. -/
inductive Decided (path : String) (s : Scope) (ms : List Matcher) (w : World) : Verdict → Prop
  | passed (h : ∀ m ∈ ms, m.Decides path false) : Decided path s ms w .unmatched
  | first {before after : List Matcher} {m : Matcher} {v : Verdict} {w₁ w₂ : World}
    (hms : ms = before ++ m :: after) (hbefore : ∀ b ∈ before, b.Decides path false)
    (hm : m.Decides path true) (hask : (ask path s before).run w = (.ok .unmatched, w₁))
    (hrun : (m.evaluate path s).run w₁ = (.ok v, w₂)) (hv : v.isMatch = true) : Decided path s ms w v

theorem ask_decided (hw : w.Hosts s) (hr : (ask path s ms).run w = (.ok v, w')) : Decided path s ms w v := by
  induction ms generalizing w with
  | nil => cases hr; exact .passed nofun
  | cons m ms ih =>
    obtain ⟨u, w₁, hu, h⟩ := run_ask_cons hr
    obtain ⟨hallow, hw₁⟩ := m.meets_evaluate path s w u w₁ hw hu
    have hdecides : m.Decides path u.isMatch := Matcher.decides_iff.mpr (Matcher.isMatch_of_allows hallow).symm
    rcases h with ⟨hmatch, rfl⟩ | ⟨rfl, hrest⟩
    · exact .first (List.nil_append _).symm nofun (hmatch ▸ hdecides) rfl hu hmatch
    · cases ih hw₁ hrest with
      | passed h => exact .passed (List.forall_mem_cons.mpr ⟨hdecides, h⟩)
      | first hms hbefore hm hask hrun hv =>
        subst hms
        refine .first List.cons_append.symm (List.forall_mem_cons.mpr ⟨hdecides, hbefore⟩) hm ?_ hrun hv
        rw [run_ask_of_unmatched hu, hask]

def excludes (path : String) (ms : List Matcher) : Bool := ms.any fun m => (m.verdict path).isMatch

theorem excludes_iff : excludes path ms = true ↔ ∃ m ∈ ms, m.Decides path true := by
  simp only [excludes, List.any_eq_true, Matcher.decides_iff]

theorem Decided.isMatch (h : Decided path s ms w v) : v.isMatch = excludes path ms := by
  cases h with
  | passed h =>
    have : ∀ m ∈ ms, (m.verdict path).isMatch = false := fun m hm => Matcher.decides_iff.mp (h m hm)
    simpa [excludes, Verdict.isMatch] using this
  | first hms _ hm _ _ hv =>
    rw [hv, eq_comm, excludes_iff]
    exact ⟨_, hms ▸ List.mem_append_cons_self, hm⟩

theorem hosts_entry {caller : Scope} (h : w.Hosts caller) : (f.entry w caller).Hosts (f.scope w caller) :=
  ⟨⟨fun id hid => Nat.lt_succ_of_lt (h.bounded id hid), fun a ha => (h.pool a ha).mono (Nat.le_succ _)⟩,
    knows_entry h.known⟩

structure Decides (f : Filter) (path : String) (b : Bool) : Prop where
  answers : ∀ (w : World) (caller : Scope), (f.entry w caller).Undisturbed (f.scope w caller) →
    ∃ v w', (f.evaluate path caller).run w = (.ok v, w')
  agrees : ∀ (w : World) (caller : Scope) (v : Verdict) (w' : World), w.Hosts caller →
    (f.evaluate path caller).run w = (.ok v, w') → v.isMatch = b

theorem decides_excludes (f : Filter) (path : String) : f.Decides path (excludes path f.matchers) := by
  refine ⟨fun w caller hw => ?_, fun w caller v w' hw hr => ?_⟩
  · obtain ⟨v, hv, -⟩ := ask_undisturbed path f.matchers hw
    exact ⟨v, _, run_eq_of_ok hv⟩
  · rw [run_evaluate] at hr
    exact (ask_decided (hosts_entry hw) hr).isMatch

theorem exists_decides (hne : ms ≠ []) (timeout : Option Duration) :
    ∃ f, (ofMatchers ms timeout).Settles (.ok f) ∧ f.Decides path (excludes path ms) :=
  ⟨_, settles_ofMatchers hne timeout, decides_excludes _ path⟩

theorem ofOptions_reordered (h : (ofOptions files o).Settles (.ok f))
    (hvalid : ValidOrder ({ o with order := order } : FilterOptions).wanted)
    (hplaced : ∀ d, o.configured d → d ∈ ({ o with order := order } : FilterOptions).wanted) :
    ∃ f', (ofOptions files { o with order := order }).Settles (.ok f') ∧ f'.matchers.Perm f.matchers := by
  rcases ofOptions_cases files o with ⟨f₀, hb, hd, hs⟩ | ⟨x, -, hs⟩
  · obtain rfl : f₀ = f := Except.ok.inj (hs.unique h)
    have hb' := hb.reordered hvalid hplaced
    rcases ofOptions_cases files { o with order := order } with ⟨f', -, hd', hs'⟩ | ⟨x, hx, -⟩
    · refine ⟨f', hs', ?_⟩
      have hperm := perm_configured hvalid.nodup hb.valid.nodup hplaced hb.placed
      obtain ⟨ms, hms, hp⟩ := List.perm_comp_forall₂ hperm hd.matchers
      have hms' := hd'.matchers
      rw [configured_reordered] at hms'
      have hunique : Relator.RightUnique fun d m =>
          ({ o with order := order } : FilterOptions).SectionYields files d (.ok m) :=
        fun d m m' hm hm' => Except.ok.inj (hm.unique hm')
      rwa [hunique.forall₂ hms' (hms.imp fun d m hm => hm.reordered)]
    · exact absurd hb' hx.not_buildable
  · cases hs.unique h

theorem excludes_perm {ms' : List Matcher} (h : ms'.Perm ms) : excludes path ms' = excludes path ms :=
  h.any_eq

/-- What the order of the matchers is good for, and what it is not, when `b` says whether the path is excluded:
the verdict names the first that excludes it. An evaluation fails only when its scope has ended. -/
structure Precedence (f : Filter) (path : String) (b : Bool) : Prop where
  decided : ∀ (w : World) (caller : Scope) (v : Verdict) (w' : World), w.Hosts caller →
    (f.evaluate path caller).run w = (.ok v, w') →
    Decided path (f.scope w caller) f.matchers (f.entry w caller) v
  fails : ∀ (w : World) (caller : Scope) (x : Failure) (w' : World),
    (f.evaluate path caller).run w = (.error x, w') →
    ∃ r, x = .cancelled r ∧ w'.liveness.reason (f.scope w caller) = some r
  outcome : f.Decides path b
  alone : ∀ m ∈ f.matchers, ∃ c, ∀ c', m.Decides path c' ↔ c' = c
  some_excludes : b = true ↔ ∃ m ∈ f.matchers, m.Decides path true
  permuted : ∀ ms : List Matcher, ms.Perm f.matchers → ∀ timeout : Option Duration,
    ∃ f', (ofMatchers ms timeout).Settles (.ok f') ∧ f'.Decides path b
  extended : b = true → ∀ ms : List Matcher, f.matchers ⊆ ms → ∀ timeout : Option Duration,
    ∃ f', (ofMatchers ms timeout).Settles (.ok f') ∧ f'.Decides path true
  /-- Any other valid order of the same options makes a filter, too, and one that decides alike. -/
  reordered : ∀ (files : Files) (o : FilterOptions), (ofOptions files o).Settles (.ok f) →
    ∀ order : Option (List Dialect), ValidOrder ({ o with order := order } : FilterOptions).wanted →
      (∀ d, o.configured d → d ∈ ({ o with order := order } : FilterOptions).wanted) →
      ∃ f', (ofOptions files { o with order := order }).Settles (.ok f') ∧ f'.Decides path b

theorem ofMatchers_precedence (hne : ms ≠ []) (timeout : Option Duration) :
    ∃ f, (ofMatchers ms timeout).Settles (.ok f) ∧ f.matchers = ms ∧
      ∀ path, ∃ b, f.Precedence path b := by
  refine ⟨_, settles_ofMatchers hne timeout, rfl, fun path => ⟨excludes path ms, ?_⟩⟩
  constructor
  · exact fun w caller v w' hw hr => ask_decided (hosts_entry hw) hr
  · exact fun w caller x w' hr => (asks_ask path _).blames _ _ x w' hr
  · exact decides_excludes _ path
  · exact fun m _ => ⟨_, fun c => Matcher.decides_iff.trans eq_comm⟩
  · exact excludes_iff
  · intro ms' hperm timeout'
    have hne' : ms' ≠ [] := fun h => hne (h ▸ hperm).symm.eq_nil
    exact excludes_perm hperm ▸ exists_decides hne' timeout'
  · intro hb ms' hsub timeout'
    obtain ⟨m, hm, hexcludes⟩ := excludes_iff.mp hb
    exact excludes_iff.mpr ⟨m, hsub hm, hexcludes⟩ ▸ exists_decides (List.ne_nil_of_mem (hsub hm)) timeout'
  · intro files o ho order hvalid hplaced
    obtain ⟨f', hf', hperm⟩ := ofOptions_reordered ho hvalid hplaced
    exact ⟨f', hf', excludes_perm hperm ▸ f'.decides_excludes path⟩

/-- The second of two matchers excludes the path, with some of its globs. -/
theorem ofMatchers_precedence_of_second :
    let ms : List Matcher := [.regex (.sequential [.char 'a']),
      .glob ⟨[⟨"a", .char 'a'⟩, ⟨"b", .char 'b'⟩, ⟨"?", .char 'b'⟩], true⟩]
    ms ≠ [] ∧ ∃ f, (ofMatchers ms none).Settles (.ok f) ∧ f.Precedence "b" true := by
  intro ms
  have hne : ms ≠ [] := List.cons_ne_nil _ _
  obtain ⟨f, hf, hms, hall⟩ := ofMatchers_precedence hne none
  obtain ⟨b, hb⟩ := hall "b"
  have htrue : b = true := hb.some_excludes.mpr (by
    rw [hms]
    exact ⟨_, List.mem_cons_of_mem _ List.mem_cons_self, Matcher.decides_iff.mpr (by decide)⟩)
  exact ⟨hne, f, hf, htrue ▸ hb⟩

end Filter

end Exclusion
