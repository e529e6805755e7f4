import Exclusion.Proofs.Expr.Choice
import Exclusion.Proofs.Expr.Scan
import Exclusion.Proofs.Filter.Answers
import Exclusion.Proofs.Filter.Construction
import Exclusion.Proofs.Filter.Leniency
import Exclusion.Proofs.Filter.Lines

/-! # Provenance

A verdict that excludes a path names a dialect and a source, and a filter can be held to them: a section of that
dialect has a pattern that matches the path, and the source is this pattern as it was configured, or the path
for expressions.
-/

namespace Exclusion

open Evaluation

/-- What is configured in one dialect; rule lines come with the files that they may be read from. -/
inductive Section where
  | regex (o : RegexOptions)
  | glob (o : GlobOptions)
  | gitignore (files : Files) (o : GitIgnoreOptions)

namespace Section

def dialect : Section → Dialect
  | regex _ => .regex
  | glob _ => .glob
  | gitignore _ _ => .gitignore

/-- The section compiles to this matcher, in either strategy, or without the globs that do not compile. -/
inductive Makes : Section → Matcher → Prop
  | regex {o : RegexOptions} {concurrent : Bool} {log : Log} {m : ExprMatcher}
    (h : ((ExprMatcher.compile { o with concurrent := concurrent }).run log).1 = .ok m) :
    Makes (.regex o) (.regex m)
  | glob {o : GlobOptions} {concurrent : Bool} {log : Log} {m : GlobMatcher}
    (h : ((GlobMatcher.compile { o with concurrent := concurrent }).run log).1 = .ok m) :
    Makes (.glob o) (.glob m)
  | lenient {o : GlobOptions} {concurrent : Bool} {log : Log} {m : GlobMatcher} {failures : List Failure}
    (h : ((GlobMatcher.compileLenient { o with concurrent := concurrent }).run log).1 = .ok (m, failures)) :
    Makes (.glob o) (.glob m)
  | gitignore {files : Files} {o : GitIgnoreOptions} {concurrent : Bool} {log : Log} {m : RuleMatcher}
    (h : ((RuleMatcher.compile files { o with concurrent := concurrent }).run log).1 = .ok m) :
    Makes (.gitignore files o) (.gitignore m)

/-- The section has what it takes for this verdict about the path. -/
inductive Accounts (path : String) : Section → Verdict → Prop
  | expression {o : RegexOptions} {p : String} (hpath : path ≠ "") (hp : p ∈ o.patterns) (ho : o.literal = false)
    (hm : PatternSet.MatchesAlone path p) : Accounts path (.regex o) (.matched .regex path)
  | literal {o : RegexOptions} {t : String} (hpath : path ≠ "") (ht : t ∈ o.patterns) (ho : o.literal = true)
    (hm : t.toList <:+: path.toList) : Accounts path (.regex o) (.matched .regex path)
  | pattern {o : GlobOptions} {p : String} {g : GlobEntry} (hp : p ∈ o.patterns)
    (hg : GlobEntry.compile p p.toList = .ok g) (hm : g.matchesPath path = true) :
    Accounts path (.glob o) (.matched .glob p)
  | raw {o : GlobOptions} {r : String} {g : GlobEntry} (hr : r ∈ o.raw)
    (hg : GlobEntry.compile r (Glob.quote r.toList) = .ok g) (hm : g.matchesPath path = true) :
    Accounts path (.glob o) (.matched .glob r)
  | line {files : Files} {o : GitIgnoreOptions} {lines : List String} {line : String} {r : Rule}
    (hlines : RuleMatcher.lines files o = .ok lines) (hline : line ∈ lines)
    (hr : Rule.ofLine line = .ok (some r)) (hn : r.negated = false) (hm : r.matchesPath path = true) :
    Accounts path (.gitignore files o) (.matched .gitignore line)

end Section

section Sources

variable {path : String} {v : Verdict}

theorem ExprMatcher.accounts {o : RegexOptions} {concurrent : Bool} {m : ExprMatcher}
    (h : ofOptions { o with concurrent := concurrent } = .ok m) (hm : m.matchesPath path = true)
    (hpath : path ≠ "") : Section.Accounts path (.regex o) (.matched .regex path) := by
  have hpattern {exprs : List Expr} (hc : o.patterns.mapM (fun t => Expr.compile t.toList) = .ok exprs)
      (hl : o.literal = false) (hany : exprs.any (·.matchesText path) = true) :
      Section.Accounts path (.regex o) (.matched .regex path) := by
    obtain ⟨p, hp, hmatch⟩ := (PatternSet.any_matchesText hc path).mp hany
    exact .expression hpath hp hl hmatch
  unfold ofOptions at h
  split at h
  · cases h
  · rename_i hne
    split at h
    · rename_i hl
      obtain ⟨e, he, rfl⟩ := map_eq_ok.mp h
      have hmatch : e.matchesText path = true := by simpa [matchesPath] using hm
      obtain ⟨t, ht, hin⟩ := (matchesText_of_joinLiterals (by simpa using hne) he path).mp hmatch
      exact .literal hpath ht hl hin
    · rename_i hl
      split at h
      · split at h
        · rename_i set hset
          cases h
          exact hpattern (PatternSet.mapM_compile_of_ok hset) (by simpa using hl) hm
        · cases h
      · obtain ⟨exprs, hexprs, rfl⟩ := map_eq_ok.mp h
        have hc : o.patterns.mapM (fun t => Expr.compile t.toList) = .ok exprs :=
          mapM_eq_ok.mpr ((mapM_eq_ok.mp hexprs).imp fun _ _ => compileOne_eq_ok.mp)
        exact hpattern hc (by simpa using hl) hm

theorem GlobMatcher.entries_of_mapM {texts : List (String × List Char)} {entries : List GlobEntry}
    (h : texts.mapM (fun (source, glob) => GlobEntry.compile source glob) = .ok entries) :
    entries = texts.filterMap entry? := by
  replace h := mapM_eq_ok.mp h
  induction h with
  | nil => rfl
  | cons hg _ ih => rw [List.filterMap_cons_some (entry?_eq_some.mpr hg), ← ih]

theorem GlobMatcher.accounts {o : GlobOptions} {g : GlobEntry} (hg : g ∈ o.texts.filterMap entry?)
    (hm : g.matchesPath path = true) : Section.Accounts path (.glob o) (.matched .glob g.source) := by
  obtain ⟨t, ht, hentry⟩ := List.mem_filterMap.mp hg
  have hc := entry?_eq_some.mp hentry
  rw [(GlobEntry.source_of_compile hc).1]
  rcases List.mem_append.mp ht with hp | hr
  · obtain ⟨p, hmem, rfl⟩ := List.mem_map.mp hp
    exact .pattern hmem hc hm
  · obtain ⟨r, hmem, rfl⟩ := List.mem_map.mp hr
    exact .raw hmem hc hm

theorem RuleMatcher.accounts {files : Files} {o : GitIgnoreOptions} {concurrent : Bool} {m : RuleMatcher}
    (h : ofOptions files { o with concurrent := concurrent } = .ok m)
    (hm : (m.verdict path).isMatch = true) : Section.Accounts path (.gitignore files o) (m.verdict path) := by
  obtain ⟨ls, hl, hlaw⟩ := law_verdict h
  obtain ⟨hd, hs⟩ := (hlaw path).source hm
  have hline := List.mem_filter.mp (List.mem_of_find?_eq_some hs)
  have hhit := List.find?_some hs
  have hboth : (Rule.ofLine? (m.verdict path).source).any (fun r => ! r.negated && r.matchesPath path) = true := by
    have hexcluding := hline.2
    cases hr : Rule.ofLine? (m.verdict path).source with
    | none => rw [hr] at hexcluding; cases hexcluding
    | some r =>
      rw [hr] at hexcluding
      rw [hits, hr] at hhit
      exact Bool.and_eq_true_iff.mpr ⟨hexcluding, hhit⟩
  obtain ⟨r, hr, hp⟩ := Rule.exists_of_any_ofLine? _ _ hboth
  rw [Bool.and_eq_true, Bool.not_eq_true'] at hp
  cases hv : m.verdict path with
  | unmatched => rw [hv] at hm; cases hm
  | matched d source =>
    rw [hv] at hd hr hline
    cases hd
    exact .line hl hline.1 hr hp.1 hp.2

end Sources

namespace Section

variable {path : String} {s : Section} {m : Matcher} {v : Verdict}

theorem Makes.dialect (h : s.Makes m) : m.dialect = s.dialect := by
  cases h <;> rfl

theorem Accounts.dialect (h : s.Accounts path v) : v.dialect = s.dialect := by
  cases h <;> rfl

/-- Three guards keep sources from being empty: for paths, for globs and for lines. -/
theorem Accounts.source_ne (h : s.Accounts path v) : v.source ≠ "" := by
  cases h with
  | expression hpath _ _ _ => exact hpath
  | literal hpath _ _ _ => exact hpath
  | pattern _ hg _ => exact (GlobEntry.source_of_compile hg).2
  | raw _ hg _ => exact (GlobEntry.source_of_compile hg).2
  | line _ _ hr _ _ =>
    rintro rfl
    have hblank : Rule.ofLine "" = .ok none := by rfl
    cases hblank.symm.trans hr

theorem Makes.accounts (h : s.Makes m) (hv : m.Allows path v) : v = .unmatched ∨ s.Accounts path v := by
  cases h with
  | regex h =>
    obtain rfl : v = _ := hv
    by_cases hpath : path = ""
    · exact .inl (by simp [ExprMatcher.verdict, hpath])
    · rename_i o concurrent log m
      rw [ExprMatcher.verdict, if_neg (by simpa using hpath)]
      cases hm : m.matchesPath path with
      | false => exact .inl rfl
      | true => exact .inr (ExprMatcher.accounts ((ExprMatcher.compile_settles _ _).symm.trans h) hm hpath)
  | glob h =>
    obtain ⟨entries, he, rfl⟩ := map_eq_ok.mp ((GlobMatcher.compile_settles _ _).symm.trans h)
    rcases hv with ⟨g, hg, hm, rfl⟩ | ⟨-, rfl⟩
    · exact .inr (GlobMatcher.accounts (GlobMatcher.entries_of_mapM he ▸ hg) hm)
    · exact .inl rfl
  | @lenient o concurrent log m failures h =>
    obtain rfl := GlobMatcher.entries_of_compileLenient h
    rcases hv with ⟨g, hg, hm, rfl⟩ | ⟨-, rfl⟩
    · exact .inr (GlobMatcher.accounts hg hm)
    · exact .inl rfl
  | gitignore h =>
    rename_i files o concurrent log m
    obtain rfl : v = _ := hv
    cases hm : (m.verdict path).isMatch with
    | true => exact .inr (RuleMatcher.accounts ((RuleMatcher.compile_settles _ _ _).symm.trans h) hm)
    | false =>
      refine .inl ?_
      cases hv : m.verdict path with
      | unmatched => rfl
      | matched d source => rw [hv] at hm; cases hm

/-- What the builder is given for a section: its options, or a matcher that was compiled from it before. -/
inductive Behind (files : Files) : Section → Pending → Prop
  | regex (o : RegexOptions) : Behind files (.regex o) (.regex o)
  | glob (o : GlobOptions) : Behind files (.glob o) (.glob o)
  | gitignore (o : GitIgnoreOptions) : Behind files (.gitignore files o) (.gitignore o)
  | compiled {s : Section} {m : Matcher} (h : s.Makes m) : Behind files s (.compiled m)

end Section

def FilterOptions.sections (files : Files) (o : FilterOptions) : List Section :=
  (o.regex.map .regex).toList ++ (o.glob.map .glob).toList ++ (o.gitignore.map (.gitignore files)).toList

/-- Built from these sections, by options or piece by piece. -/
inductive Filter.BuiltFrom (files : Files) : List Section → Filter → Prop
  | options {o : FilterOptions} {log : Log} {f : Filter} (h : ((ofOptions files o).run log).1 = .ok f) :
    BuiltFrom files (o.sections files) f
  | builder {sections : List Section} {pending : List Pending} {timeout : Option Duration} {log : Log}
    {f : Filter} (hs : List.Forall₂ (Section.Behind files) sections pending)
    (h : ((ofPending files pending timeout).run log).1 = .ok f) : BuiltFrom files sections f

/-- The verdict can be held to its source and its dialect, and there are none without a match. -/
structure Verdict.Truthful (sections : List Section) (path : String) (v : Verdict) : Prop where
  source : v.isMatch = true ↔ v.source ≠ ""
  dialect : v.isMatch = true ↔ v.dialect ≠ .unknown
  unmatched : v.isMatch = false → v = .unmatched
  accounted : v.isMatch = true → ∃ s ∈ sections, s.dialect = v.dialect ∧ s.Accounts path v

namespace Filter

variable {files : Files} {sections : List Section} {s : Section} {f : Filter} {m : Matcher} {ms : List Matcher}
  {path : String} {v : Verdict} {log : Log}

theorem makes_of_compile {p : Pending} (hb : s.Behind files p) (h : ((p.compile files).run log).1 = .ok m) :
    s.Makes m := by
  cases hb with
  | regex o =>
    obtain ⟨m, _, hm, h⟩ := Build.ok_of_run_bind h
    cases h
    exact @Section.Makes.regex o o.concurrent log m hm
  | glob o =>
    obtain ⟨m, _, hm, h⟩ := Build.ok_of_run_bind h
    cases h
    exact @Section.Makes.glob o o.concurrent log m hm
  | gitignore o =>
    obtain ⟨m, _, hm, h⟩ := Build.ok_of_run_bind h
    cases h
    exact @Section.Makes.gitignore files o o.concurrent log m hm
  | compiled hm => cases h; exact hm

theorem makes_of_mapM {pending : List Pending} (hs : List.Forall₂ (Section.Behind files) sections pending)
    (h : ((pending.mapM (Pending.compile files)).run log).1 = .ok ms) :
    List.Forall₂ Section.Makes sections ms := by
  induction hs generalizing ms log with
  | nil => cases h; exact .nil
  | cons hb _ ih =>
    rw [List.mapM_cons] at h
    obtain ⟨m, _, hm, h⟩ := Build.ok_of_run_bind h
    obtain ⟨rest, _, hrest, h⟩ := Build.ok_of_run_bind h
    cases h
    exact .cons (makes_of_compile hb hm) (ih hrest)

theorem makes_of_sectionYields {o : FilterOptions} {d : Dialect} {x : Except Failure Matcher}
    (h : o.SectionYields files d x) (hx : x = .ok m) : ∃ s ∈ o.sections files, s.Makes m := by
  cases h with
  | @regex s _ hs h =>
    obtain ⟨m', rfl, rfl⟩ := map_eq_ok.mp hx
    refine ⟨.regex s, by simp [FilterOptions.sections, hs], ?_⟩
    exact @Section.Makes.regex s (s.concurrent || o.concurrent) [] m' (h [])
  | @glob s _ hs h =>
    obtain ⟨m', rfl, rfl⟩ := map_eq_ok.mp hx
    refine ⟨.glob s, by simp [FilterOptions.sections, hs], ?_⟩
    exact @Section.Makes.glob s (s.concurrent || o.concurrent) [] m' (h [])
  | @gitignore s _ hs h =>
    obtain ⟨m', rfl, rfl⟩ := map_eq_ok.mp hx
    refine ⟨.gitignore files s, by simp [FilterOptions.sections, hs], ?_⟩
    exact @Section.Makes.gitignore files s (s.concurrent || o.concurrent) [] m' (h [])

theorem exists_of_forall₂ {α β : Type} {R : α → β → Prop} {as : List α} {bs : List β}
    (h : List.Forall₂ R as bs) : ∀ b ∈ bs, ∃ a ∈ as, R a b := by
  induction h with
  | nil => nofun
  | cons hab _ ih =>
    refine List.forall_mem_cons.mpr ⟨⟨_, List.mem_cons_self, hab⟩, fun b hb => ?_⟩
    obtain ⟨a, ha, hr⟩ := ih b hb
    exact ⟨a, List.mem_cons_of_mem _ ha, hr⟩

theorem BuiltFrom.makes (h : f.BuiltFrom files sections) : ∀ m ∈ f.matchers, ∃ s ∈ sections, s.Makes m := by
  intro m hm
  cases h with
  | @options o log f h =>
    rcases ofOptions_cases files o with ⟨f', -, hd, hs⟩ | ⟨x, -, hs⟩
    · cases (hs log).symm.trans h
      obtain ⟨d, -, hyields⟩ := exists_of_forall₂ hd.matchers m hm
      exact makes_of_sectionYields hyields rfl
    · cases (hs log).symm.trans h
  | builder hs h =>
    obtain ⟨ms, log', hms, h⟩ := Build.ok_of_run_bind h
    obtain ⟨-, rfl⟩ := ofMatchers_ok h
    exact exists_of_forall₂ (makes_of_mapM hs hms) m hm

theorem ask_allowed (path : String) (scope : Scope) (ms : List Matcher) :
    Meets (fun _ => True) (fun v => v = .unmatched ∨ ∃ m ∈ ms, m.Allows path v) (ask path scope ms) := by
  induction ms with
  | nil => exact (steady_pure scope _).meets World.closed_true (.inl rfl)
  | cons m ms ih =>
    intro w v w' _ hr
    refine ⟨?_, trivial⟩
    obtain ⟨u, w₁, hu, ⟨-, rfl⟩ | ⟨-, hrest⟩⟩ := run_ask_cons hr
    · refine (m.meets_evaluate_anywhere path scope w u w₁ trivial hu).1.imp_right fun hallow => ?_
      exact ⟨m, List.mem_cons_self, hallow⟩
    · refine (ih w₁ v w' trivial hrest).1.imp_right fun ⟨m', hm', hallow⟩ => ?_
      exact ⟨m', List.mem_cons_of_mem _ hm', hallow⟩

theorem truthful_unmatched : Verdict.unmatched.Truthful sections path :=
  ⟨⟨nofun, fun h => absurd rfl h⟩, ⟨nofun, fun h => absurd rfl h⟩, fun _ => rfl, nofun⟩

theorem truthful_of_accounts (hs : s ∈ sections) (h : s.Accounts path v) : v.Truthful sections path := by
  have hmatch : v.isMatch = true := by cases h <;> rfl
  have hdialect : v.dialect ≠ .unknown := by cases h <;> nofun
  refine ⟨⟨fun _ => h.source_ne, fun _ => hmatch⟩, ⟨fun _ => hdialect, fun _ => hmatch⟩, fun hn => ?_,
    fun _ => ⟨s, hs, h.dialect.symm, h⟩⟩
  rw [hmatch] at hn
  cases hn

/-- However a filter is built and whatever happens meanwhile, the verdicts that come out of it and of its
matchers are truthful, and name the dialect of one of these. -/
theorem evaluate_truthful (h : f.BuiltFrom files sections) (path : String) :
    (∀ m ∈ f.matchers, ∀ (w w' : World) (scope : Scope) (v : Verdict),
      (m.evaluate path scope).run w = (.ok v, w') → v.Truthful sections path) ∧
    ∀ (w w' : World) (caller : Scope) (v : Verdict), (f.evaluate path caller).run w = (.ok v, w') →
      v.Truthful sections path ∧ (v.isMatch = true → v.dialect ∈ f.dialects) := by
  have hallowed {m : Matcher} {v : Verdict} (hm : m ∈ f.matchers) (hv : m.Allows path v) :
      v = .unmatched ∨ ∃ s ∈ sections, s.dialect = m.dialect ∧ s.Accounts path v := by
    obtain ⟨s, hs, hmakes⟩ := h.makes m hm
    exact (hmakes.accounts hv).imp_right fun ha => ⟨s, hs, hmakes.dialect.symm, ha⟩
  constructor
  · intro m hm w w' scope v hr
    rcases (m.meets_evaluate_anywhere path scope w v w' trivial hr).1 with rfl | hv
    · exact truthful_unmatched
    · rcases hallowed hm hv with rfl | ⟨s, hs, -, ha⟩
      · exact truthful_unmatched
      · exact truthful_of_accounts hs ha
  · intro w w' caller v hr
    rw [run_evaluate] at hr
    rcases (ask_allowed path _ f.matchers _ v w' trivial hr).1 with rfl | ⟨m, hm, hv⟩
    · exact ⟨truthful_unmatched, nofun⟩
    · rcases hallowed hm hv with rfl | ⟨s, hs, hd, ha⟩
      · exact ⟨truthful_unmatched, nofun⟩
      · exact ⟨truthful_of_accounts hs ha, fun _ => List.mem_map.mpr ⟨m, hm, hd.symm.trans ha.dialect.symm⟩⟩

/-- The glob that does not compile is left out, and the other one is named. -/
theorem evaluate_truthful_of_lenient :
    let o : GlobOptions := ⟨["[", "*.rs"], ["a.rs"], false⟩
    let f : Filter := ⟨[.glob ⟨o.texts.filterMap GlobMatcher.entry?, false⟩], defaultTimeout⟩
    let caller : Scope := ⟨⟨0, none⟩, []⟩
    let w : World := .calm ⟨5, [], 1⟩
    f.BuiltFrom .empty [.glob o] ∧ ((f.evaluate "a.rs" caller).run w).1 = .ok (.matched .glob "*.rs") ∧
      Verdict.Truthful [.glob o] "a.rs" (.matched .glob "*.rs") := by
  intro o f caller w
  have hok : ((GlobMatcher.compileLenient o).run []).1.isOk = true := by decide +kernel
  obtain ⟨⟨m, failures⟩, hm⟩ := eq_ok_of_isOk hok
  have hmakes : Section.Makes (.glob o) (.glob ⟨o.texts.filterMap GlobMatcher.entry?, false⟩) :=
    GlobMatcher.entries_of_compileLenient hm ▸ @Section.Makes.lenient o o.concurrent [] _ failures hm
  have hbuilt : f.BuiltFrom .empty [.glob o] := @BuiltFrom.builder .empty [.glob o] _ none [] f
    (.cons (.compiled hmakes) .nil) rfl
  have hr : ((f.evaluate "a.rs" caller).run w).1 = .ok (.matched .glob "*.rs") := by decide +kernel
  exact ⟨hbuilt, hr, ((evaluate_truthful hbuilt "a.rs").2 w _ caller _ (run_eq_of_ok hr)).1⟩

end Filter

end Exclusion
