import Exclusion.Proofs.Filter.Lines
import Exclusion.Proofs.Rule.Negation

/-! # Lines together with their negations

A negated line has the expression of the line without the sign. So lines that compile do so with the negation of
each among them, wherever it stands, and then whatever one of them selects is released.
-/

namespace Exclusion

theorem Expr.jointWeight_perm {es es' : List Expr} (h : es.Perm es') : jointWeight es = jointWeight es' := by
  induction h with
  | nil => rfl
  | cons e _ ih => rw [jointWeight, jointWeight, ih]
  | swap e e' es => simp only [jointWeight]; omega
  | trans _ _ ih ih' => exact ih.trans ih'

namespace RuleGroup

theorem exists_ofRules_iff {rules : List Rule} (hc : ∀ r ∈ rules, Expr.compile r.text.toList = .ok r.expr)
    (concurrent : Bool) : (∃ g, ofRules rules concurrent = .ok g) ↔
      (concurrent = true → Expr.jointWeight (rules.map (·.expr)) ≤ Expr.maxWeight) := by
  cases concurrent with
  | false => simp [ofRules]
  | true =>
    have hparse := PatternSet.mapM_parse (mapM_compile_of_rules hc)
    have hall : PatternSet.compileAll (rules.map (·.text)) =
        if Expr.maxWeight < Expr.jointWeight (rules.map (·.expr)) then .error .tooLarge
        else .ok (rules.map (·.expr)) := by
      rw [PatternSet.compileAll, hparse]; rfl
    rw [ofRules, if_pos rfl, PatternSet.ofPatterns, hall]
    by_cases hw : Expr.maxWeight < Expr.jointWeight (rules.map (·.expr))
    · rw [if_pos hw]
      simp only [forall_const, Nat.not_le.mpr hw, iff_false, not_exists]
      intro g hg
      cases hb : PatternSet.firstBad 0 (rules.map (·.text)) <;> simp [hb] at hg
    · rw [if_neg hw]
      simp [Nat.not_lt.mp hw]

/-- Whether rules compile to a group is a matter of their expressions, in any order. -/
theorem exists_ofRules_of_perm {rules rules' : List Rule} {concurrent concurrent' : Bool} {g : RuleGroup}
    (hc : ∀ r ∈ rules, Expr.compile r.text.toList = .ok r.expr)
    (hc' : ∀ r ∈ rules', Expr.compile r.text.toList = .ok r.expr)
    (h : (rules'.map (·.expr)).Perm (rules.map (·.expr))) (hg : ofRules rules concurrent = .ok g)
    (hset : concurrent' = true → concurrent = true) : ∃ g', ofRules rules' concurrent' = .ok g' := by
  rw [exists_ofRules_iff hc', Expr.jointWeight_perm h]
  exact fun hconcurrent => (exists_ofRules_iff hc concurrent).mp ⟨g, hg⟩ (hset hconcurrent)

end RuleGroup

namespace RuleMatcher

open Rule

section Rules

variable {ls ls' : List String} {rs : List Rule}

variable {path : String} {v : Verdict}

theorem exists_rules_iff : (∃ rs, rules ls = .ok rs) ↔ ∀ l ∈ ls, ∃ o, Rule.ofLine l = .ok o := by
  simp only [rules, map_eq_ok, mapM_eq_ok]
  constructor
  · rintro ⟨-, os, hos, -⟩
    exact ((List.forall₂_and_left ls os).mp (hos.imp fun l o ho => ⟨⟨o, ho⟩, ho⟩)).1
  · intro h
    choose! f hf using h
    exact ⟨_, ls.map f, List.forall₂_map_right_iff.mpr (List.forall₂_same.mpr hf), rfl⟩

theorem released_of_upright (hr : rules ls = .ok rs) (hu : ∀ l ∈ ls, Upright l.toList) {l : String} (hl : l ∈ ls) :
    ∃ r, Rule.ofLine? l = some r ∧ r.negated = false ∧ Rule.ofLine (negate l) = .ok (some r.released) := by
  obtain ⟨o, ho⟩ := exists_rules_iff.mp ⟨rs, hr⟩ l hl
  obtain ⟨r, rfl, hsign, hnegated⟩ := (hu l hl).ofLine_negate ho
  exact ⟨r, by rw [Rule.ofLine?, ho], hsign, hnegated⟩

/-- Lines that compile do so with their negations, in any order, to their rules and those that release the same. -/
theorem rules_mirrored (hr : rules ls = .ok rs) (hu : ∀ l ∈ ls, Upright l.toList)
    (h : ls'.Perm (ls ++ ls.map negate)) : ∃ rs', rules ls' = .ok rs' ∧
      rs'.Perm (rs ++ rs.map released) ∧ ∀ r ∈ rs, r.negated = false := by
  have hrs := rules_eq_filterMap hr
  obtain ⟨rs', hr'⟩ : ∃ rs', rules ls' = .ok rs' := by
    refine exists_rules_iff.mpr fun l hl => ?_
    rcases List.mem_append.mp (h.mem_iff.mp hl) with hl | hl
    · exact exists_rules_iff.mp ⟨rs, hr⟩ l hl
    · obtain ⟨l, hm, rfl⟩ := List.mem_map.mp hl
      obtain ⟨r, -, -, hnegated⟩ := released_of_upright hr hu hm
      exact ⟨_, hnegated⟩
  have hreleased : (ls.map negate).filterMap Rule.ofLine? = rs.map released := by
    rw [hrs, List.filterMap_map, List.map_filterMap]
    refine List.filterMap_congr fun l hl => ?_
    obtain ⟨r, hl, -, hnegated⟩ := released_of_upright hr hu hl
    rw [Function.comp_apply, Rule.ofLine?, hnegated, hl]; rfl
  refine ⟨rs', hr', ?_, fun r hm => ?_⟩
  · have hperm := h.filterMap Rule.ofLine?
    rwa [List.filterMap_append, hreleased, ← hrs, ← rules_eq_filterMap hr'] at hperm
  · obtain ⟨l, hl, hlr⟩ := List.mem_filterMap.mp (hrs ▸ hm)
    obtain ⟨r', hlr', hsign, -⟩ := released_of_upright hr hu hl
    obtain rfl : r' = r := Option.some.inj (hlr'.symm.trans hlr)
    exact hsign

theorem filter_released (h : ∀ r ∈ rs, r.negated = false) :
    (rs ++ rs.map released).filter (! ·.negated) = rs ∧
      (rs ++ rs.map released).filter (·.negated) = rs.map released := by
  have hreleased : ∀ r ∈ rs.map released, r.negated = true := List.forall_mem_map.mpr fun _ _ => rfl
  rw [List.filter_append, List.filter_append]
  constructor
  · rw [List.filter_eq_self.mpr (by simpa using h),
      List.filter_eq_nil_iff.mpr fun r hr => by simp [hreleased r hr], List.append_nil]
  · rw [List.filter_eq_nil_iff.mpr fun r hr => by simp [h r hr],
      List.filter_eq_self.mpr hreleased, List.nil_append]

theorem law_mirrored (hr : rules ls = .ok rs) (hu : ∀ l ∈ ls, Upright l.toList)
    (h : ls'.Perm (ls ++ ls.map negate)) (hv : Law ls' path v) : v = .unmatched := by
  cases v with
  | unmatched => rfl
  | matched d source =>
    obtain ⟨⟨l, hl, hhit⟩, hheld⟩ := hv.isMatch.mp rfl
    obtain ⟨hl', hexcludes⟩ := List.mem_filter.mp hl
    rcases List.mem_append.mp (h.mem_iff.mp hl') with hl | hl
    · obtain ⟨r, hlr, -, hnegated⟩ := released_of_upright hr hu hl
      have hlr' : Rule.ofLine? (negate l) = some r.released := by rw [Rule.ofLine?, hnegated]
      have hreleasing : negate l ∈ releasing ls' := by
        refine List.mem_filter.mpr ⟨h.mem_iff.mpr (List.mem_append_right _ (List.mem_map_of_mem hl)), ?_⟩
        rw [hlr']; rfl
      have hmiss := hheld _ hreleasing
      rw [hits, hlr'] at hmiss
      rw [hits, hlr] at hhit
      cases hhit.symm.trans hmiss
    · obtain ⟨l, hm, rfl⟩ := List.mem_map.mp hl
      obtain ⟨r, -, -, hnegated⟩ := released_of_upright hr hu hm
      rw [Rule.ofLine?, hnegated] at hexcludes
      cases hexcludes

end Rules

section Matchers

variable {files files' : Files} {o o' : GitIgnoreOptions} {m m' : RuleMatcher} {ls ls' : List String}

theorem isEmpty_lines (hl : lines files o = .ok ls) : (o.patterns.isEmpty && o.file.isNone) = ls.isEmpty := by
  rw [lines] at hl
  cases hfile : o.file with
  | none =>
    rw [hfile] at hl
    cases hl
    rw [Option.isNone_none, Bool.and_true]
  | some file =>
    rw [hfile] at hl
    obtain ⟨text, -, rfl⟩ := map_eq_ok.mp hl
    simp [splitLines]

theorem ofOptions_of_lines (hl : lines files o = .ok ls) :
    ofOptions files o = if ls.isEmpty then .error (.config none .noLines) else ofLines ls o.concurrent := by
  rw [ofOptions, isEmpty_lines hl, hl]; rfl

theorem exists_ofOptions_mirrored (h : ofOptions files o = .ok m) (hl : lines files o = .ok ls)
    (hu : ∀ l ∈ ls, Upright l.toList) (hl' : lines files' o' = .ok ls') (hp : ls'.Perm (ls ++ ls.map negate))
    (hset : o'.concurrent = true → o.concurrent = true) : ∃ m', ofOptions files' o' = .ok m' := by
  have hne : ls.isEmpty = false := by
    cases he : ls.isEmpty with
    | false => rfl
    | true => rw [ofOptions_of_lines hl, he, if_pos rfl] at h; cases h
  have hne' : ls'.isEmpty = false := by
    rw [List.isEmpty_eq_false_iff] at hne ⊢
    rintro rfl
    exact hne (List.append_eq_nil_iff.mp hp.nil_eq.symm).1
  obtain ⟨ls₀, rs, hl₀, hr, hpositive, -⟩ := ofOptions_ok h
  obtain rfl : ls₀ = ls := Except.ok.inj (hl₀.symm.trans hl)
  obtain ⟨rs', hr', hrs', hsign⟩ := rules_mirrored hr hu hp
  -- Both groups have the expressions of the given lines, in some order, and so the same joint size.
  obtain ⟨hselecting, hreleasing⟩ := filter_released hsign
  rw [List.filter_eq_self.mpr (by simpa using hsign)] at hpositive
  have hc' (p : Rule → Bool) : ∀ r ∈ rs'.filter p, Expr.compile r.text.toList = .ok r.expr :=
    fun r hm => compile_of_rules hr' r (List.mem_of_mem_filter hm)
  have hexprs : ((rs'.filter (! ·.negated)).map (·.expr)).Perm (rs.map (·.expr)) :=
    hselecting ▸ (hrs'.filter (! ·.negated)).map (·.expr)
  have hexprs' : ((rs'.filter (·.negated)).map (·.expr)).Perm (rs.map (·.expr)) := by
    have hperm := (hrs'.filter (·.negated)).map (·.expr)
    rwa [hreleasing, List.map_map] at hperm
  obtain ⟨p, hp⟩ := RuleGroup.exists_ofRules_of_perm (compile_of_rules hr) (hc' _) hexprs hpositive hset
  obtain ⟨n, hn⟩ := RuleGroup.exists_ofRules_of_perm (compile_of_rules hr) (hc' _) hexprs' hpositive hset
  refine ⟨⟨p, n⟩, ?_⟩
  rw [ofOptions_of_lines hl', hne', if_neg Bool.false_ne_true, ofLines, hr']
  simp only [bind, Except.bind, hp, hn, pure, Except.pure]

theorem eq_verdict_of_run {path : String} {s : Scope} {w : World} {v : Verdict}
    (h : ((m.evaluate path s).run w).1 = .ok v) : v = m.verdict path := by
  obtain ⟨n, hn⟩ := m.steady_evaluate path
  rw [(hn s).answers w] at h
  cases ht : w.trip s (1 + n) with
  | none => rw [ht] at h; cases h; rfl
  | some reason => rw [ht] at h; cases h

end Matchers

/-- The sign of a negation in front of a line turns its rule into one that releases what it selected. So a matcher
of upright lines and their negations, in any order, matches nothing. It compiles if the lines alone do, provided that
it is a set only if they were one. -/
theorem negations_release :
    (∀ (line : List Char) (form : Form), line.head? ≠ some ' ' → line.head? ≠ some '!' →
      Form.ofLine? line = some form →
        form.negated = false ∧ Form.ofLine? ('!' :: line) = some { form with negated := true }) ∧
    ∀ (files : Files) (o : GitIgnoreOptions) (m : RuleMatcher) (log : Log) (ls : List String),
      ((compile files o).run log).1 = .ok m → lines files o = .ok ls → (∀ l ∈ ls, Upright l.toList) →
      ∀ (files' : Files) (o' : GitIgnoreOptions) (log' : Log) (ls' : List String),
        lines files' o' = .ok ls' → ls'.Perm (ls ++ ls.map negate) →
        ((o'.concurrent = true → o.concurrent = true) → ∃ m', ((compile files' o').run log').1 = .ok m') ∧
        ∀ m', ((compile files' o').run log').1 = .ok m' → ∀ path, m'.Says path .unmatched ∧
          ∀ (s : Scope) (w : World) (v : Verdict), ((m'.evaluate path s).run w).1 = .ok v → v = .unmatched := by
  refine ⟨fun line form => ofLine?_negated, ?_⟩
  intro files o m log ls hm hl hu files' o' log' ls' hl' hp
  simp only [compile_settles _ _ _] at hm ⊢
  refine ⟨exists_ofOptions_mirrored hm hl hu hl' hp, fun m' hm' path => ?_⟩
  obtain ⟨ls₀, rs, hl₀, hr, -⟩ := ofOptions_ok hm
  obtain rfl : ls₀ = ls := Except.ok.inj (hl₀.symm.trans hl)
  obtain ⟨ls₁, hl₁, hlaw⟩ := law_verdict hm'
  obtain rfl : ls₁ = ls' := Except.ok.inj (hl₁.symm.trans hl')
  have hverdict : m'.verdict path = .unmatched := law_mirrored hr hu hp (hlaw path)
  exact ⟨hverdict ▸ m'.says_verdict path, fun s w v hv => (eq_verdict_of_run hv).trans hverdict⟩

/-- Lines with a slash in front and behind, in another order. -/
theorem negations_release_reordered :
    let o : GitIgnoreOptions := ⟨["*.rs", "/b/"], none, true⟩
    let o' : GitIgnoreOptions := ⟨["!/b/", "*.rs", "/b/", "!*.rs"], none, true⟩
    ∃ m m', ((compile .empty o).run []).1 = .ok m ∧ ((compile .empty o').run []).1 = .ok m' ∧
      m'.Says "a.rs" .unmatched ∧ m'.Says "b/c" .unmatched := by
  intro o o'
  obtain ⟨m, hm⟩ := eq_ok_of_isOk (by decide +kernel : (ofOptions .empty o).isOk = true)
  have hu : ∀ l ∈ o.patterns, Upright l.toList := by
    have hforms : ∀ l ∈ o.patterns, (Form.ofLine? l.toList).isSome ∧ l.toList.head? ≠ some ' ' ∧
      l.toList.head? ≠ some '!' := by decide +kernel
    intro l hl
    obtain ⟨hform, hspace, hsign⟩ := hforms l hl
    exact ⟨Option.isSome_iff_exists.mp hform, hspace, hsign⟩
  have h := (compile_settles .empty o []).trans hm
  have hperm : o'.patterns.Perm (o.patterns ++ o.patterns.map negate) := by decide +kernel
  obtain ⟨hok, hquiet⟩ := negations_release.2 .empty o m [] o.patterns h rfl hu .empty o' [] o'.patterns rfl hperm
  obtain ⟨m', hm'⟩ := hok fun _ => rfl
  exact ⟨m, m', h, hm', (hquiet m' hm' "a.rs").1, (hquiet m' hm' "b/c").1⟩

end RuleMatcher

end Exclusion
