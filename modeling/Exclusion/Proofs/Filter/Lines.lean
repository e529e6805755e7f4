import Exclusion.Proofs.Filter.Compilation
import Exclusion.Proofs.Filter.Strategy
import Exclusion.Proofs.Rule.Line

/-! # The law of rule lines

A list of lines excludes a path if a line that excludes matches it and no line that releases does, wherever
they stand, and names the first such line. So the order of the lines that release, and where they stand
among the others, makes no difference, nor do blank lines and comments.
-/

namespace Exclusion

namespace RuleGroup

theorem first?_of_ofRules {rules : List Rule} {concurrent : Bool} {g : RuleGroup}
    (hc : ∀ r ∈ rules, Expr.compile r.text.toList = .ok r.expr) (h : ofRules rules concurrent = .ok g)
    (path : String) : g.first? path = (rules.find? (·.matchesPath path)).map (·.source) := by
  unfold ofRules at h
  split at h
  · split at h
    · rename_i set hset
      cases h
      obtain ⟨exprs, he, rfl⟩ := PatternSet.ofPatterns_eq_ok hset
      have hparse := PatternSet.mapM_parse (mapM_compile_of_rules hc)
      obtain rfl : exprs = rules.map (·.expr) := Except.ok.inj (he.symm.trans hparse)
      exact first?_joint rules path
    · cases h
  · cases h; rfl

end RuleGroup

namespace RuleMatcher

def excluding (lines : List String) : List String :=
  lines.filter fun line => (Rule.ofLine? line).any (! ·.negated)

def releasing (lines : List String) : List String :=
  lines.filter fun line => (Rule.ofLine? line).any (·.negated)

def hits (path line : String) : Bool := (Rule.ofLine? line).any (·.matchesPath path)

/-- A match exactly if a line excludes the path and none releases it, and then with the first that excludes
it as its source. -/
structure Law (lines : List String) (path : String) (v : Verdict) : Prop where
  isMatch : v.isMatch = true ↔
    (∃ line ∈ excluding lines, hits path line = true) ∧ ∀ line ∈ releasing lines, hits path line = false
  source : v.isMatch = true →
    v.dialect = .gitignore ∧ (excluding lines).find? (hits path) = some v.source

/-- Whenever its scope is live at each of its checks, an evaluation comes to this verdict. -/
def Says (m : RuleMatcher) (path : String) (v : Verdict) : Prop :=
  ∃ checks, ∀ (w : World) (s : Scope), (∀ k < checks, (w.settles (k + 1)).liveness.live s = true) →
    ((m.evaluate path s).run w).1 = .ok v

section Lines

variable {lines : List String} {rs : List Rule}

theorem rules_eq_filterMap (h : rules lines = .ok rs) : rs = lines.filterMap Rule.ofLine? := by
  obtain ⟨os, hos, rfl⟩ := map_eq_ok.mp h
  have hmap : os = lines.map Rule.ofLine? :=
    List.forall₂_eq_eq_eq ▸ List.forall₂_map_right_iff.mpr
      ((mapM_eq_ok.mp hos).flip.imp fun o line ho => by rw [Rule.ofLine?, ho])
  rw [hmap, List.filterMap_map]; rfl

theorem find?_filterMap_ofLine? (p q : Rule → Bool) (lines : List String) :
    (((lines.filterMap Rule.ofLine?).filter p).find? q).map (·.source) =
      (lines.filter fun line => (Rule.ofLine? line).any p).find? fun line => (Rule.ofLine? line).any q := by
  have hboth : (fun line => (Rule.ofLine? line).any fun r => p r && q r) =
      fun line => (Rule.ofLine? line).any p && (Rule.ofLine? line).any q := by
    funext line
    cases Rule.ofLine? line <;> rfl
  simp only [List.find?_filter, List.find?_filterMap, Bool.decide_and, Bool.decide_eq_true, hboth]
  cases hl : lines.find? fun line => (Rule.ofLine? line).any p && (Rule.ofLine? line).any q with
  | none => rfl
  | some line =>
    have hany := List.find?_some hl
    cases hr : Rule.ofLine? line with
    | none => simp [hr] at hany
    | some r => simp [hr, Rule.source_of_ofLine? hr]

end Lines

theorem ofOptions_ok {files : Files} {o : GitIgnoreOptions} {m : RuleMatcher}
    (h : ofOptions files o = .ok m) : ∃ ls rs, lines files o = .ok ls ∧ rules ls = .ok rs ∧
      RuleGroup.ofRules (rs.filter (! ·.negated)) o.concurrent = .ok m.positive ∧
      RuleGroup.ofRules (rs.filter (·.negated)) o.concurrent = .ok m.negative := by
  unfold ofOptions at h
  split at h
  · cases h
  · obtain ⟨ls, hl, h⟩ := bind_eq_ok.mp h
    obtain ⟨rs, hr, h⟩ := bind_eq_ok.mp h
    obtain ⟨p, hp, h⟩ := bind_eq_ok.mp h
    obtain ⟨n, hn, h⟩ := bind_eq_ok.mp h
    cases h
    exact ⟨ls, rs, hl, hr, hp, hn⟩

theorem lines_eq_append {files : Files} {o : GitIgnoreOptions} {ls : List String}
    (h : lines files o = .ok ls) : ∃ rest, ls = o.patterns ++ rest := by
  unfold lines at h
  split at h
  · cases h; exact ⟨[], (List.append_nil _).symm⟩
  · obtain ⟨text, -, rfl⟩ := map_eq_ok.mp h
    exact ⟨_, rfl⟩

section Verdicts

variable {ls ls' : List String} {path : String} {v v' : Verdict}

/-- The law leaves no choice. -/
theorem Law.unique (h : Law ls path v) (h' : Law ls path v') : v = v' := by
  have hmatch : v.isMatch = v'.isMatch := Bool.eq_iff_iff.mpr (h.isMatch.trans h'.isMatch.symm)
  cases v with
  | unmatched =>
    cases v' with
    | unmatched => rfl
    | matched d' source' => cases hmatch
  | matched d source =>
    cases v' with
    | unmatched => cases hmatch
    | matched d' source' =>
      obtain ⟨hd, hs⟩ := h.source rfl
      obtain ⟨hd', hs'⟩ := h'.source rfl
      obtain rfl : d = d' := hd.trans hd'.symm
      obtain rfl : source = source' := Option.some.inj (hs.symm.trans hs')
      rfl

theorem Law.congr (h : Law ls path v) (he : excluding ls' = excluding ls)
    (hr : ∀ line, line ∈ releasing ls' ↔ line ∈ releasing ls) : Law ls' path v := by
  refine ⟨?_, he ▸ h.source⟩
  simp only [he, hr]
  exact h.isMatch

theorem law_find? (ls : List String) (path : String) : Law ls path
    (match (excluding ls).find? (hits path), (releasing ls).find? (hits path) with
      | some line, none => .matched .gitignore line
      | _, _ => .unmatched) := by
  cases he : (excluding ls).find? (hits path) with
  | none =>
    have hmiss : ¬ ∃ line ∈ excluding ls, hits path line = true := by simpa using he
    exact ⟨⟨nofun, fun h => absurd h.1 hmiss⟩, nofun⟩
  | some line =>
    have hhit : ∃ line ∈ excluding ls, hits path line = true :=
      ⟨line, List.mem_of_find?_eq_some he, List.find?_some he⟩
    cases hr : (releasing ls).find? (hits path) with
    | none => exact ⟨⟨fun _ => ⟨hhit, by simpa using hr⟩, fun _ => rfl⟩, fun _ => ⟨rfl, he⟩⟩
    | some line' =>
      have hheld : ¬ ∀ line ∈ releasing ls, hits path line = false := fun h => by
        have hline := h line' (List.mem_of_find?_eq_some hr)
        rw [List.find?_some hr] at hline
        cases hline
      exact ⟨⟨nofun, fun h => absurd h.2 hheld⟩, nofun⟩

theorem says_verdict (m : RuleMatcher) (path : String) : m.Says path (m.verdict path) := by
  obtain ⟨n, hn⟩ := m.steady_evaluate path
  refine ⟨1 + n, fun w s hlive => ?_⟩
  rw [(hn s).answers w, World.trip_eq_none.mpr hlive]; rfl

end Verdicts

/-- What a matcher says is the law of its lines. -/
theorem law_verdict {files : Files} {o : GitIgnoreOptions} {m : RuleMatcher} (h : ofOptions files o = .ok m) :
    ∃ ls, lines files o = .ok ls ∧ ∀ path, Law ls path (m.verdict path) := by
  obtain ⟨ls, rs, hl, hr, hp, hn⟩ := ofOptions_ok h
  have hc := compile_of_rules hr
  have hfind (p : Rule → Bool) {g} (hg : RuleGroup.ofRules (rs.filter p) o.concurrent = .ok g) (path : String) :
      g.first? path = (ls.filter fun line => (Rule.ofLine? line).any p).find? (hits path) := by
    rw [RuleGroup.first?_of_ofRules (fun r hm => hc r (List.mem_of_mem_filter hm)) hg,
      rules_eq_filterMap hr]
    exact find?_filterMap_ofLine? p _ ls
  refine ⟨ls, hl, fun path => ?_⟩
  rw [verdict, hfind _ hp, hfind _ hn]
  exact law_find? ls path

/-- In either strategy, the matcher of some lines says about each path what the law of these lines is, and
so does any other matcher of lines of which the same exclude, in the same order, and the same release. -/
theorem says_law {files : Files} {o : GitIgnoreOptions} {m : RuleMatcher} {log : Log}
    (h : ((compile files o).run log).1 = .ok m) :
    ∃ rest, lines files o = .ok (o.patterns ++ rest) ∧
      ∀ path, ∃ v, m.Says path v ∧ Law (o.patterns ++ rest) path v ∧
        ∀ (files' : Files) (o' : GitIgnoreOptions) (m' : RuleMatcher) (log' : Log) (ls' : List String),
          ((compile files' o').run log').1 = .ok m' → lines files' o' = .ok ls' →
          excluding ls' = excluding (o.patterns ++ rest) →
          (∀ line, line ∈ releasing ls' ↔ line ∈ releasing (o.patterns ++ rest)) → m'.Says path v := by
  obtain ⟨ls, hl, hlaw⟩ := law_verdict ((compile_settles files o log).symm.trans h)
  obtain ⟨rest, rfl⟩ := lines_eq_append hl
  refine ⟨rest, hl, fun path => ⟨m.verdict path, m.says_verdict path, hlaw path, ?_⟩⟩
  intro files' o' m' log' ls' h' hl' he hr
  obtain ⟨ls'', hl'', hlaw'⟩ := law_verdict ((compile_settles files' o' log').symm.trans h')
  obtain rfl : ls'' = ls' := Except.ok.inj (hl''.symm.trans hl')
  rw [((hlaw path).congr he hr).unique (hlaw' path)]
  exact m'.says_verdict path

/-- A line that releases does so wherever it stands, and however often. -/
theorem says_law_reordered :
    let o : GitIgnoreOptions := ⟨["*.rs", "!b.rs", "a.rs"], none, false⟩
    let o' : GitIgnoreOptions := ⟨["!b.rs", "# c", "*.rs", "", "!b.rs", "a.rs"], none, true⟩
    ∃ m m', ((compile .empty o).run []).1 = .ok m ∧ ((compile .empty o').run []).1 = .ok m' ∧
      (m.Says "a.rs" (.matched .gitignore "*.rs") ∧ m'.Says "a.rs" (.matched .gitignore "*.rs")) ∧
      m.Says "b.rs" .unmatched ∧ m'.Says "b.rs" .unmatched := by
  intro o o'
  obtain ⟨m, hm⟩ := eq_ok_of_isOk (by decide +kernel : (ofOptions .empty o).isOk = true)
  obtain ⟨m', hm'⟩ := eq_ok_of_isOk (by decide +kernel : (ofOptions .empty o').isOk = true)
  have h := (compile_settles .empty o []).trans hm
  have h' := (compile_settles .empty o' []).trans hm'
  refine ⟨m, m', h, h', ?_⟩
  obtain ⟨rest, hl, hsays⟩ := says_law h
  have hrest : rest = [] := List.append_cancel_left ((Except.ok.inj hl).symm.trans (List.append_nil _).symm)
  subst hrest
  rw [List.append_nil] at hsays
  have he : excluding o'.patterns = excluding o.patterns := by decide +kernel
  have hr : ∀ line, line ∈ releasing o'.patterns ↔ line ∈ releasing o.patterns := by
    have : releasing o'.patterns = ["!b.rs", "!b.rs"] ∧ releasing o.patterns = ["!b.rs"] := by decide +kernel
    simp [this]
  have hboth (path : String) {u : Verdict} (hu : Law o.patterns path u) : m.Says path u ∧ m'.Says path u := by
    obtain ⟨v, hv, hlaw, hother⟩ := hsays path
    obtain rfl := hlaw.unique hu
    exact ⟨hv, hother .empty o' m' [] o'.patterns h' rfl he hr⟩
  refine ⟨hboth _ ⟨?_, ?_⟩, hboth _ ⟨?_, ?_⟩⟩
  all_goals decide +kernel

end RuleMatcher

end Exclusion
