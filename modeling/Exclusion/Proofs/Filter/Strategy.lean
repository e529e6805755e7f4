import Exclusion.Proofs.Expr.Joint
import Exclusion.Proofs.Expr.Spelling
import Exclusion.Proofs.Filter.Agreement

/-! # Strategies agree

A filter may try patterns in order, or as sets and in races. Both ways fail alike to be built, and agree
about each path. Only which glob is named is left to the race.
-/

namespace Exclusion

open Evaluation

section Compiling

variable {files : Files}

theorem mapM_compileOne {texts : List String} {exprs : List Expr}
    (h : texts.mapM (fun t => Expr.compile t.toList) = .ok exprs) :
    texts.mapM ExprMatcher.compileOne = .ok exprs :=
  mapM_eq_ok.mpr ((mapM_eq_ok.mp h).imp fun t e he => by rw [ExprMatcher.compileOne, he])

/-- In order, too, the first text that does not compile is to blame. -/
theorem mapM_compileOne_of_firstBad {texts : List String} {index : Nat} {b : PatternSet.Blame}
    (h : PatternSet.firstBad index texts = some b) :
    texts.mapM ExprMatcher.compileOne = .error (.compile .regex b.pattern (.expr b.fault)) := by
  induction texts generalizing index with
  | nil => cases h
  | cons t texts ih =>
    rw [PatternSet.firstBad] at h
    rw [List.mapM_cons, ExprMatcher.compileOne]
    cases he : Expr.compile t.toList with
    | error f => rw [he] at h; cases h; rfl
    | ok e => rw [he] at h; rw [ih h]; rfl

theorem regex_agree {o : RegexOptions} (h : o.literal = false → FitTogether o.patterns) :
    Outcomes (fun m m' => ∀ path, m.verdict path = m'.verdict path)
      (ExprMatcher.ofOptions { o with concurrent := false })
      (ExprMatcher.ofOptions { o with concurrent := true }) := by
  unfold ExprMatcher.ofOptions
  by_cases hempty : o.patterns.isEmpty = true
  · simp only [if_pos hempty]
    exact .error _
  · simp only [if_neg hempty]
    cases hl : o.literal with
    | true =>
      simp only [if_true]
      cases ExprMatcher.compileOne (ExprMatcher.joinLiterals o.patterns) with
      | ok e => exact .ok fun _ => rfl
      | error x => exact .error x
    | false =>
      simp only [if_true, Bool.false_eq_true, if_false]
      rcases PatternSet.ofPatterns_cases (h hl) with ⟨exprs, hc, hset⟩ | ⟨b, hb, hset⟩
      · rw [hset, mapM_compileOne hc]
        exact .ok fun _ => rfl
      · rw [hset, mapM_compileOne_of_firstBad hb]
        exact .error _

theorem compile_of_ofLine {line : String} {r : Rule} (h : Rule.ofLine line = .ok (some r)) :
    Expr.compile r.text.toList = .ok r.expr := by
  unfold Rule.ofLine at h
  split at h
  · cases h
  · split at h
    · rename_i he
      cases h
      rw [String.toList_ofList]; exact he
    · cases h

theorem compile_of_rules {lines : List String} {rules : List Rule} (h : RuleMatcher.rules lines = .ok rules) :
    ∀ r ∈ rules, Expr.compile r.text.toList = .ok r.expr := by
  obtain ⟨os, hos, rfl⟩ := map_eq_ok.mp h
  intro r hr
  have hsome : some r ∈ os := by simpa using hr
  have hall : List.Forall₂ (fun o line => (∀ r, o = some r → Expr.compile r.text.toList = .ok r.expr) ∧
      Rule.ofLine line = .ok o) os lines :=
    (List.Forall₂.flip (mapM_eq_ok.mp hos)).imp fun o line ho => ⟨fun r hr => compile_of_ofLine (hr ▸ ho), ho⟩
  exact ((List.forall₂_and_left os lines).mp hall).1 _ hsome r rfl

theorem mapM_compile_of_rules {rules : List Rule} (h : ∀ r ∈ rules, Expr.compile r.text.toList = .ok r.expr) :
    (rules.map (·.text)).mapM (fun t => Expr.compile t.toList) = .ok (rules.map (·.expr)) := by
  rw [mapM_eq_ok, List.forall₂_map_left_iff, List.forall₂_map_right_iff]
  exact List.forall₂_same.mpr h

/-- As a set, the rules of a group find the same line as one after the other. -/
theorem first?_joint (rules : List Rule) (path : String) :
    (RuleGroup.joint (rules.map (·.source)) ⟨rules.map (·.text), rules.map (·.expr)⟩).first? path =
      (RuleGroup.sequential rules).first? path := by
  simp only [RuleGroup.first?, PatternSet.find?, List.findIdx?_map, List.find?_eq_bind_findIdx?_getElem?,
    List.getElem?_map, Option.map_bind]
  rfl

theorem group_agree {rules : List Rule} (h : ∀ r ∈ rules, Expr.compile r.text.toList = .ok r.expr)
    (hfit : FitTogether (rules.map (·.text))) :
    Outcomes (fun g g' => ∀ path, g.first? path = g'.first? path) (RuleGroup.ofRules rules false)
      (RuleGroup.ofRules rules true) := by
  have hc := mapM_compile_of_rules h
  have hseq : RuleGroup.ofRules rules false = .ok (.sequential rules) := rfl
  rcases PatternSet.ofPatterns_cases hfit with ⟨exprs, hc', hset⟩ | ⟨b, hb, -⟩
  · obtain rfl : rules.map (·.expr) = exprs := Except.ok.inj (hc.symm.trans hc')
    rw [hseq, RuleGroup.ofRules, if_pos rfl, hset]
    exact .ok fun path => (first?_joint rules path).symm
  · have := (mapM_compileOne hc).symm.trans (mapM_compileOne_of_firstBad hb)
    cases this

theorem gitignore_agree {o : GitIgnoreOptions} (h : ∀ lines rules, RuleMatcher.lines files o = .ok lines →
      RuleMatcher.rules lines = .ok rules → FitTogether ((rules.filter (! ·.negated)).map (·.text)) ∧
        FitTogether ((rules.filter (·.negated)).map (·.text))) :
    Build.Agree (fun m m' => ∀ path, m.verdict path = m'.verdict path)
      (RuleMatcher.compile files { o with concurrent := false })
      (RuleMatcher.compile files { o with concurrent := true }) := by
  unfold RuleMatcher.compile
  by_cases hnone : (o.patterns.isEmpty && o.file.isNone) = true
  · simp only [if_pos hnone]
    exact Build.agree_throw _
  · simp only [if_neg hnone]
    refine (Build.agree_lift (Outcomes.self _)).bind fun lines _ ⟨hlines, hl⟩ => ?_
    subst hlines
    refine (Build.agree_lift (Outcomes.self _)).bind fun rules _ ⟨hrules, hr⟩ => ?_
    subst hrules
    obtain ⟨hpos, hneg⟩ := h lines rules hl hr
    have hc := compile_of_rules hr
    refine Build.agree_debug.bind fun _ _ _ => ?_
    refine (Build.agree_lift (group_agree (fun r hm => hc r (List.mem_of_mem_filter hm)) hpos)).bind
      fun p p' hp => ?_
    refine (Build.agree_lift (group_agree (fun r hm => hc r (List.mem_of_mem_filter hm)) hneg)).bind
      fun n n' hn => ?_
    exact Build.agree_pure fun path => by rw [RuleMatcher.verdict, RuleMatcher.verdict, hp, hn]

theorem glob_agree (o : GlobOptions) :
    Build.Agree (fun m m' => m.entries = m'.entries) (GlobMatcher.compile { o with concurrent := false })
      (GlobMatcher.compile { o with concurrent := true }) := by
  unfold GlobMatcher.compile GlobMatcher.finish
  refine (Build.agree_lift (Outcomes.self _)).bind fun entries _ ⟨he, _⟩ => ?_
  exact Build.agree_debug.bind fun _ _ _ => Build.agree_pure he

/-- The options with no strategy but to try patterns in order. -/
def FilterOptions.sequential (o : FilterOptions) : FilterOptions :=
  { o with
    regex := o.regex.map fun s => { s with concurrent := false }
    glob := o.glob.map fun s => { s with concurrent := false }
    gitignore := o.gitignore.map fun s => { s with concurrent := false }
    concurrent := false }

/-- Patterns that compile alone are not too large for the sets that a concurrent filter makes of them. -/
structure FilterOptions.Fits (files : Files) (o : FilterOptions) : Prop where
  regex : ∀ s, o.regex = some s → s.literal = false → FitTogether s.patterns
  gitignore : ∀ s, o.gitignore = some s → ∀ lines rules, RuleMatcher.lines files s = .ok lines →
    RuleMatcher.rules lines = .ok rules → FitTogether ((rules.filter (! ·.negated)).map (·.text)) ∧
      FitTogether ((rules.filter (·.negated)).map (·.text))

theorem rel_map {σ : Type} {R : Pending → Pending → Prop} {x : Option σ} {f g : σ → σ} {p q : σ → Pending}
    (h : ∀ s, x = some s → R (p (f s)) (q (g s))) : Option.Rel R ((x.map f).map p) ((x.map g).map q) := by
  cases x with
  | none => exact .none
  | some s => exact .some (h s rfl)

theorem section?_agree {o : FilterOptions} (h : o.Fits files) (d : Dialect) :
    Option.Rel (fun p p' => Build.Agree Matcher.Agree (p.compile files) (p'.compile files))
      (o.sequential.section? d) (({ o.sequential with concurrent := true } : FilterOptions).section? d) := by
  cases d with
  | unknown => exact .none
  | regex =>
    refine rel_map fun s hs => Build.Agree.bind ?_ fun m m' hm => Build.agree_pure hm
    exact (Build.agree_lift (regex_agree (h.regex s hs))).bind fun m m' hm =>
      Build.agree_debug.bind fun _ _ _ => Build.agree_pure hm
  | glob => exact rel_map fun s _ => (glob_agree s).bind fun m m' hm => Build.agree_pure hm
  | gitignore =>
    exact rel_map fun s hs => (gitignore_agree (h.gitignore s hs)).bind fun m m' hm => Build.agree_pure hm

theorem isSome_of_rel {α β : Type} {R : α → β → Prop} {a : Option α} {b : Option β} (h : Option.Rel R a b) :
    a.isSome = b.isSome := by
  cases h with
  | some _ => rfl
  | none => rfl

theorem unordered_agree {o : FilterOptions} (h : o.Fits files) (order : List Dialect) :
    o.sequential.unordered order =
      ({ o.sequential with concurrent := true } : FilterOptions).unordered order := by
  unfold FilterOptions.unordered
  refine List.filter_congr fun d _ => ?_
  rw [isSome_of_rel (section?_agree h d)]

theorem ofMatchers_agree {ms ms' : List Matcher} {timeout : Option Duration}
    (h : List.Forall₂ Matcher.Agree ms ms') :
    Build.Agree (fun f f' =>
        List.Forall₂ Matcher.Agree f.matchers f'.matchers ∧ f'.matchers ≠ [] ∧ f.timeout = f'.timeout)
      (Filter.ofMatchers ms timeout) (Filter.ofMatchers ms' timeout) := by
  unfold Filter.ofMatchers
  cases h with
  | nil => exact Build.agree_throw _
  | cons hm hms => exact Build.agree_debug.bind fun _ _ _ => Build.agree_pure ⟨.cons hm hms, nofun, rfl⟩

theorem ofOptions_agree {o : FilterOptions} (h : o.Fits files) :
    Build.Agree (fun f f' =>
        List.Forall₂ Matcher.Agree f.matchers f'.matchers ∧ f'.matchers ≠ [] ∧ f.timeout = f'.timeout)
      (Filter.ofOptions files o.sequential)
      (Filter.ofOptions files { o.sequential with concurrent := true }) := by
  unfold Filter.ofOptions
  refine (Build.agree_lift (Outcomes.self _)).bind fun order _ ⟨horder, _⟩ => ?_
  subst horder
  rw [← unordered_agree h order]
  by_cases hmissing : (o.sequential.unordered order).isEmpty = true
  · simp only [if_pos hmissing]
    unfold Filter.ofPending
    refine (Build.agree_mapM ?_ fun _ _ hp => hp).bind fun ms ms' hms => ofMatchers_agree hms
    refine List.rel_filterMap (R := Eq) (fun d d' hd => ?_) (List.forall₂_refl order)
    subst hd
    exact section?_agree h d
  · simp only [if_neg hmissing]
    exact Build.agree_throw _

end Compiling

/-- The strategies fail alike to be built, for patterns that are not too large together. When they are built
they have the same time, and for each path, in worlds that keep the state of their scopes, they fail alike
or agree, and a glob that the concurrent one names matches the path. -/
theorem Filter.strategies_agree {files : Files} {o : FilterOptions} (h : o.Fits files) (log log' : Log) :
    Outcomes
      (fun f f' => f.timeout = f'.timeout ∧ ∀ (path : String) (caller : Scope) (w w' : World),
        (f.entry w caller).Keeps (f.scope w caller) → (f'.entry w' caller).Keeps (f'.scope w' caller) →
        (f.entry w caller).liveness.reason (f.scope w caller) =
          (f'.entry w' caller).liveness.reason (f'.scope w' caller) →
        Outcomes (fun v v' => v.Agree v' ∧ NamesGlob path v' f'.matchers)
          ((f.evaluate path caller).run w).1 ((f'.evaluate path caller).run w').1)
      ((Filter.ofOptions files o.sequential).run log).1
      ((Filter.ofOptions files { o.sequential with concurrent := true }).run log').1 := by
  refine (ofOptions_agree h log log').mono fun f f' ⟨hms, hne, htime⟩ => ⟨htime, ?_⟩
  intro path caller w w' hw hw' hstate
  exact evaluate_agree hms hne hw hw' hstate

/-- One section of each dialect, in a world in which nothing happens. -/
theorem Filter.strategies_agree_in_calm :
    let o : FilterOptions := ⟨some ⟨["a", "b"], false, false⟩, some ⟨["*.rs", "?.rs"], [], false⟩,
      some ⟨["# c"], none, false⟩, none, false, none⟩
    let caller : Scope := ⟨⟨0, some 9⟩, []⟩
    let w : World := .calm ⟨5, [], 1⟩
    Outcomes
      (fun f f' => Outcomes (fun v v' => v.Agree v' ∧ NamesGlob "c.rs" v' f'.matchers)
        ((f.evaluate "c.rs" caller).run w).1 ((f'.evaluate "c.rs" caller).run w).1)
      ((Filter.ofOptions .empty o.sequential).run []).1
      ((Filter.ofOptions .empty { o.sequential with concurrent := true }).run []).1 := by
  intro o caller w
  have hparse {c : Char} (hc : c ∉ Expr.Spells.starters) : Expr.parse [c] = .ok (.char c) :=
    (Expr.Spells.char hc).parse (d := 0) (by simp [Expr.Item.char, Expr.Item.set, Expr.Item.leaf]) (by decide)
  have htexts : ["a", "b"].mapM (fun t => Expr.parse t.toList) = .ok [.char 'a', .char 'b'] := by
    have ha : Expr.parse "a".toList = .ok (.char 'a') := hparse (by decide)
    have hb : Expr.parse "b".toList = .ok (.char 'b') := hparse (by decide)
    rw [List.mapM_cons, List.mapM_cons, ha, hb]; rfl
  have hregex : FitTogether ["a", "b"] := by
    intro exprs h
    cases htexts.symm.trans (PatternSet.mapM_parse h)
    decide
  have hfits : o.Fits .empty := by
    constructor
    · rintro s ⟨⟩ -; exact hregex
    · rintro s ⟨⟩ lines rules ⟨⟩ h
      have : RuleMatcher.rules ["# c"] = .ok [] := by rfl
      cases this.symm.trans h
      have hnil : FitTogether [] := by rintro exprs ⟨⟩; decide
      exact ⟨hnil, hnil⟩
  have hknows : w.liveness.Knows caller := by unfold Liveness.Knows; decide
  have hkeeps (f : Filter) : (f.entry w caller).Keeps (f.scope w caller) :=
    World.calm_keeps nofun (knows_entry hknows)
  refine (strategies_agree hfits [] []).mono fun f f' ⟨htime, h⟩ => ?_
  refine h "c.rs" caller w w (hkeeps f) (hkeeps f') ?_
  rw [entry, entry, scope, scope, htime]

end Exclusion
