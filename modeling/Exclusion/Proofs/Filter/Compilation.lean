import Exclusion.Filter
import Exclusion.Proofs.Evaluation.Building

/-! # What matchers compile to

Each matcher comes to an outcome that depends on its options alone. When it fails, a pattern, the
configuration or a file is to blame, and never a scope.
-/

namespace Exclusion

open Build

namespace ExprMatcher

theorem compile_settles (o : RegexOptions) : (compile o).Settles (ofOptions o) := by
  unfold compile
  cases ofOptions o with
  | ok m => exact (settles_lift _).bind_ok ((settles_debug _ _).bind_ok (settles_pure m))
  | error x => exact (settles_lift _).bind_error

theorem compileOne_error {pattern : String} {x : Failure} (h : compileOne pattern = .error x) :
    ∃ f, x = .compile .regex pattern (.expr f) := by
  unfold compileOne at h
  split at h
  · cases h
  · cases h; exact ⟨_, rfl⟩

theorem not_cancelled {o : RegexOptions} {x : Failure} (h : ofOptions o = .error x) : x.isCancelled = false := by
  unfold ofOptions at h
  split at h
  · cases h; rfl
  · split at h
    · obtain ⟨f, rfl⟩ := compileOne_error (map_eq_error.mp h); rfl
    · split at h
      · split at h
        · cases h
        · cases h; rfl
      · obtain ⟨-, p, -, -, -, hp⟩ := mapM_eq_error.mp (map_eq_error.mp h)
        obtain ⟨f, rfl⟩ := compileOne_error hp; rfl

end ExprMatcher

namespace GlobEntry

variable {source : String} {glob : List Char}

/-- The glob can be read, but not be compiled. -/
def Aborts (source : String) (glob : List Char) : Prop :=
  source ≠ "" ∧ ∃ ts, Glob.read glob = .ok ts ∧ (Glob.wholeBulk ts).fits = false

theorem source_of_compile {g : GlobEntry} (h : compile source glob = .ok g) : g.source = source ∧ source ≠ "" := by
  unfold compile at h
  split at h
  · cases h
  · rename_i hne
    split at h
    · cases h
    · split at h <;> cases h
      exact ⟨rfl, by simpa using hne⟩

theorem compile_eq_aborted : compile source glob = .error (.aborted source) ↔ Aborts source glob := by
  unfold compile Aborts
  by_cases hsource : source = ""
  · simp [hsource]
  · rw [if_neg (by simpa using hsource)]
    cases hread : Glob.read glob with
    | error f => simp
    | ok ts => cases hfits : (Glob.wholeBulk ts).fits <;> simp [Glob.compile?, hfits, hsource]

theorem failure_of_compile {x : Failure} (h : compile source glob = .error x) :
    (∃ f, x = .compile .glob source (.glob f)) ∨ x = .aborted source := by
  unfold compile at h
  split at h
  · cases h; exact .inl ⟨_, rfl⟩
  · split at h
    · cases h; exact .inl ⟨_, rfl⟩
    · split at h <;> cases h
      exact .inr rfl

end GlobEntry

namespace GlobMatcher

def ofOptions (o : GlobOptions) : Except Failure GlobMatcher :=
  (o.texts.mapM fun (source, glob) => GlobEntry.compile source glob).map (⟨·, o.concurrent⟩)

theorem compile_settles (o : GlobOptions) : (compile o).Settles (ofOptions o) := by
  unfold compile ofOptions
  exact settles_report fun entries => (settles_debug _ _).bind_ok (settles_pure _)

def entry? (t : String × List Char) : Option GlobEntry := (GlobEntry.compile t.1 t.2).toOption

theorem entry?_eq_some {t : String × List Char} {g : GlobEntry} :
    entry? t = some g ↔ GlobEntry.compile t.1 t.2 = .ok g := by
  unfold entry?
  cases GlobEntry.compile t.1 t.2 <;> simp [Except.toOption]

def skipped (x : Failure) : Event :=
  ⟨.warn, "skipping invalid glob pattern '" ++ x.pattern?.getD "" ++ "': " ++ x.message, []⟩

def finished (m : GlobMatcher) : Event :=
  ⟨.debug, "compiled glob matcher", [("globs", .number m.length), ("concurrent", .flag m.concurrent)]⟩

theorem run_skipped (x : Failure) (log : Log) : (warn (skipped x).message).run log = (.ok (), log ++ [skipped x]) :=
  rfl

theorem compileEach_kept {source : String} {glob : List Char} {g : GlobEntry} {rest : List (String × List Char)}
    (h : GlobEntry.compile source glob = .ok g) : compileEach ((source, glob) :: rest) = do
      let (entries, failures) ← compileEach rest
      return (g :: entries, failures) := by
  rw [compileEach, h]

theorem compileEach_refused {source : String} {glob : List Char} {f : Glob.Fault} {rest : List (String × List Char)}
    (h : GlobEntry.compile source glob = .error (.compile .glob source (.glob f))) :
    compileEach ((source, glob) :: rest) = do
      warn (skipped (.compile .glob source (.glob f))).message
      let (entries, failures) ← compileEach rest
      return (entries, .compile .glob source (.glob f) :: failures) := by
  rw [compileEach, h]; rfl

theorem compileEach_aborted {source : String} {glob : List Char} {rest : List (String × List Char)}
    (h : GlobEntry.compile source glob = .error (.aborted source)) :
    compileEach ((source, glob) :: rest) = throw (.aborted source) := by
  rw [compileEach, h]

theorem not_cancelled {o : GlobOptions} {x : Failure} (h : ofOptions o = .error x) : x.isCancelled = false := by
  obtain ⟨-, ⟨source, glob⟩, -, -, -, hg⟩ := mapM_eq_error.mp (map_eq_error.mp h)
  rcases GlobEntry.failure_of_compile hg with ⟨f, rfl⟩ | rfl <;> rfl

end GlobMatcher

namespace RuleGroup

theorem ofRules_error {rules : List Rule} {concurrent : Bool} {x : Failure}
    (h : ofRules rules concurrent = .error x) : ∃ line f, x = .compile .gitignore line (.expr f) := by
  unfold ofRules at h
  split at h
  · split at h
    · cases h
    · cases h; exact ⟨_, _, rfl⟩
  · cases h

end RuleGroup

namespace RuleMatcher

def ofLines (lines : List String) (concurrent : Bool) : Except Failure RuleMatcher := do
  let rules ← rules lines
  let positive ← RuleGroup.ofRules (rules.filter (! ·.negated)) concurrent
  let negative ← RuleGroup.ofRules (rules.filter (·.negated)) concurrent
  return ⟨positive, negative⟩

def ofOptions (files : Files) (o : GitIgnoreOptions) : Except Failure RuleMatcher :=
  if o.patterns.isEmpty && o.file.isNone then .error (.config none .noLines)
  else do ofLines (← lines files o) o.concurrent

theorem compile_settles (files : Files) (o : GitIgnoreOptions) :
    (compile files o).Settles (ofOptions files o) := by
  unfold compile ofOptions
  split
  · exact settles_throw _
  · refine (settles_lift _).bind fun ls => (settles_lift _).bind fun rules => ?_
    refine (settles_debug _ _).bind_ok ?_
    refine (settles_lift _).bind fun positive => (settles_lift _).bind fun negative => ?_
    exact settles_pure _

theorem ofLine_error {line : String} {x : Failure} (h : Rule.ofLine line = .error x) :
    ∃ f, x = .compile .gitignore line (.expr f) := by
  unfold Rule.ofLine at h
  split at h
  · cases h
  · split at h
    · cases h
    · cases h; exact ⟨_, rfl⟩

theorem rules_error {lines : List String} {x : Failure} (h : rules lines = .error x) :
    ∃ before line after, lines = before ++ line :: after ∧ (∀ l ∈ before, ∃ r, Rule.ofLine l = .ok r) ∧
      Rule.ofLine line = .error x :=
  mapM_eq_error.mp (map_eq_error.mp h)

theorem lines_error {files : Files} {o : GitIgnoreOptions} {x : Failure} (h : lines files o = .error x) :
    ∃ path f, x = .file path f := by
  unfold lines at h
  split at h
  · cases h
  · have hr := map_eq_error.mp h
    unfold Files.readText at hr
    split at hr
    · cases hr; exact ⟨_, _, rfl⟩
    · split at hr
      · cases hr
      · cases hr; exact ⟨_, _, rfl⟩

/-- Without a source of lines the configuration is to blame, else a file, a line, or a group of rules. -/
theorem ofOptions_error {files : Files} {o : GitIgnoreOptions} {x : Failure} (h : ofOptions files o = .error x) :
    x = .config none .noLines ∨ (∃ path f, x = .file path f) ∨ ∃ ls, lines files o = .ok ls ∧
      (rules ls = .error x ∨ ∃ rs, rules ls = .ok rs ∧
        (RuleGroup.ofRules (rs.filter (! ·.negated)) o.concurrent = .error x ∨
          RuleGroup.ofRules (rs.filter (·.negated)) o.concurrent = .error x)) := by
  unfold ofOptions at h
  split at h
  · cases h; exact .inl rfl
  · rcases bind_eq_error.mp h with hl | ⟨ls, hl, h⟩
    · exact .inr (.inl (lines_error hl))
    · refine .inr (.inr ⟨ls, hl, ?_⟩)
      rcases bind_eq_error.mp h with hr | ⟨rs, hr, h⟩
      · exact .inl hr
      · refine .inr ⟨rs, hr, ?_⟩
        rcases bind_eq_error.mp h with hp | ⟨p, -, h⟩
        · exact .inl hp
        · rcases bind_eq_error.mp h with hn | ⟨n, -, h⟩
          · exact .inr hn
          · cases h

theorem not_cancelled {files : Files} {o : GitIgnoreOptions} {x : Failure}
    (h : ofOptions files o = .error x) : x.isCancelled = false := by
  rcases ofOptions_error h with rfl | ⟨path, f, rfl⟩ | ⟨ls, -, hr | ⟨rs, -, hg⟩⟩
  · rfl
  · rfl
  · obtain ⟨-, line, -, -, -, hl⟩ := rules_error hr
    obtain ⟨f, rfl⟩ := ofLine_error hl; rfl
  · obtain ⟨line, f, rfl⟩ := hg.elim RuleGroup.ofRules_error RuleGroup.ofRules_error; rfl

end RuleMatcher

end Exclusion
