import Exclusion.Evaluation
import Exclusion.Files
import Exclusion.PatternSet
import Exclusion.Rule.Basic
import Exclusion.Verdict

/-! # Matching by rule lines

The rules of a list of lines fall into those that exclude and those that release. A path is excluded
when a rule excludes it and none releases it, wherever they stand. Each group is tried in order, or
as one set.
-/

namespace Exclusion

structure GitIgnoreOptions where
  patterns : List String
  /-- A file whose lines follow the patterns. -/
  file : Option String
  concurrent : Bool
  deriving DecidableEq, Repr

inductive RuleGroup where
  | sequential (rules : List Rule)
  /-- The lines behind the patterns of the set, in its order. -/
  | joint (sources : List String) (set : PatternSet)
  deriving Repr

namespace RuleGroup

def ofRules (rules : List Rule) (concurrent : Bool) : Except Failure RuleGroup :=
  if concurrent then
    match PatternSet.ofPatterns (rules.map (·.text)) with
    | .ok set => .ok (.joint (rules.map (·.source)) set)
    | .error b =>
      .error (.compile .gitignore ((rules[b.index]?.map (·.source)).getD b.pattern) (.expr b.fault))
  else .ok (.sequential rules)

def length : RuleGroup → Nat
  | sequential rules => rules.length
  | joint sources _ => sources.length

def find (g : RuleGroup) (path : String) (s : Scope) : Evaluation (Option String) :=
  match g with
  | sequential rules => do
    let found ← Evaluation.scan (·.matchesPath path) s 0 rules
    return (found.bind fun i => rules[i]?).map (·.source)
  | joint sources set => do
    Evaluation.check s
    return (set.find? path).bind fun i => sources[i]?

end RuleGroup

structure RuleMatcher where
  positive : RuleGroup
  negative : RuleGroup
  deriving Repr

namespace RuleMatcher

/-- The pieces of a text between line breaks, the last one included. -/
def splitLines (text : String) : List String :=
  let (last, lines) := text.toList.foldr
    (fun c (current, done) => if c == '\n' then ([], String.ofList current :: done) else (c :: current, done))
    ([], [])
  String.ofList last :: lines

def lines (files : Files) (o : GitIgnoreOptions) : Except Failure (List String) :=
  match o.file with
  | none => .ok o.patterns
  | some file => (files.readText file).map fun text => o.patterns ++ splitLines text

def rules (lines : List String) : Except Failure (List Rule) :=
  (lines.mapM Rule.ofLine).map fun rs => rs.filterMap id

def compile (files : Files) (o : GitIgnoreOptions) : Build RuleMatcher := do
  if o.patterns.isEmpty && o.file.isNone then throw (.config none .noLines)
  else
    let lines ← liftExcept (lines files o)
    let rules ← liftExcept (rules lines)
    let positive := rules.filter (! ·.negated)
    let negative := rules.filter (·.negated)
    Build.debug "compiled gitignore matcher"
      [("lines", .number lines.length), ("positive", .number positive.length),
        ("negative", .number negative.length), ("concurrent", .flag o.concurrent)]
    let positive ← liftExcept (RuleGroup.ofRules positive o.concurrent)
    let negative ← liftExcept (RuleGroup.ofRules negative o.concurrent)
    return ⟨positive, negative⟩

def counts (m : RuleMatcher) : Nat × Nat := (m.positive.length, m.negative.length)

def evaluate (m : RuleMatcher) (path : String) (s : Scope) : Evaluation Verdict := do
  Evaluation.check s
  match ← m.positive.find path s with
  | none => return .unmatched
  | some rule =>
    match ← m.negative.find path s with
    | some negation => do
      Evaluation.trace "gitignore un-ignore" [("path", path), ("rule", rule), ("negation", negation)]
      return .unmatched
    | none => do
      Evaluation.trace "gitignore match" [("path", path), ("rule", rule)]
      return .matched .gitignore rule

end RuleMatcher

end Exclusion
