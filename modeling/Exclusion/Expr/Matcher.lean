import Exclusion.Evaluation
import Exclusion.PatternSet
import Exclusion.Verdict

/-! # Matching by expressions

A path is excluded when some part of it matches one of the expressions. The expressions are tried in
order, or as one set. In literal mode they are texts, joined into one expression. The verdict names
the path, since it does not matter which expression matches.
-/

namespace Exclusion

structure RegexOptions where
  patterns : List String
  literal : Bool
  concurrent : Bool
  deriving DecidableEq, Repr

inductive ExprMatcher where
  | sequential (exprs : List Expr)
  | joint (set : PatternSet)
  deriving Repr

namespace ExprMatcher

def compileOne (pattern : String) : Except Failure Expr :=
  match Expr.compile pattern.toList with
  | .ok e => .ok e
  | .error f => .error (.compile .regex pattern (.expr f))

def joinLiterals (texts : List String) : String :=
  String.ofList (['|'].intercalate (texts.map fun t => Expr.quote t.toList))

def ofOptions (o : RegexOptions) : Except Failure ExprMatcher :=
  if o.patterns.isEmpty then .error (.config none .noExpressions)
  else if o.literal then
    (compileOne (joinLiterals o.patterns)).map fun e => sequential [e]
  else if o.concurrent then
    match PatternSet.ofPatterns o.patterns with
    | .ok s => .ok (.joint s)
    | .error b => .error (.compile .regex b.pattern (.expr b.fault))
  else (o.patterns.mapM compileOne).map sequential

def isSet : ExprMatcher → Bool
  | sequential _ => false
  | joint _ => true

def compile (o : RegexOptions) : Build ExprMatcher := do
  let m ← liftExcept (ofOptions o)
  Build.debug "compiled regex matcher"
    [("patterns", .number o.patterns.length), ("literal", .flag o.literal), ("set", .flag m.isSet)]
  return m

def hits (m : ExprMatcher) (path : String) (s : Scope) : Evaluation Bool :=
  match m with
  | joint set => return set.isMatch path
  | sequential exprs => do return (← Evaluation.scan (·.matchesText path) s 0 exprs).isSome

/-- The empty path has no text to name and is never excluded. -/
def evaluate (m : ExprMatcher) (path : String) (s : Scope) : Evaluation Verdict := do
  Evaluation.check s
  if path.isEmpty then return .unmatched
  else if ← m.hits path s then do
    Evaluation.trace "regex match" [("path", path)]
    return .matched .regex path
  else return .unmatched

end ExprMatcher

end Exclusion
