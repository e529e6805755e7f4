import Exclusion.Expr.Matcher
import Exclusion.Glob.Matcher
import Exclusion.Rule.Matcher

/-! # Matchers

A matcher of one of the three dialects.
-/

namespace Exclusion

inductive Matcher where
  | regex (m : ExprMatcher)
  | glob (m : GlobMatcher)
  | gitignore (m : RuleMatcher)
  deriving Repr

namespace Matcher

def dialect : Matcher → Dialect
  | regex _ => .regex
  | glob _ => .glob
  | gitignore _ => .gitignore

def evaluate : Matcher → String → Scope → Evaluation Verdict
  | regex m => m.evaluate
  | glob m => m.evaluate
  | gitignore m => m.evaluate

end Matcher

end Exclusion
