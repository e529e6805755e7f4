import Exclusion.Expr.Compile
import Exclusion.Failure
import Exclusion.Rule.Form

/-! # Rules

A rule is a line with the expression that its form compiles to. A negated rule releases the paths that
it matches.
-/

namespace Exclusion

structure Rule where
  /-- The line as written. -/
  source : String
  /-- The text of its expression. -/
  text : String
  expr : Expr
  negated : Bool
  deriving DecidableEq, Repr

namespace Rule

/-- The rule of a line, if it has one. -/
def ofLine (line : String) : Except Failure (Option Rule) :=
  match Form.ofLine? line.toList with
  | none => .ok none
  | some form =>
    match Expr.compile form.text with
    | .ok e => .ok (some ⟨line, String.ofList form.text, e, form.negated⟩)
    | .error f => .error (.compile .gitignore line (.expr f))

def matchesPath (r : Rule) (path : String) : Bool := r.expr.matchesText path

end Rule

end Exclusion
