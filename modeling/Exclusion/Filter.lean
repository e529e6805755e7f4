import Exclusion.Matcher

/-! # Filters

A filter asks several matchers in order, all under one deadline, and the first that excludes a path
decides. It is built from matchers and options in the order in which they were added, or from one
section of options for each dialect and an order of dialects.
-/

namespace Exclusion

structure Filter where
  matchers : List Matcher
  timeout : Duration
  deriving Repr

/-- What a filter is asked to contain. -/
inductive Pending where
  | regex (o : RegexOptions)
  | glob (o : GlobOptions)
  | gitignore (o : GitIgnoreOptions)
  | compiled (m : Matcher)
  deriving Repr

structure FilterOptions where
  regex : Option RegexOptions
  glob : Option GlobOptions
  gitignore : Option GitIgnoreOptions
  timeout : Option Duration
  /-- Turns every section to its concurrent strategy. -/
  concurrent : Bool
  order : Option (List Dialect)
  deriving DecidableEq, Repr

def Pending.compile (files : Files) : Pending → Build Matcher
  | regex o => do return .regex (← ExprMatcher.compile o)
  | glob o => do return .glob (← GlobMatcher.compile o)
  | gitignore o => do return .gitignore (← RuleMatcher.compile files o)
  | compiled m => return m

namespace FilterOptions

def defaultOrder : List Dialect := [.regex, .glob, .gitignore]

def empty : FilterOptions := ⟨none, none, none, none, false, none⟩

/-- The section of a dialect, with the concurrent strategy if all sections have it. -/
def section? (o : FilterOptions) : Dialect → Option Pending
  | .regex => o.regex.map fun s => .regex { s with concurrent := s.concurrent || o.concurrent }
  | .glob => o.glob.map fun s => .glob { s with concurrent := s.concurrent || o.concurrent }
  | .gitignore =>
    o.gitignore.map fun s => .gitignore { s with concurrent := s.concurrent || o.concurrent }
  | .unknown => none

def validateOrder (seen : List Dialect) : List Dialect → Except Failure (List Dialect)
  | [] => .ok seen.reverse
  | d :: rest =>
    if d = .unknown then .error (.config none .unknownInOrder)
    else if d ∈ seen then .error (.config none (.repeatedInOrder d))
    else validateOrder (d :: seen) rest

def effectiveOrder (o : FilterOptions) : Except Failure (List Dialect) :=
  match o.order with
  | some order => validateOrder [] order
  | none => .ok defaultOrder

def unordered (o : FilterOptions) (order : List Dialect) : List Dialect :=
  defaultOrder.filter fun d => (o.section? d).isSome && d ∉ order

end FilterOptions

namespace Filter

def defaultTimeout : Duration := .ofSeconds 3600

def ofMatchers (matchers : List Matcher) (timeout : Option Duration) : Build Filter := do
  if matchers.isEmpty then throw (.config none .noMatchers)
  else
    let titles := matchers.map fun m => m.dialect.title
    Build.debug "compiled path ignore" [("dialects", .text ("[" ++ ", ".intercalate titles ++ "]"))]
    return ⟨matchers, timeout.getD defaultTimeout⟩

def ofPending (files : Files) (pending : List Pending) (timeout : Option Duration) : Build Filter := do
  ofMatchers (← pending.mapM (Pending.compile files)) timeout

def ofOptions (files : Files) (o : FilterOptions) : Build Filter := do
  let order ← liftExcept o.effectiveOrder
  let missing := o.unordered order
  if missing.isEmpty then ofPending files (order.filterMap o.section?) o.timeout
  else throw (.config none (.missingFromOrder missing))

def dialects (f : Filter) : List Dialect := f.matchers.map Matcher.dialect

/-- Asks the matchers in turn; the first that excludes the path ends the evaluation. -/
def ask (path : String) (s : Scope) : List Matcher → Evaluation Verdict
  | [] => return .unmatched
  | m :: rest => do
    let v ← m.evaluate path s
    if v.isMatch then do
      Evaluation.cancel s
      Evaluation.trace "path ignored" [("path", path), ("matched", v.text)]
      return v
    else ask path s rest

def evaluate (f : Filter) (path : String) (s : Scope) : Evaluation Verdict := do
  ask path (← Evaluation.openScope s (some f.timeout)) f.matchers

end Filter

end Exclusion
