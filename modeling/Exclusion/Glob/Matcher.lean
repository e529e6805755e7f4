import Exclusion.Evaluation
import Exclusion.Glob.Limits
import Exclusion.Glob.Quote
import Exclusion.Verdict

/-! # Matching by globs

A path is excluded when one of the globs matches all of it. Entries are globs or raw texts that match
only themselves. They are tried in order, or race each other. Strict compiling fails at the first
entry that is no glob, lenient compiling leaves such entries out. Neither survives a glob that is too
large to be compiled.
-/

namespace Exclusion

structure GlobOptions where
  patterns : List String
  raw : List String
  concurrent : Bool
  deriving DecidableEq, Repr

structure GlobEntry where
  source : String
  expr : Expr
  deriving Repr

structure GlobMatcher where
  entries : List GlobEntry
  concurrent : Bool
  deriving Repr

namespace GlobEntry

def compile (source : String) (glob : List Char) : Except Failure GlobEntry :=
  if source.isEmpty then .error (.compile .glob source (.glob .emptyPattern))
  else
    match Glob.read glob with
    | .error f => .error (.compile .glob source (.glob f))
    | .ok ts =>
      match Glob.compile? ts with
      | some e => .ok ⟨source, e⟩
      | none => .error (.aborted source)

def matchesPath (g : GlobEntry) (path : String) : Bool :=
  g.expr.accepts (Glob.pathBytes path)

end GlobEntry

namespace GlobOptions

/-- The entries as given and their glob texts: the patterns, then the raw texts quoted. -/
def texts (o : GlobOptions) : List (String × List Char) :=
  o.patterns.map (fun p => (p, p.toList)) ++ o.raw.map fun r => (r, Glob.quote r.toList)

end GlobOptions

namespace GlobMatcher

def length (m : GlobMatcher) : Nat := m.entries.length

def isEmpty (m : GlobMatcher) : Bool := m.entries.isEmpty

def finish (entries : List GlobEntry) (concurrent : Bool) : Build GlobMatcher := do
  Build.debug "compiled glob matcher"
    [("globs", .number entries.length), ("concurrent", .flag concurrent)]
  return ⟨entries, concurrent⟩

def compile (o : GlobOptions) : Build GlobMatcher := do
  let entries ← liftExcept (o.texts.mapM fun (source, glob) => GlobEntry.compile source glob)
  finish entries o.concurrent

/-- Compiles the entries that can be compiled, and gives the failures of the others. -/
def compileEach : List (String × List Char) → Build (List GlobEntry × List Failure)
  | [] => return ([], [])
  | (source, glob) :: rest =>
    match GlobEntry.compile source glob with
    | .ok g => do
      let (entries, failures) ← compileEach rest
      return (g :: entries, failures)
    | .error (.aborted pattern) => throw (.aborted pattern)
    | .error e => do
      Build.warn ("skipping invalid glob pattern '" ++ source ++ "': " ++ e.message)
      let (entries, failures) ← compileEach rest
      return (entries, e :: failures)

def compileLenient (o : GlobOptions) : Build (GlobMatcher × List Failure) := do
  let (entries, failures) ← compileEach o.texts
  return (← finish entries o.concurrent, failures)

/-- The position of a glob that matches: the first one, or the winner of a race. -/
def find (m : GlobMatcher) (path : String) (s : Scope) : Evaluation (Option Nat) :=
  if m.concurrent && m.entries.length > 1 then
    Evaluation.race (m.entries.map (·.matchesPath path)) s
  else Evaluation.scan (·.matchesPath path) s 0 m.entries

def evaluate (m : GlobMatcher) (path : String) (s : Scope) : Evaluation Verdict := do
  Evaluation.check s
  let found ← m.find path s
  match found.bind fun i => m.entries[i]? with
  | some g => do
    Evaluation.trace "glob match" [("path", path), ("glob", g.source)]
    return .matched .glob g.source
  | none => return .unmatched

end GlobMatcher

end Exclusion
