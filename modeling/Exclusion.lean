import Exclusion.Charset
import Exclusion.Configuration
import Exclusion.Decimal.Binary
import Exclusion.Decimal.Numeral
import Exclusion.Decimal.Rounding
import Exclusion.Decimal.Shortest
import Exclusion.Dialect
import Exclusion.Document.Blank
import Exclusion.Document.Decode
import Exclusion.Document.Mismatch
import Exclusion.Document.Moment
import Exclusion.Document.Number
import Exclusion.Document.Read
import Exclusion.Document.Reader
import Exclusion.Document.Text
import Exclusion.Document.Tree
import Exclusion.Document.Value
import Exclusion.Duration.Basic
import Exclusion.Duration.Read
import Exclusion.Evaluation
import Exclusion.Event
import Exclusion.Expr.Basic
import Exclusion.Expr.Class
import Exclusion.Expr.Compile
import Exclusion.Expr.Escape
import Exclusion.Expr.Fault
import Exclusion.Expr.Flags
import Exclusion.Expr.Image
import Exclusion.Expr.Matcher
import Exclusion.Expr.Quote
import Exclusion.Expr.Read
import Exclusion.Expr.Spans
import Exclusion.Expr.Weight
import Exclusion.Failure
import Exclusion.Files
import Exclusion.Filter
import Exclusion.Glob.Limits
import Exclusion.Glob.Matcher
import Exclusion.Glob.Quote
import Exclusion.Glob.Read
import Exclusion.Glob.Token
import Exclusion.Matcher
import Exclusion.Outcome
import Exclusion.PatternSet
import Exclusion.Proofs.Decimal.Monotone
import Exclusion.Proofs.Decimal.Nearest
import Exclusion.Proofs.Decimal.Writing
import Exclusion.Proofs.Document.Ascending
import Exclusion.Proofs.Document.UnknownKeys
import Exclusion.Proofs.Duration.Exact
import Exclusion.Proofs.Duration.Range
import Exclusion.Proofs.Evaluation.Asking
import Exclusion.Proofs.Evaluation.Building
import Exclusion.Proofs.Evaluation.Checks
import Exclusion.Proofs.Evaluation.Contract
import Exclusion.Proofs.Evaluation.Frame
import Exclusion.Proofs.Evaluation.Liveness
import Exclusion.Proofs.Evaluation.Outcomes
import Exclusion.Proofs.Evaluation.Run
import Exclusion.Proofs.Evaluation.Undisturbed
import Exclusion.Proofs.Expr.Choice
import Exclusion.Proofs.Expr.Denotation
import Exclusion.Proofs.Expr.Joint
import Exclusion.Proofs.Expr.Language
import Exclusion.Proofs.Expr.Scan
import Exclusion.Proofs.Expr.Spelling
import Exclusion.Proofs.Filter.Agreement
import Exclusion.Proofs.Filter.Answers
import Exclusion.Proofs.Filter.Calls
import Exclusion.Proofs.Filter.Cancellation
import Exclusion.Proofs.Filter.Compilation
import Exclusion.Proofs.Filter.Construction
import Exclusion.Proofs.Filter.Evaluator
import Exclusion.Proofs.Filter.Leniency
import Exclusion.Proofs.Filter.Lines
import Exclusion.Proofs.Filter.Literals
import Exclusion.Proofs.Filter.Mirrored
import Exclusion.Proofs.Filter.Precedence
import Exclusion.Proofs.Filter.Provenance
import Exclusion.Proofs.Filter.RawTexts
import Exclusion.Proofs.Filter.Returns
import Exclusion.Proofs.Filter.RuleFile
import Exclusion.Proofs.Filter.Sharing
import Exclusion.Proofs.Filter.Strategy
import Exclusion.Proofs.Filter.Undisturbed
import Exclusion.Proofs.Filter.Validity
import Exclusion.Proofs.Filter.Verdict
import Exclusion.Proofs.Glob.Quoted
import Exclusion.Proofs.Race.Completion
import Exclusion.Proofs.Race.Invariant
import Exclusion.Proofs.Race.Outcome
import Exclusion.Proofs.Rule.Bracket
import Exclusion.Proofs.Rule.Closing
import Exclusion.Proofs.Rule.Closure
import Exclusion.Proofs.Rule.Components
import Exclusion.Proofs.Rule.Covering
import Exclusion.Proofs.Rule.Depth
import Exclusion.Proofs.Rule.Directory
import Exclusion.Proofs.Rule.Doubling
import Exclusion.Proofs.Rule.EndSlash
import Exclusion.Proofs.Rule.Expression
import Exclusion.Proofs.Rule.Language
import Exclusion.Proofs.Rule.Line
import Exclusion.Proofs.Rule.Membership
import Exclusion.Proofs.Rule.Negation
import Exclusion.Proofs.Rule.Places
import Exclusion.Proofs.Rule.Quoting
import Exclusion.Proofs.Rule.Rooting
import Exclusion.Proofs.Rule.Segments
import Exclusion.Proofs.Rule.Slice
import Exclusion.Proofs.Rule.Translation
import Exclusion.Proofs.Scope.Forest
import Exclusion.Proofs.Scope.History
import Exclusion.Race
import Exclusion.Rule.Basic
import Exclusion.Rule.Bracket
import Exclusion.Rule.Form
import Exclusion.Rule.Matcher
import Exclusion.Rule.Piece
import Exclusion.Scope
import Exclusion.Text
import Exclusion.Unicode.Category
import Exclusion.Unicode.Fold
import Exclusion.Unicode.Property
import Exclusion.Unicode.Script
import Exclusion.Verdict
