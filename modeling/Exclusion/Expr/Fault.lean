import Exclusion.Outcome

/-! # Faults of expression texts

Why a text is no expression, or an expression is refused.
-/

namespace Exclusion.Expr

inductive Fault where
  | unclosedGroup
  | unopenedGroup
  | badGroupName
  | repeatedGroupName
  | lookAround
  | badFlags
  | nothingToRepeat
  | badRepetition
  | badEscape
  | badHexadecimal
  | unclosedClass
  /-- The ends of a range are in descending order. -/
  | descendingRange
  /-- An end of a range, or a member of a class, is no character. -/
  | badClassMember
  | unknownProperty
  | badWordEdge
  /-- The expression could match bytes that are no text. -/
  | notText
  | needsUnicode
  /-- Groups and classes lie too deep in one another. -/
  | tooDeep
  /-- The compiled expression exceeds the size limit. -/
  | tooLarge
  deriving DecidableEq, Repr

end Exclusion.Expr
