/-! # Quoting text for an expression

A character that the expression syntax gives a meaning to stands for itself once a backslash
precedes it. `Expr.quote` puts that backslash before every such character and nowhere else, so the
quoted text of a string is an expression for exactly that string.
-/

namespace Exclusion.Expr

/-- The characters that a backslash turns from syntax into text. -/
def isMeta (c : Char) : Bool :=
  c ∈ ['\\', '.', '+', '*', '?', '(', ')', '|', '[', ']', '\x7b', '\x7d', '^', '$', '#', '&', '-', '~']

def quoteChar (c : Char) : List Char :=
  if isMeta c then ['\\', c] else [c]

def quote (s : List Char) : List Char :=
  s.flatMap quoteChar

@[simp] theorem quote_nil : quote [] = [] := rfl

@[simp] theorem quote_cons (c : Char) (s : List Char) :
    quote (c :: s) = quoteChar c ++ quote s := by
  simp [quote]

@[simp] theorem quote_append (s t : List Char) : quote (s ++ t) = quote s ++ quote t := by
  simp [quote]

end Exclusion.Expr
