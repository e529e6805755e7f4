import Exclusion.Document.Reader

/-! # Blanks and comments

What may stand between the parts of a document: spaces and tabs, ends of lines, and comments, which
run up to the end of their line.
-/

namespace Exclusion.Document

open Reader

def isBlank (c : Char) : Bool := c == ' ' || c == '\t'

def isInline (c : Char) : Bool :=
  c == '\t' || (0x20 ≤ c.toNat && c.toNat ≤ 0x7E) || 0x80 ≤ c.toNat

def blanks : Reader Unit := do
  let _ ← span isBlank

def newline : Reader Unit := char '\n' <|> word "\r\n"

def comment : Reader Unit := do
  char '#'
  let _ ← span isInline

/-- Blanks, ends of lines and comments in any number; a comment needs the end of its line. -/
def gap : Reader Unit := do
  let _ ← many ((do let _ ← satisfying isBlank) <|> newline <|> (comment *> newline))

end Exclusion.Document
