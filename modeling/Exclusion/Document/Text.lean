import Exclusion.Document.Blank

/-! # Strings and keys

A string stands between double quotes, with escapes, or between single quotes, as it is. Three quotes
enclose a string of several lines. A key is a bare word or a string on one line, and several keys with
points between them lead into tables.
-/

namespace Exclusion.Document

open Reader

def isHexDigit (c : Char) : Bool :=
  c.isDigit || ('a' ≤ c && c ≤ 'f') || ('A' ≤ c && c ≤ 'F')

def hexDigitValue (c : Char) : Nat :=
  if c.isDigit then c.toNat - '0'.toNat
  else if 'a' ≤ c then c.toNat - 'a'.toNat + 10
  else c.toNat - 'A'.toNat + 10

def scalar? (n : Nat) : Option Char :=
  if n.isValidChar then some (Char.ofNat n) else none

def codePoint (count : Nat) : Reader Char := do
  let digits ← exactly isHexDigit count
  match scalar? (digits.foldl (fun n c => 16 * n + hexDigitValue c) 0) with
  | some c => return c
  | none => failure

def escapeBody : Reader Char := do
  match ← satisfying fun _ => true with
  | 'b' => return '\x08'
  | 't' => return '\t'
  | 'n' => return '\n'
  | 'f' => return '\x0c'
  | 'r' => return '\r'
  | '"' => return '"'
  | '\\' => return '\\'
  | 'u' => codePoint 4
  | 'U' => codePoint 8
  | _ => failure

def escape : Reader (List Char) := do
  char '\\'
  return [← escapeBody]

def isPlain (c : Char) : Bool := isInline c && c != '"' && c != '\\'

def isLiteral (c : Char) : Bool := isInline c && c != '\''

def quotedText : Reader (List Char) := do
  char '"'
  let parts ← many (some1 isPlain <|> escape)
  char '"'
  return parts.flatten

def literalText : Reader (List Char) := do
  char '\''
  let s ← span isLiteral
  char '\''
  return s

def lineBreak : Reader (List Char) := do
  newline
  return ['\n']

/-- A backslash at the end of a line joins it with what comes next after all blanks and empty lines. -/
def joint : Reader (List Char) := do
  char '\\'
  blanks
  newline
  let _ ← many ((do let _ ← satisfying isBlank) <|> newline)
  return []

def innerQuotes (quote : Char) : Reader (List Char) := do
  let run ← some1 (· == quote)
  if run.length < 3 then return run else failure

/-- Three quotes close a string of several lines; up to two more before them belong to it. -/
def closingQuotes (quote : Char) : Reader (List Char) := do
  let run ← span (· == quote)
  if 3 ≤ run.length && run.length ≤ 5 then return run.drop 3 else failure

/-- A string between three quotes. The end of a line right after the first three is not part of it. -/
def longText (quote : Char) (part : Reader (List Char)) : Reader (List Char) := do
  word (String.ofList [quote, quote, quote])
  let _ ← optional newline
  let parts ← many (part <|> lineBreak <|> innerQuotes quote)
  return parts.flatten ++ (← closingQuotes quote)

def text : Reader String :=
  String.ofList <$>
    (longText '"' (some1 isPlain <|> joint <|> escape) <|> quotedText
      <|> longText '\'' (some1 isLiteral) <|> literalText)

def isBare (c : Char) : Bool := c.isAlphanum || c == '-' || c == '_'

def key : Reader String :=
  String.ofList <$> (quotedText <|> literalText <|> some1 isBare)

/-- Paths must have fewer keys than this. -/
def pathLimit : Nat := 80

def path : Reader (List String) := do
  let keys ← separated (blanks *> key <* blanks) (char '.')
  if keys.length < pathLimit then return keys else failure

end Exclusion.Document
