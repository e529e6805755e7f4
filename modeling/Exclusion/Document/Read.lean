import Exclusion.Document.Moment
import Exclusion.Document.Number
import Exclusion.Document.Tree

/-! # Reading documents

A document is a sequence of lines, each with at most one statement: a header that states a table or
adds one to an array of tables, or an entry of the table under the last header. Every fault has the
same outcome, so reading answers either the entries of the document or nothing.
-/

namespace Exclusion.Document

open Reader

inductive Statement where
  | table (path : List String)
  | element (path : List String)
  | entry (path : List String) (v : Value)

def addEntry (origin : Origin) (es : Entries) (path : List String) (v : Value) : Option Entries := do
  let key ← path.getLast?
  es.addValue path.dropLast key v origin

def tableOf (pairs : List (List String × Value)) : Reader Value := do
  match pairs.foldlM (fun es (path, v) => addEntry .stated es path v) ([] : Entries) with
  | some es => return .table (entryValues es)
  | none => failure

def simple : Reader Value :=
  (.string <$> text) <|> (.moment <$> moment) <|> (.float <$> float) <|> (.integer <$> integer)
    <|> (word "true" *> return .boolean true) <|> (word "false" *> return .boolean false)

def array (item : Reader Value) : Reader Value := do
  char '['
  let items ← optional (separated (gap *> item <* gap) (char ',') <* optional (char ','))
  gap
  char ']'
  return .array (items.getD [])

def entryPath : Reader (List String) := path <* char '=' <* blanks

def braces (item : Reader Value) : Reader Value := do
  char '\x7b'
  let pairs ← optional (separated (do
    let path ← entryPath
    let v ← item
    blanks
    return (path, v)) (char ','))
  blanks
  char '\x7d'
  tableOf (pairs.getD [])

/-- Values may be nested in fewer levels than this. -/
def depthLimit : Nat := 80

/-- A value with so many levels below it at most. -/
def value : Nat → Reader Value
  | 0 => simple
  | depth + 1 => simple <|> array (value depth) <|> braces (value depth)

def statement : Reader Statement :=
  (.element <$> (word "[[" *> path <* word "]]")) <|> (.table <$> (char '[' *> path <* char ']'))
    <|> do
      let path ← entryPath
      return .entry path (← value (depthLimit - 1))

def line : Reader (Option Statement) := do
  blanks
  let s ← optional statement
  blanks
  let _ ← optional comment
  return s

/-- All statements of a document. A byte order mark in front is passed over. -/
def statements : Reader (List Statement) := do
  let _ ← optional (char '\uFEFF')
  let first ← line
  let rest ← many (newline *> line)
  return (first :: rest).filterMap id

/-- The tree so far and the path of the last header. -/
structure Draft where
  entries : Entries
  header : List String

namespace Draft

def follow (d : Draft) : Statement → Option Draft
  | .table path => do
    let key ← path.getLast?
    let es ← d.entries.change .passed (fun _ inner => inner.stateTable key) .stated path.dropLast
    return ⟨es, path⟩
  | .element path => do
    let key ← path.getLast?
    let es ← d.entries.change .passed (fun _ inner => inner.addTable key) .stated path.dropLast
    return ⟨es, path⟩
  | .entry path v => do
    let es ← d.entries.change .passed (fun o inner => addEntry o inner path v) .stated d.header
    return ⟨es, d.header⟩

end Draft

def ofText? (s : String) : Option (List (String × Value)) := do
  let parts ← statements.whole s.toList
  let d ← parts.foldlM Draft.follow ⟨[], []⟩
  return entryValues d.entries

end Exclusion.Document
