import Exclusion.Document.Value

/-! # Trees of tables

While a document is read its tables form a tree that grows by entries and headers. What may still be
added to a table depends on how it came about: a table is stated once, and dotted keys and headers do
not add to each other's tables.
-/

namespace Exclusion.Document

/-- How a table came about. -/
inductive Origin where
  /-- Stated on its own, by a header or in braces. -/
  | stated
  /-- On the way of a header to a table inside it. -/
  | passed
  /-- On the way of a dotted key. -/
  | dotted
  deriving DecidableEq, Repr

inductive Node where
  | value (v : Value)
  | table (origin : Origin) (entries : List (String × Node))
  /-- Tables under one header each, the last one first. -/
  | tables (elements : List (List (String × Node)))

abbrev Entries := List (String × Node)

namespace Entries

def find? (key : String) (es : Entries) : Option Node := List.lookup key es

def put (key : String) (node : Node) : Entries → Entries
  | [] => [(key, node)]
  | (k, n) :: rest =>
    if key = k then (key, node) :: rest
    else if key < k then (key, node) :: (k, n) :: rest
    else (k, n) :: put key node rest

/-- Changes the table that a path leads to. Tables that are missing on the way come about as `made`;
of several tables under one name the last is meant; dotted keys do not pass through stated tables. -/
def change (made : Origin) (f : Origin → Entries → Option Entries) (origin : Origin) (es : Entries) :
    List String → Option Entries
  | [] => f origin es
  | key :: rest => do
    let node ← match find? key es with
      | none => (change made f made [] rest).map (.table made)
      | some (.value _) => none
      | some (.tables []) => none
      | some (.tables (last :: before)) =>
        (change made f .stated last rest).map fun changed => .tables (changed :: before)
      | some (.table o inner) =>
        if made = .dotted ∧ o = .stated then none
        else (change made f o inner rest).map (.table o)
    return put key node es

/-- Adds an entry that is not there yet. Behind a dotted path it must land in a table of dotted keys. -/
def addValue (path : List String) (key : String) (v : Value) (origin : Origin) (es : Entries) :
    Option Entries :=
  change .dotted (fun o inner =>
    if (o = .dotted ↔ path = []) ∨ (find? key inner).isSome then none
    else some (put key (.value v) inner)) origin es path

/-- States a table, which at most a header may have passed before. -/
def stateTable (key : String) (es : Entries) : Option Entries :=
  match find? key es with
  | none => some (put key (.table .stated []) es)
  | some (.table .passed inner) => some (put key (.table .stated inner) es)
  | some _ => none

def addTable (key : String) (es : Entries) : Option Entries :=
  match find? key es with
  | none => some (put key (.tables [[]]) es)
  | some (.tables elements) => some (put key (.tables ([] :: elements)) es)
  | some _ => none

end Entries

mutual

def Node.toValue : Node → Value
  | .value v => v
  | .table _ es => .table (entryValues es)
  | .tables elements => .array (elementValues [] elements)

def entryValues : List (String × Node) → List (String × Value)
  | [] => []
  | (k, n) :: rest => (k, n.toValue) :: entryValues rest

def elementValues (after : List Value) : List (List (String × Node)) → List Value
  | [] => after
  | es :: before => elementValues (.table (entryValues es) :: after) before

end

end Exclusion.Document
