import Exclusion.Document.Mismatch
import Exclusion.Document.Value

/-! # Decoding values

A decoder takes a value for what is wanted of it or says how the value differs. The first mismatch in
the order of the value counts.
-/

namespace Exclusion.Document

abbrev Decoder (α : Type) := Value → Except Mismatch α

namespace Decoder

def fail {α : Type} (r : MismatchReason) : Except Mismatch α := .error ⟨r, []⟩

def unexpected {α : Type} (wanted : String) (v : Value) : Except Mismatch α :=
  fail (.wrongType v.description wanted)

def under {α : Type} (key : String) : Except Mismatch α → Except Mismatch α
  | .error m => .error { m with path := key :: m.path }
  | .ok a => .ok a

def stringAs (wanted : String) : Decoder String
  | .string s => .ok s
  | .moment t => .ok t
  | v => unexpected wanted v

def string : Decoder String := stringAs "a string"

def boolean : Decoder Bool
  | .boolean b => .ok b
  | v => unexpected "a boolean" v

def sequence {α : Type} (item : Decoder α) : Decoder (List α)
  | .array items => items.mapM item
  | v => unexpected "a sequence" v

end Decoder

/-- A field of a record: its name, and how a value sets it. -/
structure Field (σ : Type) where
  name : String
  set : σ → Decoder σ

def Field.of {σ α : Type} (name : String) (d : Decoder α) (put : σ → α → σ) : Field σ :=
  ⟨name, fun s v => (d v).map (put s)⟩

namespace Decoder

def setField {σ : Type} (fields : List (Field σ)) (s : σ) (key : String) (v : Value) :
    Except Mismatch σ :=
  match fields.find? (·.name == key) with
  | some f => under key (f.set s v)
  | none => fail (.unknownField key (fields.map (·.name)))

/-- Sets the fields in order from the items of an array. -/
def setByPlace {σ : Type} (fields : List (Field σ)) (s : σ) (items : List Value) :
    Except Mismatch σ := do
  let filled ← (fields.zip items).foldlM (fun s (f, v) => f.set s v) s
  if items.length ≤ fields.length then return filled
  else fail (.invalidLength items.length "fewer elements in array")

/-- A record from a table, or from an array in the order of its fields. What is missing stays as it is
in `start`. -/
def record {σ : Type} (title : String) (fields : List (Field σ)) (start : σ) : Decoder σ
  | .table entries => entries.foldlM (fun s (key, v) => setField fields s key v) start
  | .array items => setByPlace fields start items
  | v => unexpected ("struct " ++ title) v

def onlyEntry : List (String × Value) → Except Mismatch (String × Value)
  | [] => fail (.told "wanted exactly 1 element, found 0 elements")
  | [entry] => .ok entry
  | _ => fail (.told "wanted exactly 1 element, more than 1 element")

def nothing : Decoder Unit
  | .array [] => .ok ()
  | .table [] => .ok ()
  | .array _ => fail (.told "expected empty array")
  | .table _ => fail (.told "expected empty table")
  | v => fail (.told ("expected table, found " ++ v.kind))

/-- One of several names, alone or as the key of an empty table. -/
def choice {α : Type} (names : List (String × α)) : Decoder α
  | .string s => named s
  | .table entries => do
    let (key, v) ← onlyEntry entries
    let a ← named key
    nothing v
    return a
  | _ => fail (.wrongType "unit variant" "string only")
where
  named (s : String) : Except Mismatch α :=
    match names.lookup s with
    | some a => .ok a
    | none => fail (.unknownVariant s (names.map (·.1)))

end Decoder

end Exclusion.Document
