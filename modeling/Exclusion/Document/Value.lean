import Exclusion.Decimal.Shortest
import Exclusion.Unicode.Property

/-! # Values

The values of a document, and how a value is named to someone who wanted another one.
-/

namespace Exclusion.Document

/-- A value. The entries of a table are in ascending order of their keys. -/
inductive Value where
  | string (s : String)
  | integer (n : Int)
  | float (x : Decimal.Binary)
  | boolean (b : Bool)
  /-- A date, a time or both, in its own text. -/
  | moment (text : String)
  | array (items : List Value)
  | table (entries : List (String × Value))

/-! Whether two values are the same can be decided. -/

mutual

def Value.same : Value → Value → Bool
  | .string s, .string t => s == t
  | .integer m, .integer n => m == n
  | .float x, .float y => x == y
  | .boolean a, .boolean b => a == b
  | .moment s, .moment t => s == t
  | .array items, .array items' => sameItems items items'
  | .table entries, .table entries' => sameEntries entries entries'
  | _, _ => false

def sameItems : List Value → List Value → Bool
  | [], [] => true
  | v :: items, w :: items' => v.same w && sameItems items items'
  | _, _ => false

def sameEntries : List (String × Value) → List (String × Value) → Bool
  | [], [] => true
  | (key, v) :: entries, (key', w) :: entries' => key == key' && v.same w && sameEntries entries entries'
  | _, _ => false

end

mutual

theorem Value.same_iff (v w : Value) : v.same w = true ↔ v = w := by
  cases v with
  | array items => cases w <;> simp [Value.same, sameItems_iff items]
  | table entries => cases w <;> simp [Value.same, sameEntries_iff entries]
  | _ => cases w <;> simp [Value.same]

theorem sameItems_iff (items items' : List Value) : sameItems items items' = true ↔ items = items' := by
  cases items with
  | nil => cases items' <;> simp [sameItems]
  | cons v items => cases items' <;> simp [sameItems, v.same_iff, sameItems_iff items]

theorem sameEntries_iff (entries entries' : List (String × Value)) :
    sameEntries entries entries' = true ↔ entries = entries' := by
  cases entries with
  | nil => cases entries' <;> simp [sameEntries]
  | cons e entries =>
    obtain ⟨key, v⟩ := e
    cases entries' with
    | nil => simp [sameEntries]
    | cons e' entries' => simp [sameEntries, v.same_iff, sameEntries_iff entries, Prod.ext_iff]

end

instance : DecidableEq Value := fun v w => decidable_of_iff _ (v.same_iff w)

def shortEscape? : Char → Option Char
  | '\x00' => some '0'
  | '\t' => some 't'
  | '\r' => some 'r'
  | '\n' => some 'n'
  | '"' => some '"'
  | '\\' => some '\\'
  | _ => none

/-- A character as it stands between double quotes. What leaves no ink of its own is shown by its number. -/
def showChar (c : Char) : List Char :=
  match shortEscape? c with
  | some e => ['\\', e]
  | none =>
    if Unicode.printable c && !Unicode.extending.mem c.toNat then [c]
    else ['\\', 'u', '\x7b'] ++ Nat.toDigits 16 c.toNat ++ ['\x7d']

def showString (s : String) : String :=
  String.ofList ('"' :: s.toList.flatMap showChar ++ ['"'])

namespace Value

def description : Value → String
  | string s => "string " ++ showString s
  | integer n => "integer `" ++ toString n ++ "`"
  | float x => "floating point `" ++ x.text ++ "`"
  | boolean b => "boolean `" ++ toString b ++ "`"
  | moment t => "string " ++ showString t
  | array _ => "sequence"
  | table _ => "map"

def kind : Value → String
  | string _ => "string"
  | integer _ => "integer"
  | float _ => "float"
  | boolean _ => "boolean"
  | moment _ => "datetime"
  | array _ => "array"
  | table _ => "table"

end Value

end Exclusion.Document
