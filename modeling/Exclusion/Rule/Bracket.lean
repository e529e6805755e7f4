import Exclusion.Expr.Quote

/-! # Bracket classes of a rule line

A class opens with `[`, may be complemented by `!` or `^`, and runs to the next `]` that is neither
in first place nor behind a backslash. `Bracket.close?` finds that end, `Bracket.ofSlice` reads what
lies between, and `Bracket.text` writes the class in expression syntax with nested classes and the
operators `&&` and `~~` neutralised.
-/

namespace Exclusion.Rule

/-- One character of a class, with a backslash before it or not. -/
inductive Member where
  | plain (c : Char)
  | quoted (c : Char)
  deriving DecidableEq, Repr

structure Bracket where
  complemented : Bool
  members : List Member
  deriving DecidableEq, Repr

namespace Member

def char : Member → Char
  | plain c => c
  | quoted c => c

def text : Member → List Char
  | plain c => if c ∈ ['[', ']', '&', '~'] then ['\\', c] else [c]
  | quoted c => Expr.quoteChar c

end Member

namespace Bracket

/-- The text before the first `]` without a backslash, and what follows that `]`. -/
def scan : List Char → Option (List Char × List Char)
  | [] => none
  | ']' :: rest => some ([], rest)
  | '\\' :: c :: rest => (scan rest).map fun (slice, after) => ('\\' :: c :: slice, after)
  | ['\\'] => none
  | c :: rest => (scan rest).map fun (slice, after) => (c :: slice, after)

def sign : List Char → List Char × List Char
  | '!' :: rest => (['!'], rest)
  | '^' :: rest => (['^'], rest)
  | s => ([], s)

def firstClose : List Char → List Char × List Char
  | ']' :: rest => ([']'], rest)
  | s => ([], s)

/-- Given what follows `[`, the slice inside the class and what follows its `]`. -/
def close? (s : List Char) : Option (List Char × List Char) :=
  let (neg, s) := sign s
  let (first, s) := firstClose s
  (scan s).map fun (slice, after) => (neg ++ first ++ slice, after)

/-- A backslash at the very end has nothing to quote and stands for nothing. -/
def readMembers : List Char → List Member
  | '\\' :: c :: rest => .quoted c :: readMembers rest
  | ['\\'] => []
  | c :: rest => .plain c :: readMembers rest
  | [] => []

def ofSlice (slice : List Char) : Bracket :=
  let (neg, rest) := sign slice
  ⟨!neg.isEmpty, readMembers rest⟩

def text (b : Bracket) : List Char :=
  '[' :: (if b.complemented then ['^'] else []) ++ b.members.flatMap Member.text ++ [']']

theorem scan_length {s slice after : List Char} (h : scan s = some (slice, after)) :
    slice.length + after.length < s.length := by
  fun_induction scan s generalizing slice after with
  | case1 => simp at h
  | case2 rest => simp at h; obtain ⟨rfl, rfl⟩ := h; simp
  | case3 c rest ih =>
    obtain ⟨⟨u, v⟩, hu, he⟩ := Option.map_eq_some_iff.1 h
    simp at he; obtain ⟨rfl, rfl⟩ := he
    have := ih hu; simp; omega
  | case4 => simp at h
  | case5 c rest _ _ _ ih =>
    obtain ⟨⟨u, v⟩, hu, he⟩ := Option.map_eq_some_iff.1 h
    simp at he; obtain ⟨rfl, rfl⟩ := he
    have := ih hu; simp; omega

theorem sign_append (s : List Char) : (sign s).1 ++ (sign s).2 = s := by
  unfold sign; split <;> rfl

theorem firstClose_append (s : List Char) : (firstClose s).1 ++ (firstClose s).2 = s := by
  unfold firstClose; split <;> rfl

theorem close?_length {s slice after : List Char} (h : close? s = some (slice, after)) :
    slice.length + after.length < s.length := by
  simp only [close?] at h
  obtain ⟨⟨u, v⟩, hu, he⟩ := Option.map_eq_some_iff.1 h
  simp at he; obtain ⟨rfl, rfl⟩ := he
  have h₁ := scan_length hu
  have h₂ := congrArg List.length (sign_append s)
  have h₃ := congrArg List.length (firstClose_append (sign s).2)
  simp at h₂ h₃ ⊢; omega

end Bracket

end Exclusion.Rule
