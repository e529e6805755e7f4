import Exclusion.Proofs.Rule.Translation
import Mathlib.Data.List.DropRight

/-! # What any line compiles to

The rule of a line finds the paths of a head, what the pieces of its pattern accept, and a tail. A line that
has no rule for its expression is too large, or one of its classes is to blame, for a range in descending
order or for hyphens that nest too deep.
-/

namespace Exclusion.Rule

open Form Piece

/-- A slash other than one at its end binds a line to the root. -/
def isAnchored (line : List Char) : Bool := '/' ∈ dropEndSlash (Form.trim line)

def isDirectory (line : List Char) : Bool := (Form.trim line).getLast? == some '/'

def piecesOf (line : List Char) : List Piece := pieces (unsigned (Form.trim line))

def textOf (line : List Char) : List Char :=
  assemble (isAnchored line) (isDirectory line) (body (unsigned (Form.trim line)))

/-- A head, what the pieces accept, and a tail. -/
def Accepted (line path : List Char) : Prop :=
  ∃ u v t, path = u ++ (v ++ t) ∧ HeadReads (isAnchored line) u ∧
    BodyAccepts (isAnchored line) (piecesOf line) v ∧ TailReads (isDirectory line) t

structure HasClass (line : List Char) (b : Bracket) : Prop where
  piece : bracket b ∈ piecesOf line
  written : ∃ before slice after, line = before ++ '[' :: (slice ++ ']' :: after) ∧
    Bracket.close? (slice ++ ']' :: after) = some (slice, after) ∧ b = .ofSlice slice

/-- So many hyphens in one class can nest deeper than expressions may. -/
def tooManyHyphens : Nat := 496

/-- Why the expression of a line may be refused. -/
inductive Blame (line : List Char) : Expr.Fault → Prop
  | size : Blame line .tooLarge
  | reversed {b : Bracket} : HasClass line b → b.Reversed → Blame line .descendingRange
  | hyphens {b : Bracket} : HasClass line b → tooManyHyphens ≤ b.hyphens → Blame line .tooDeep

section Classes

variable {b : Bracket} {s rest : List Char}

theorem open_suffix_of_mem {first : Bool} (h : bracket b ∈ Piece.ofPattern first s) : ∃ rest slice after,
    '[' :: rest <:+ s ∧ Bracket.close? rest = some (slice, after) ∧ b = .ofSlice slice := by
  fun_induction Piece.ofPattern first s
  case case9 rest slice after hclose ih =>
    rcases List.mem_cons.mp h with he | hm
    · cases he; exact ⟨rest, slice, after, List.suffix_refl _, hclose, rfl⟩
    · obtain ⟨rest', slice', after', hs, hclose', hb⟩ := ih hm
      obtain ⟨-, -, -, -, hrest⟩ := Bracket.close?_eq_some_iff.mp hclose
      refine ⟨rest', slice', after', hs.trans ?_, hclose', hb⟩
      exact ⟨'[' :: (slice ++ [']']), by rw [hrest]; simp⟩
  all_goals
    simp only [List.mem_cons, List.not_mem_nil, reduceCtorEq, false_or, or_false] at h
  all_goals
    rename_i ih
    obtain ⟨rest', slice', after', hs, hclose, hb⟩ := ih h
    exact ⟨rest', slice', after', by simp [List.suffix_cons_iff, hs], hclose, hb⟩

theorem open_suffix_slashes {pattern : List Char} (h : '[' :: rest <:+ dropDeepSlash (insertSlash pattern)) :
    '[' :: rest <:+ pattern := by
  have hi : '[' :: rest <:+ insertSlash pattern := by
    unfold dropDeepSlash at h
    split at h
    · rename_i heq; rw [heq]; exact h.trans (List.suffix_cons _ _)
    · exact h
  rcases insertSlash_cases pattern with hp | ⟨-, hp⟩
  · rwa [hp] at hi
  · rw [hp, List.suffix_cons_iff] at hi
    exact hi.resolve_left (by simp)

theorem unsigned_suffix (line : List Char) : unsigned line <:+ line := by
  unfold unsigned
  split
  · exact List.suffix_cons _ _
  · exact List.suffix_refl _

theorem trim_isInfix (line : List Char) : Form.trim line <:+: line := by
  have hend (p : Char → Bool) (s : List Char) : (s.reverse.dropWhile p).reverse <:+: s :=
    (List.rdropWhile_prefix p s).isInfix
  exact (hend _ _).trans ((List.dropWhile_suffix _).isInfix.trans (hend _ _))

theorem mem_of_mem_trim {line : List Char} {c : Char} (h : c ∈ Form.trim line) : c ∈ line :=
  (trim_isInfix line).subset h

theorem hasClass_of_mem {line : List Char} (h : bracket b ∈ piecesOf line) : HasClass line b := by
  refine ⟨h, ?_⟩
  obtain ⟨rest, slice, after, hs, hclose, hb⟩ := open_suffix_of_mem h
  obtain ⟨before, extra, hline⟩ := ((open_suffix_slashes hs).trans (unsigned_suffix _)).isInfix.trans
    (trim_isInfix line)
  obtain ⟨neg, ms, hw, hslice, hrest⟩ := Bracket.close?_eq_some_iff.mp hclose
  refine ⟨before, slice, after ++ extra, ?_, ?_, hb⟩
  · rw [← hline, hrest]; simp
  · exact Bracket.close?_eq_some_iff.mpr ⟨neg, ms, hw, hslice, rfl⟩

end Classes

section Plain

variable {line : List Char}

theorem isAnchored_of_not_mem (h : '/' ∉ line) : isAnchored line = false := by
  refine decide_eq_false fun hm => h (mem_of_mem_trim ?_)
  unfold dropEndSlash at hm
  split at hm
  · exact List.dropLast_subset _ hm
  · exact hm

theorem isDirectory_of_not_mem (h : '/' ∉ line) : isDirectory line = false :=
  beq_false_of_ne fun he => h (mem_of_mem_trim (List.mem_of_getLast? he))

theorem piecesOf_of_not_mem (h : '/' ∉ line) :
    piecesOf line = Piece.ofPattern true (unsigned (Form.trim line)) := by
  have hp : '/' ∉ unsigned (Form.trim line) := fun hm => h (mem_of_mem_trim (mem_of_mem_unsigned hm))
  rw [piecesOf, pieces, insertSlash_of_not_mem hp, dropDeepSlash_of_head]
  exact fun hh => hp (List.mem_of_mem_head? hh)

end Plain

def ofLine? (line : String) : Option Rule :=
  match ofLine line with
  | .ok r => r
  | .error _ => none

theorem source_of_ofLine? {line : String} {r : Rule} (h : ofLine? line = some r) : r.source = line := by
  unfold ofLine? ofLine at h
  split at h
  · rename_i heq
    subst h
    split at heq
    · cases heq
    · split at heq <;> cases heq
      rfl
  · cases h

theorem exists_of_any_ofLine? (line : String) (p : Rule → Bool) (h : (ofLine? line).any p = true) :
    ∃ r, ofLine line = .ok (some r) ∧ p r = true := by
  unfold ofLine? at h
  split at h
  · rename_i r hr
    cases r with
    | none => cases h
    | some r => exact ⟨r, hr, h⟩
  · cases h

section Compiling

variable {line : String} {ps : List Piece} {r : Rule} {x : Failure}

/-- Pieces lie no deeper than expressions may, unless there are too many hyphens in a class. -/
theorem exists_depth (ps : List Piece) : ∃ d, Shallow d ps ∧
    (Expr.maxDepth ≤ d → ∃ b, bracket b ∈ ps ∧ tooManyHyphens ≤ b.hyphens) := by
  by_cases h : ∃ b, bracket b ∈ ps ∧ tooManyHyphens ≤ b.hyphens
  · obtain ⟨d, hd⟩ := exists_shallow ps
    exact ⟨d, hd, fun _ => h⟩
  · refine ⟨249, ⟨by decide, fun b hb => ?_⟩, fun hle => absurd hle (by decide)⟩
    have hfew : b.hyphens < 496 := Nat.not_le.mp fun hle => h ⟨b, hb, hle⟩
    omega

/-- The expression of a line finds the paths that the line accepts, or something in the line is to blame. -/
theorem compile_textOf (line : List Char) :
    (∃ e, Expr.compile (textOf line) = .ok e ∧
        ∀ s : String, e.matchesText s = true ↔ Accepted line s.toList) ∨
      ∃ f, Blame line f ∧ Expr.compile (textOf line) = .error f := by
  obtain ⟨d, hd, hdeep⟩ := exists_depth (piecesOf line)
  rcases read_assemble hd (isAnchored line) (isDirectory line) with
    ⟨item, hread, hdepth, hm⟩ | ⟨⟨b, hb, hrev⟩, hread⟩
  · rw [textOf, Expr.compile_of_read hread]
    by_cases hover : Expr.maxDepth < item.depth
    · obtain ⟨b, hb, hle⟩ := hdeep (by omega)
      exact .inr ⟨_, .hyphens (hasClass_of_mem hb) hle, if_pos hover⟩
    · rw [if_neg hover]
      by_cases hlarge : Expr.maxWeight < item.expr.weight
      · exact .inr ⟨_, .size, if_pos hlarge⟩
      · exact .inl ⟨_, if_neg hlarge, hm⟩
  · refine .inr ⟨_, .reversed (hasClass_of_mem hb) hrev, ?_⟩
    rw [textOf, Expr.compile, Expr.parse, hread]; rfl

theorem text_of_form {line : List Char} {form : Form} (h : Form.ofLine? line = some form) :
    form.text = textOf line := by
  rw [ofLine?_eq] at h
  split at h
  · cases h
  · cases h; rfl

/-- A line that is neither blank nor a comment nor a lone `!`. -/
structure Kept (line : List Char) : Prop where
  not_blank : Form.trim line ≠ []
  not_comment : (Form.trim line).head? ≠ some '#'
  not_sign : unsigned (Form.trim line) ≠ []

theorem kept_of_form {line : List Char} {form : Form} (h : Form.ofLine? line = some form) : Kept line := by
  rw [ofLine?_eq] at h
  split at h
  · cases h
  · rename_i hk
    rw [not_or, not_or] at hk
    exact ⟨hk.1, hk.2.1, hk.2.2⟩

theorem Kept.exists_form {line : List Char} (h : Kept line) : ∃ form, Form.ofLine? line = some form := by
  rw [ofLine?_eq]
  exact ⟨_, if_neg fun hk => hk.elim h.not_blank fun hk => hk.elim h.not_comment h.not_sign⟩

theorem kept_of_ofLine (h : Rule.ofLine line = .ok (some r)) : Kept line.toList := by
  unfold Rule.ofLine at h
  split at h
  · cases h
  · rename_i form hform; exact kept_of_form hform

theorem Kept.exists_rule (h : Kept line.toList) {e : Expr} (he : Expr.compile (textOf line.toList) = .ok e) :
    ∃ r, Rule.ofLine line = .ok (some r) := by
  obtain ⟨form, hform⟩ := h.exists_form
  simp only [Rule.ofLine, hform, text_of_form hform, he]
  exact ⟨_, rfl⟩

theorem Kept.ofLine_error (h : Kept line.toList) {f : Expr.Fault}
    (hf : Expr.compile (textOf line.toList) = .error f) :
    Rule.ofLine line = .error (.compile .gitignore line (.expr f)) := by
  obtain ⟨form, hform⟩ := h.exists_form
  simp only [Rule.ofLine, hform, text_of_form hform, hf]

/-- A line that is kept has a rule if its expression compiles, and fails otherwise. -/
theorem Kept.ofLine_cases (h : Kept line.toList) :
    (∃ r, Rule.ofLine line = .ok (some r)) ∨
      ∃ x f, Rule.ofLine line = .error x ∧ Expr.compile (textOf line.toList) = .error f := by
  cases hc : Expr.compile (textOf line.toList) with
  | ok e => exact .inl (h.exists_rule hc)
  | error f => exact .inr ⟨_, f, h.ofLine_error hc, rfl⟩

theorem compile_of_ofLine (h : Rule.ofLine line = .ok (some r)) :
    Expr.compile (textOf line.toList) = .ok r.expr := by
  unfold Rule.ofLine at h
  split at h
  · cases h
  · rename_i form hform
    rw [text_of_form hform] at h
    split at h
    · rename_i e he; cases h; exact he
    · cases h

theorem matchesPath_iff (h : Rule.ofLine line = .ok (some r)) (path : String) :
    r.matchesPath path = true ↔ Accepted line.toList path.toList := by
  rcases compile_textOf line.toList with ⟨e, he, hm⟩ | ⟨f, -, he⟩
  · obtain rfl : e = r.expr := Except.ok.inj (he.symm.trans (compile_of_ofLine h))
    exact hm path
  · cases he.symm.trans (compile_of_ofLine h)

/-- When a line fails to compile, its expression is refused for something in the line. -/
theorem blame_of_error (h : Rule.ofLine line = .error x) :
    ∃ f, x = .compile .gitignore line (.expr f) ∧ Blame line.toList f := by
  unfold Rule.ofLine at h
  split at h
  · cases h
  · rename_i form hform
    rw [text_of_form hform] at h
    rcases compile_textOf line.toList with ⟨e, he, -⟩ | ⟨f, hf, he⟩
    · rw [he] at h; cases h
    · rw [he] at h; cases h; exact ⟨f, rfl, hf⟩

end Compiling

end Exclusion.Rule
