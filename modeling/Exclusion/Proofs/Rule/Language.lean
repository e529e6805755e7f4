import Exclusion.Proofs.Expr.Denotation
import Exclusion.Rule.Form

/-! # What the pieces of a rule read

Each piece of a pattern reads certain parts of a path, and so do the head and the tail of its expression. The
texts of all of these denote what they read and nest only a few levels deep. Classes are left out.
-/

namespace Exclusion.Rule

open Exclusion.Expr (Denotes)

namespace Piece

/-- The parts of a path that a piece reads. Brackets depend on their members and are left open. -/
def Reads : Piece → List Char → Prop
  | literal c, w => w = [c]
  | quoted c, w => w = [c]
  | backslash, w => w = ['\\']
  | star, w => '/' ∉ w
  | question, w => ∃ c, w = [c] ∧ c ≠ '/'
  | bracket _, _ => False
  | openBracket, w => w = ['[']
  | deepStart, w => w = [] ∨ ∃ u, w = u ++ ['/'] ∧ '\n' ∉ u
  | deepMiddle, w => w = ['/'] ∨ ∃ u, w = '/' :: u ++ ['/'] ∧ u ≠ [] ∧ '\n' ∉ u
  | deepEnd, w => ∃ u, w = '/' :: u ∧ '\n' ∉ u

def ReadsAll : List Piece → List Char → Prop
  | [], w => w = []
  | p :: ps, w => ∃ u v, w = u ++ v ∧ p.Reads u ∧ ReadsAll ps v

theorem readsAll_append {ps qs : List Piece} {w : List Char} :
    ReadsAll (ps ++ qs) w ↔ ∃ u v, w = u ++ v ∧ ReadsAll ps u ∧ ReadsAll qs v := by
  induction ps generalizing w with
  | nil =>
    constructor
    · intro h; exact ⟨[], w, rfl, rfl, h⟩
    · rintro ⟨-, v, rfl, rfl, h⟩; exact h
  | cons p ps ih =>
    simp only [List.cons_append, ReadsAll, ih]
    constructor
    · rintro ⟨u, -, rfl, hu, v, t, rfl, hv, ht⟩
      exact ⟨u ++ v, t, by simp, ⟨u, v, rfl, hu, hv⟩, ht⟩
    · rintro ⟨-, t, rfl, ⟨u, v, rfl, hu, hv⟩, ht⟩
      exact ⟨u, v ++ t, by simp, hu, v, t, rfl, hv, ht⟩

theorem isPlain_of_needsQuote {c : Char} (h : needsQuote c = true) : Expr.Escape.isPlain c = true := by
  simp only [needsQuote, decide_eq_true_eq] at h
  have hall : ['.', '+', '(', ')', '|', '\x7b', '\x7d', '^', '$', ']'].all Expr.Escape.isPlain = true := by
    decide
  exact List.all_eq_true.mp hall c h

/-- Every character with which a construct begins is quoted, or has a piece of its own. -/
theorem starters_quoted : ∀ c ∈ Expr.Spells.starters, needsQuote c = true ∨ c ∈ ['\\', '*', '?', '['] := by
  have hall : Expr.Spells.starters.all (fun c => needsQuote c || ['\\', '*', '?', '['].elem c) = true := by
    decide
  intro c hc
  simpa using List.all_eq_true.mp hall c hc

/-- A literal is none of the characters that begin another piece. -/
def WellRead : Piece → Prop
  | literal c => c ∉ ['\\', '*', '?', '[']
  | bracket _ => False
  | _ => True

theorem denotes_literal {c : Char} (h : c ∉ ['\\', '*', '?', '[']) :
    Denotes 0 (literal c).text (· = [c]) := by
  change Denotes 0 (if needsQuote c then ['\\', c] else [c]) _
  split
  · rename_i hq; exact .quoted (isPlain_of_needsQuote hq)
  · rename_i hq
    refine .char fun hs => ?_
    rcases starters_quoted c hs with h' | h'
    · exact hq h'
    · exact h h'

theorem denotes_slash (d : Nat) : Denotes d ['/'] (· = ['/']) :=
  .char (by decide)

theorem denotes {p : Piece} (h : p.WellRead) : Denotes 6 p.text p.Reads := by
  cases p with
  | literal c => exact (denotes_literal h).mono (by decide)
  | quoted c => exact .quoteChar c
  | backslash => exact .quoted (by decide)
  | star => exact Denotes.notSlashStar.mono (by decide)
  | question => exact Denotes.notSlash.mono (by decide)
  | bracket b => exact h.elim
  | openBracket => exact .quoted (by decide)
  | deepStart =>
    have hd := (Denotes.nil (d := 1)).group (Denotes.dotStar.append (denotes_slash 1))
    refine Denotes.mono (Denotes.congr hd fun w => ?_) (by decide : 4 ≤ 6)
    constructor
    · rintro (rfl | ⟨u, -, rfl, hu, rfl⟩)
      · exact .inl rfl
      · exact .inr ⟨u, rfl, hu⟩
    · rintro (rfl | ⟨u, rfl, hu⟩)
      · exact .inl rfl
      · exact .inr ⟨u, _, rfl, hu, rfl⟩
  | deepMiddle =>
    have hd := (denotes_slash 1).group (((denotes_slash 1).append .dotPlus).append (denotes_slash 1))
    refine Denotes.mono (Denotes.congr hd fun w => ?_) (by decide : 4 ≤ 6)
    constructor
    · rintro (rfl | ⟨-, -, rfl, ⟨-, u, rfl, rfl, hu⟩, rfl⟩)
      · exact .inl rfl
      · exact .inr ⟨u, rfl, hu⟩
    · rintro (rfl | ⟨u, rfl, hu⟩)
      · exact .inl rfl
      · exact .inr ⟨_, _, rfl, ⟨_, u, rfl, rfl, hu⟩, rfl⟩
  | deepEnd =>
    refine Denotes.mono (((denotes_slash 1).append .dotStar).congr fun w => ?_) (by decide : 1 ≤ 6)
    constructor
    · rintro ⟨-, u, rfl, rfl, hu⟩; exact ⟨u, rfl, hu⟩
    · rintro ⟨u, rfl, hu⟩; exact ⟨_, u, rfl, rfl, hu⟩

def beginsSlash : Piece → Bool
  | literal c => c == '/'
  | quoted c => c == '/'
  | deepEnd => true
  | _ => false

theorem ne_backslash {c : Char} {rest : List Char} (hlast : c = '\\' → rest = [] → False)
    (hquote : ∀ d r, c = '\\' → rest = d :: r → False) : c ≠ '\\' := by
  intro hc
  cases rest with
  | nil => exact hlast hc rfl
  | cons d rest => exact hquote d rest hc rfl

section Bracket

variable {s slice after : List Char}

theorem ofPattern_closed (h : Bracket.close? s = some (slice, after)) (first : Bool) :
    ofPattern first ('[' :: s) = bracket (.ofSlice slice) :: ofPattern false after := by
  rw [ofPattern]
  split
  · rename_i heq
    cases h.symm.trans heq
    rfl
  · rename_i heq
    cases h.symm.trans heq

theorem ofPattern_unclosed (h : Bracket.close? s = none) (first : Bool) :
    ofPattern first ('[' :: s) = openBracket :: ofPattern false s := by
  rw [ofPattern]
  split
  · rename_i heq
    cases h.symm.trans heq
  · rfl

end Bracket

theorem ofPattern_wellRead {first : Bool} {s : List Char} (h : '[' ∉ s) :
    ∀ p ∈ ofPattern first s, p.WellRead := by
  fun_induction ofPattern first s
  case case11 c rest hlast hquote _ _ _ _ _ ih =>
    have hc := ne_backslash hlast hquote
    simp_all [WellRead]
  all_goals simp_all [WellRead]

theorem denotes_behind_slash {p : Piece} (h : p.beginsSlash = true) :
    ∃ t L, p.text = '/' :: t ∧ Denotes 6 t L ∧ ∀ w, p.Reads w ↔ ∃ v, w = '/' :: v ∧ L v := by
  cases p with
  | literal c =>
    obtain rfl : c = '/' := beq_iff_eq.mp h
    exact ⟨[], _, by decide, .nil, fun w => by simp [Reads]⟩
  | quoted c =>
    obtain rfl : c = '/' := beq_iff_eq.mp h
    exact ⟨[], _, by decide, .nil, fun w => by simp [Reads]⟩
  | deepEnd => exact ⟨['.', '*'], _, by decide, Denotes.dotStar.mono (by decide), fun w => Iff.rfl⟩
  | _ => exact absurd h Bool.false_ne_true

theorem head?_text {p : Piece} (h : p.beginsSlash = false) :
    ∃ c t, p.text = c :: t ∧ c ≠ '/' := by
  cases p with
  | literal c =>
    change ∃ d t, (if needsQuote c then ['\\', c] else [c]) = d :: t ∧ d ≠ '/'
    split
    · exact ⟨_, _, rfl, by decide⟩
    · exact ⟨_, _, rfl, beq_eq_false_iff_ne.mp h⟩
  | quoted c =>
    change ∃ d t, (if Expr.isMeta c then ['\\', c] else [c]) = d :: t ∧ d ≠ '/'
    split
    · exact ⟨_, _, rfl, by decide⟩
    · exact ⟨_, _, rfl, beq_eq_false_iff_ne.mp h⟩
  | bracket b => exact ⟨_, _, rfl, by decide⟩
  | deepEnd => exact absurd h (by decide)
  | backslash => exact ⟨'\\', ['\\'], by decide, by decide⟩
  | star => exact ⟨'[', "^/]*".toList, by decide, by decide⟩
  | question => exact ⟨'[', "^/]".toList, by decide, by decide⟩
  | openBracket => exact ⟨'\\', ['['], by decide, by decide⟩
  | deepStart => exact ⟨'(', "?:|.*/)".toList, by decide, by decide⟩
  | deepMiddle => exact ⟨'(', "?:/|/.+/)".toList, by decide, by decide⟩

/-- What pieces read below the root: a slash with which they begin is taken as read. -/
def ReadsBelow (ps : List Piece) (w : List Char) : Prop :=
  ReadsAll ps (if ps.head?.any beginsSlash then '/' :: w else w)

end Piece

namespace Form

open Piece

/-- What may precede: nothing or a slash below the root, else any directories. -/
def HeadReads (anchored : Bool) (w : List Char) : Prop :=
  w = [] ∨ if anchored then w = ['/'] else ∃ u, w = u ++ ['/'] ∧ '\n' ∉ u

/-- What may follow: the contents of a directory, behind its slash unless that was read. -/
def TailReads (directory : Bool) (w : List Char) : Prop :=
  w = [] ∨ if directory then '\n' ∉ w else ∃ u, w = '/' :: u ∧ '\n' ∉ u

def BodyReads (anchored : Bool) (ps : List Piece) (w : List Char) : Prop :=
  if anchored then ReadsBelow ps w else ReadsAll ps w

def pieces (pattern : List Char) : List Piece :=
  Piece.ofPattern true (dropDeepSlash (insertSlash pattern))

theorem body_eq (pattern : List Char) : body pattern = (pieces pattern).flatMap Piece.text := rfl

theorem denotes_head (anchored : Bool) :
    ∃ t, head anchored = '^' :: t ∧ Denotes 6 t (HeadReads anchored) := by
  cases anchored with
  | true =>
    refine ⟨['(', '?', ':'] ++ [] ++ '|' :: ['/'] ++ [')'], by decide, ?_⟩
    exact ((Denotes.nil (d := 0)).group (denotes_slash 0)).mono (by decide)
  | false =>
    refine ⟨['(', '?', ':'] ++ [] ++ '|' :: (['.', '*'] ++ ['/']) ++ [')'], by decide, ?_⟩
    refine Denotes.mono (((Denotes.nil (d := 1)).group (Denotes.dotStar.append (denotes_slash 1))).congr
      fun w => ?_) (by decide : 4 ≤ 6)
    constructor
    · rintro (rfl | ⟨u, -, rfl, hu, rfl⟩)
      · exact .inl rfl
      · exact .inr ⟨u, rfl, hu⟩
    · rintro (rfl | ⟨u, rfl, hu⟩)
      · exact .inl rfl
      · exact .inr ⟨u, _, rfl, hu, rfl⟩

theorem denotes_tail (directory : Bool) :
    ∃ t, tail directory = t ++ ['$'] ∧ Denotes 6 t (TailReads directory) := by
  cases directory with
  | true =>
    refine ⟨['(', '?', ':'] ++ [] ++ '|' :: ['.', '*'] ++ [')'], by decide, ?_⟩
    exact ((Denotes.nil (d := 1)).group .dotStar).mono (by decide)
  | false =>
    refine ⟨['(', '?', ':'] ++ [] ++ '|' :: (['/'] ++ ['.', '*']) ++ [')'], by decide, ?_⟩
    refine Denotes.mono (((Denotes.nil (d := 1)).group ((denotes_slash 1).append .dotStar)).congr
      fun w => ?_) (by decide : 4 ≤ 6)
    constructor
    · rintro (rfl | ⟨-, u, rfl, rfl, hu⟩)
      · exact .inl rfl
      · exact .inr ⟨u, rfl, hu⟩
    · rintro (rfl | ⟨u, rfl, hu⟩)
      · exact .inl rfl
      · exact .inr ⟨_, u, rfl, rfl, hu⟩

theorem mem_of_mem_slashes {pattern : List Char} {c : Char} (hc : c ≠ '/')
    (h : c ∈ dropDeepSlash (insertSlash pattern)) : c ∈ pattern := by
  have hi : c ∈ insertSlash pattern := by
    unfold dropDeepSlash at h
    split at h
    · rename_i heq; rw [heq]; exact List.mem_cons_of_mem _ h
    · exact h
  unfold insertSlash at hi
  split at hi
  · exact (List.mem_cons.mp hi).resolve_left hc
  · exact hi

theorem pieces_wellRead {pattern : List Char} (h : '[' ∉ pattern) : ∀ p ∈ pieces pattern, p.WellRead :=
  ofPattern_wellRead fun hb => h (mem_of_mem_slashes (by decide) hb)

end Form

end Exclusion.Rule
