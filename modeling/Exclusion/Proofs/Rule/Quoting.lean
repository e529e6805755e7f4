import Exclusion.Proofs.Rule.Components
import Exclusion.Proofs.Rule.Directory

/-! # Names behind backslashes

A line can spell any name with a backslash before each character. Its rule looks for that component, unless the
name ends in a space or a carriage return: trimming the line takes these away and leaves their backslash.
-/

namespace Exclusion.Rule

open Form Piece
open Exclusion.Expr (Spells Item)

/-- Each character of a name behind a backslash. -/
def backslashed (name : List Char) : List Char := name.flatMap fun c => ['\\', c]

/-- How many characters of a name are never too large for an expression. -/
def maxName : Nat := 80000

variable {s t : List Char} {c d : Char}

section Trimming

@[simp] theorem backslashed_nil : backslashed [] = [] := rfl

@[simp] theorem backslashed_cons (c : Char) (s : List Char) : backslashed (c :: s) = '\\' :: c :: backslashed s := rfl

theorem backslashed_concat (s : List Char) (c : Char) : backslashed (s ++ [c]) = backslashed s ++ ['\\'] ++ [c] := by
  simp [backslashed]

theorem slash_not_mem_backslashed (h : '/' ∉ s) : '/' ∉ backslashed s := by
  simpa [backslashed] using h

theorem exists_backslashed (s : List Char) : ∃ u, backslashed s ++ ['\\'] = '\\' :: u := by
  cases s <;> exact ⟨_, rfl⟩

theorem dropWhile_backslashed (s : List Char) :
    (backslashed s ++ ['\\']).dropWhile (· == ' ') = backslashed s ++ ['\\'] := by
  obtain ⟨u, hu⟩ := exists_backslashed s
  rw [hu]; rfl

/-- Only the last character of a name may be trimmed, but not its backslash. -/
theorem trim_backslashed (s : List Char) (c : Char) : Form.trim (backslashed (s ++ [c])) =
    backslashed s ++ ['\\'] ++ if c = ' ' ∨ c = '\r' then [] else [c] := by
  rw [backslashed_concat]
  split
  · rename_i hc
    rcases hc with rfl | rfl <;> cases s <;> simp [Form.trim, backslashed_nil]
  · rename_i hc
    rw [not_or] at hc
    rw [trim_concat hc.1 hc.2, dropWhile_backslashed]

end Trimming

section Pieces

theorem ofPattern_backslashed (first : Bool) (s t : List Char) :
    ∃ first', ofPattern first (backslashed s ++ t) = s.map Piece.quoted ++ ofPattern first' t := by
  induction s generalizing first with
  | nil => exact ⟨first, rfl⟩
  | cons c s ih =>
    obtain ⟨first', hs⟩ := ih false
    exact ⟨first', by simp [ofPattern, hs]⟩

def lastPiece (c : Char) : Piece := if c = ' ' ∨ c = '\r' then backslash else .quoted c

def lastChar (c : Char) : Char := if c = ' ' ∨ c = '\r' then '\\' else c

theorem lastPiece_text (c : Char) : (lastPiece c).text = Expr.quoteChar (lastChar c) := by
  unfold lastPiece lastChar
  split <;> rfl

theorem lastPiece_accepts {w : List Char} : (lastPiece c).Accepts w ↔ w = [lastChar c] := by
  unfold lastPiece lastChar
  split <;> rfl

theorem piecesOf_backslashed (h : '/' ∉ s ++ [c]) :
    piecesOf (backslashed (s ++ [c])) = s.map Piece.quoted ++ [lastPiece c] := by
  have hunsigned (u : List Char) : unsigned (backslashed s ++ ['\\'] ++ u) = backslashed s ++ ['\\'] ++ u := by
    obtain ⟨v, hv⟩ := exists_backslashed s
    rw [hv]; rfl
  rw [piecesOf_of_not_mem (slash_not_mem_backslashed h), trim_backslashed, hunsigned, List.append_assoc]
  obtain ⟨first, hs⟩ := ofPattern_backslashed true s (['\\'] ++ if c = ' ' ∨ c = '\r' then [] else [c])
  rw [hs, lastPiece]
  split <;> simp [ofPattern]

theorem acceptsAll_quoted {w : List Char} : AcceptsAll (s.map Piece.quoted) w ↔ w = s := by
  induction s generalizing w with
  | nil => rfl
  | cons c s ih =>
    constructor
    · rintro ⟨-, v, rfl, rfl, hv⟩; exact congrArg (c :: ·) (ih.mp hv)
    · rintro rfl; exact ⟨[c], s, rfl, rfl, ih.mpr rfl⟩

theorem acceptsAll_backslashed (h : '/' ∉ s ++ [c]) {w : List Char} :
    AcceptsAll (piecesOf (backslashed (s ++ [c]))) w ↔ w = s ++ [lastChar c] := by
  rw [piecesOf_backslashed h, acceptsAll_append]
  constructor
  · rintro ⟨u, v, rfl, hu, hv⟩
    rw [acceptsAll_quoted.mp hu, lastPiece_accepts.mp (acceptsAll_singleton.mp hv)]
  · rintro rfl
    exact ⟨s, _, rfl, acceptsAll_quoted.mpr rfl, acceptsAll_singleton.mpr (lastPiece_accepts.mpr rfl)⟩

theorem textOf_backslashed (h : '/' ∉ s ++ [c]) :
    textOf (backslashed (s ++ [c])) = head false ++ Expr.quote (s ++ [lastChar c]) ++ tail false := by
  have hslash := slash_not_mem_backslashed h
  have hquoted : (s.map Piece.quoted).flatMap Piece.text = Expr.quote s := by
    rw [List.flatMap_map]; rfl
  rw [textOf, isAnchored_of_not_mem hslash, isDirectory_of_not_mem hslash, assemble, if_neg Bool.false_ne_true,
    body_eq, ← piecesOf, piecesOf_backslashed h, List.flatMap_append, hquoted, List.flatMap_singleton,
    lastPiece_text, Expr.quote_append, Expr.quote_cons, Expr.quote_nil, List.append_nil]

end Pieces

section Size

def headItems : List Item := [.leaf (.look .textStart), .group [] [anyRun, .char '/']]

theorem spells_head : Spells (head false) headItems := by
  have hrun : Spells (['.'] ++ ['*'] ++ ['/']) [anyRun, .char '/'] :=
    (Spells.dot.star rfl).append (.char (by decide))
  exact Spells.textStart.append (Spells.nil.group hrun)

theorem weight_char_le (c : Char) : (Item.char c).expr.weight ≤ 128 := by
  have hsize : utf8Size c.toNat ≤ 4 := by unfold utf8Size; split <;> (try split) <;> (try split) <;> omega
  change (if c.toNat = c.toNat then 32 * utf8Size c.toNat else _) ≤ 128
  rw [if_pos rfl]
  omega

theorem jointWeight_chars_le (s : List Char) :
    Expr.jointWeight ((s.map Item.char).map (·.expr)) ≤ 128 * s.length := by
  induction s with
  | nil => exact Nat.le_refl 0
  | cons c s ih =>
    have hc := weight_char_le c
    rw [List.map_cons, List.map_cons, Expr.jointWeight, List.length_cons]
    omega

/-- A quoted name compiles between a head and a tail, unless it is too large. -/
theorem compile_quote_cases (s : List Char) :
    (∃ e, Expr.compile (head false ++ Expr.quote s ++ tail false) = .ok e) ∨
      maxName < s.length ∧ Expr.compile (head false ++ Expr.quote s ++ tail false) = .error .tooLarge := by
  have hspells := (spells_head.append (.quote s)).append spells_tail
  have hdepth : (Item.sequence (headItems ++ s.map Item.char ++ tailItems).reverse).depth ≤ 4 + 1 := by
    refine Item.sequence_depth fun item hm => ?_
    have hends : ∀ item ∈ headItems ++ tailItems, item.depth ≤ 4 := by decide
    simp only [List.mem_append, List.mem_map] at hm hends
    rcases hm with (hm | ⟨c, -, rfl⟩) | hm
    · exact hends item (.inl hm)
    · exact Nat.zero_le 4
    · exact hends item (.inr hm)
  have hweight : (Item.sequence (headItems ++ s.map Item.char ++ tailItems).reverse).expr.weight ≤
      128 * s.length + 2000 := by
    have hchars := jointWeight_chars_le s
    have hhead : Expr.jointWeight (headItems.map (·.expr)) ≤ 1000 := by decide +kernel
    have htail : Expr.jointWeight (tailItems.map (·.expr)) ≤ 1000 := by decide +kernel
    rw [Item.sequence_expr, Expr.weight_seqs, List.map_append, List.map_append, Expr.jointWeight_append,
      Expr.jointWeight_append]
    omega
  rw [Expr.compile_of_read hspells.read, if_neg (by unfold Expr.maxDepth; omega)]
  by_cases hlarge : Expr.maxWeight <
      (Item.sequence (headItems ++ s.map Item.char ++ tailItems).reverse).expr.weight
  · refine .inr ⟨?_, if_pos hlarge⟩
    have hmax : Expr.maxWeight = 10485760 := rfl
    unfold maxName
    omega
  · exact .inl ⟨_, if_neg hlarge⟩

end Size

section Rules

variable {r : Rule}

theorem kept_backslashed (s : List Char) (c : Char) : Kept (backslashed (s ++ [c])) := by
  obtain ⟨u, hu⟩ := exists_backslashed s
  constructor <;> rw [trim_backslashed, hu] <;> simp [unsigned]

theorem negated_of_ofLine {line : String} (h : Rule.ofLine line = .ok (some r)) :
    r.negated = decide ((Form.trim line.toList).head? = some '!') := by
  obtain ⟨form, hform⟩ := (kept_of_ofLine h).exists_form
  have hk := kept_of_ofLine h
  simp only [Rule.ofLine, hform] at h
  split at h
  · cases h
    rw [ofLine?_eq, if_neg fun hn => hn.elim hk.not_blank fun hn => hn.elim hk.not_comment hk.not_sign] at hform
    exact (Option.some.inj hform) ▸ rfl
  · cases h

theorem lastChar_ne_slash (h : c ≠ '/') : lastChar c ≠ '/' := by
  unfold lastChar
  split
  · decide
  · exact h

theorem matchesPath_backslashed {line : String} (hslash : '/' ∉ s ++ [c])
    (hline : line.toList = backslashed (s ++ [c])) (h : Rule.ofLine line = .ok (some r)) {p : String}
    (hp : '\n' ∉ p.toList) : r.matchesPath p = true ↔ s ++ [lastChar c] ∈ componentsOf p := by
  have hname : '/' ∉ s ++ [lastChar c] := by
    simp only [List.mem_append, List.mem_singleton, not_or] at hslash ⊢
    exact ⟨hslash.1, Ne.symm (lastChar_ne_slash (Ne.symm hslash.2))⟩
  have haccepts (w : List Char) : AcceptsAll (piecesOf line.toList) w ↔ w = s ++ [lastChar c] :=
    hline ▸ acceptsAll_backslashed hslash
  rw [matchesPath_iff_exists_component (hline ▸ slash_not_mem_backslashed hslash) h
    (fun w hw => (haccepts w).mp hw ▸ hname) hp]
  simp [haccepts]

theorem negated_backslashed {line : String} (hline : line.toList = backslashed (s ++ [c]))
    (h : Rule.ofLine line = .ok (some r)) : r.negated = false := by
  obtain ⟨u, hu⟩ := exists_backslashed s
  rw [negated_of_ofLine h, hline, trim_backslashed, hu]
  rfl

/-- With each character behind a backslash, a name is a line whose rule excludes the paths with that component,
unless it is too large. Where the name ends in a space or a carriage return, its rule looks for the backslash in
place of it. -/
theorem ofLine_backslashed {name : List Char} (hne : name ≠ []) (hslash : '/' ∉ name) :
    (∃ r, Rule.ofLine (String.ofList (backslashed name)) = .ok (some r) ∧ r.negated = false ∧
      ∀ p : String, '\n' ∉ p.toList →
        (name.getLast? ∉ [some ' ', some '\r'] → (r.matchesPath p = true ↔ name ∈ componentsOf p)) ∧
        (name.getLast? ∈ [some ' ', some '\r'] →
          (r.matchesPath p = true ↔ name.dropLast ++ ['\\'] ∈ componentsOf p))) ∨
    (maxName < name.length ∧ Rule.ofLine (String.ofList (backslashed name)) =
      .error (.compile .gitignore (String.ofList (backslashed name)) (.expr .tooLarge))) := by
  obtain ⟨s, c, rfl⟩ : ∃ s c, name = s ++ [c] := ⟨_, _, (List.dropLast_append_getLast hne).symm⟩
  generalize hline : String.ofList (backslashed (s ++ [c])) = line
  replace hline : line.toList = backslashed (s ++ [c]) := by rw [← hline, String.toList_ofList]
  have hk : Kept line.toList := hline ▸ kept_backslashed s c
  have htext := (congrArg textOf hline).trans (textOf_backslashed hslash)
  rcases compile_quote_cases (s ++ [lastChar c]) with ⟨e, he⟩ | ⟨hlen, he⟩
  · obtain ⟨r, hr⟩ := hk.exists_rule (htext ▸ he)
    refine .inl ⟨r, hr, negated_backslashed hline hr, fun p hp => ?_⟩
    rw [matchesPath_backslashed hslash hline hr hp, lastChar, List.getLast?_concat, List.dropLast_concat]
    simp only [List.mem_cons, List.not_mem_nil, or_false, Option.some.injEq]
    exact ⟨fun hc => by rw [if_neg hc], fun hc => by rw [if_pos hc]⟩
  · exact .inr ⟨by simpa using hlen, hk.ofLine_error (htext ▸ he)⟩

/-- A comment and a wildcard are names, too. -/
theorem ofLine_backslashed_comment : ∃ r, Rule.ofLine "\\#\\*" = .ok (some r) ∧ r.negated = false ∧
    ∀ p : String, '\n' ∉ p.toList → (r.matchesPath p = true ↔ ['#', '*'] ∈ componentsOf p) := by
  have hne : ['#', '*'] ≠ [] := by decide
  rcases ofLine_backslashed hne (by decide) with ⟨r, hr, hn, hm⟩ | ⟨hlen, -⟩
  · exact ⟨r, hr, hn, fun p hp => (hm p hp).1 (by decide)⟩
  · exact absurd hlen (by decide)

/-- A quoted space or carriage return at the end of the line is lost. -/
theorem ofLine_not_backslashed :
    (∃ r, Rule.ofLine (String.ofList (backslashed ['a', ' '])) = .ok (some r) ∧ r.matchesPath "a " = false ∧
      ['a', ' '] ∈ componentsOf "a ") ∧
    ∃ r, Rule.ofLine (String.ofList (backslashed ['a', '\r'])) = .ok (some r) ∧ r.matchesPath "a\r" = false ∧
      ['a', '\r'] ∈ componentsOf "a\r" := by
  obtain ⟨r, hr, hm⟩ := exists_of_any_ofLine? (String.ofList (backslashed ['a', ' ']))
    (fun r => !r.matchesPath "a ") (by decide +kernel)
  obtain ⟨r', hr', hm'⟩ := exists_of_any_ofLine? (String.ofList (backslashed ['a', '\r']))
    (fun r => !r.matchesPath "a\r") (by decide +kernel)
  exact ⟨⟨r, hr, by simpa using hm, by decide⟩, r', hr', by simpa using hm', by decide⟩

end Rules

end Exclusion.Rule
