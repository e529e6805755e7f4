import Exclusion.Proofs.Rule.Line

/-! # Hyphens that nest too deep

Two hyphens that meet in a class take everything before them as the left side of a difference, one level
deeper each time. So a class of many hyphens is refused for its depth, although none of its members is out of
order.
-/

namespace Exclusion.Rule

open Exclusion.Expr
open Form Piece

/-- A hyphen behind a backslash and `k` pairs of hyphens. -/
def hyphenClass (k : Nat) : Bracket := ⟨false, .quoted '-' :: List.replicate (2 * k) (.plain '-')⟩

def hyphenLine (k : Nat) : List Char := '[' :: '\\' :: '-' :: (List.replicate (2 * k) '-' ++ [']'])

namespace Member

theorem parts_hyphens (k : Nat) :
    parts (List.replicate (2 * k) (plain '-')) = List.replicate k .difference := by
  induction k with
  | zero => rfl
  | succ k ih => exact congrArg (Part.difference :: ·) ih

variable {op : SetOperator} {left : Nested} {complemented : Bool} {st : ClassState}

theorem complete_deeper (h : st.stack = [.operator op left, .opened complemented []]) : ∃ inner,
    Class.complete .initial (Class.gather st.items) st.stack = (inner, [.opened complemented []]) ∧
      left.depth < inner.depth :=
  ⟨_, complete_operator h, by dsimp only; omega⟩

theorem differences_deeper (k : Nat) (st : ClassState)
    (h : st.stack = [.operator op left, .opened complemented []]) :
    ∃ next op' left', (List.replicate k .difference).foldlM Part.apply st = .ok next ∧
      next.stack = [.operator op' left', .opened complemented []] ∧ left.depth + k ≤ left'.depth := by
  induction k generalizing st op left with
  | zero => exact ⟨st, op, left, rfl, h, Nat.le_refl _⟩
  | succ k ih =>
    obtain ⟨inner, hc, hlt⟩ := complete_deeper h
    obtain ⟨last, op', left', hlast, hs, hle⟩ :=
      ih ⟨[], [.operator .difference inner, .opened complemented []]⟩ rfl
    refine ⟨last, op', left', ?_, hs, by omega⟩
    rw [List.replicate_succ, List.foldlM_cons, Part.apply, hc]
    exact hlast

theorem close_deeper (h : st.stack = [.operator op left, .opened complemented []]) : ∃ n : Nested,
    left.depth < n.depth ∧ ∀ rest, Class.run .initial st (']' :: rest) = .ok (n, rest) := by
  obtain ⟨inner, hc, hlt⟩ := complete_deeper h
  exact ⟨_, Nat.lt_add_left 1 hlt, run_close_of_complete hc⟩

end Member

section Line

variable {k : Nat}

theorem written_hyphens (k : Nat) : Bracket.Written [] (hyphenClass k).members := by
  refine ⟨.inr (.inr ⟨rfl, nofun, nofun⟩), nofun, ?_, ?_⟩
  · simp [hyphenClass, List.mem_replicate]
  · simp [hyphenClass, List.mem_replicate]

theorem source_hyphens (k : Nat) :
    (hyphenClass k).members.flatMap Member.source = '\\' :: '-' :: List.replicate (2 * k) '-' := by
  have hflat (n : Nat) : (List.replicate n (Member.plain '-')).flatMap Member.source = List.replicate n '-' := by
    induction n with
    | zero => rfl
    | succ n ih => exact congrArg ('-' :: ·) ih
  exact congrArg ('\\' :: '-' :: ·) (hflat _)

/-- The class is read, and lies as deep as it has pairs of hyphens. -/
theorem readAs_hyphens (k : Nat) : ∃ n : Nested, (hyphenClass (k + 1)).ReadAs n ∧ k < n.depth := by
  have hsound : (hyphenClass (k + 1)).Sound := (written_hyphens (k + 1)).sound
  have hparts : Member.parts (hyphenClass (k + 1)).unread =
      .single (.quoted '-') :: .difference :: List.replicate k .difference :=
    congrArg (fun ps => Member.Part.single (.quoted '-') :: .difference :: ps) (Member.parts_hyphens k)
  -- The first pair of hyphens follows the one that is quoted.
  let first : ClassState := ⟨[], [.operator .difference ⟨.single '-'.toNat, 0⟩, .opened false []]⟩
  obtain ⟨next, op, left, hnext, hs, hle⟩ := Member.differences_deeper k first rfl
  obtain ⟨n, hn, hclose⟩ := Member.close_deeper hs
  refine ⟨n, fun rest => ?_, by omega⟩
  rw [Bracket.read_inner hsound, hparts]
  change (List.replicate k Member.Part.difference).foldlM Member.Part.apply first >>= _ = _
  rw [hnext]
  exact hclose rest

theorem trim_of_ends {c d : Char} {s : List Char} (hc : c ≠ ' ') (hd : d ≠ ' ') (hd' : d ≠ '\r') :
    Form.trim (c :: (s ++ [d])) = c :: (s ++ [d]) := by
  simp [Form.trim, hc, hd, hd']

theorem trim_hyphens (k : Nat) : Form.trim (hyphenLine k) = hyphenLine k :=
  trim_of_ends (s := '\\' :: '-' :: List.replicate (2 * k) '-') (by decide) (by decide) (by decide)

theorem no_slash_hyphens (k : Nat) : '/' ∉ hyphenLine k := by
  simp [hyphenLine, List.mem_replicate]

theorem close?_hyphens (k : Nat) : Bracket.close? ((hyphenLine k).drop 1) =
    some ([] ++ (hyphenClass k).members.flatMap Member.source, []) :=
  Bracket.close?_eq_some_iff.mpr ⟨_, _, written_hyphens k, rfl, by rw [source_hyphens]; rfl⟩

theorem piecesOf_hyphens (k : Nat) : piecesOf (hyphenLine k) = [.bracket (hyphenClass k)] := by
  rw [piecesOf_of_not_mem (no_slash_hyphens k), trim_hyphens]
  change Piece.ofPattern true ('[' :: (hyphenLine k).drop 1) = _
  rw [ofPattern_closed (close?_hyphens k), (written_hyphens k).ofSlice, Piece.ofPattern]
  rfl

theorem textOf_hyphens (k : Nat) :
    textOf (hyphenLine k) = head false ++ (hyphenClass k).text ++ tail false := by
  have htext : (Piece.bracket (hyphenClass k)).text = (hyphenClass k).text := rfl
  rw [textOf, isAnchored_of_not_mem (no_slash_hyphens k), isDirectory_of_not_mem (no_slash_hyphens k),
    body_eq, ← piecesOf, piecesOf_hyphens, assemble,
    if_neg Bool.false_ne_true, List.flatMap_singleton, htext]

/-- So many pairs of hyphens lie too deep. -/
theorem compile_hyphens (h : Expr.maxDepth ≤ k) :
    Expr.compile (textOf (hyphenLine (k + 1))) = .error .tooDeep := by
  obtain ⟨n, hn, hdepth⟩ := readAs_hyphens k
  obtain ⟨hd, hhead, is, his, -⟩ := denotes_head false
  obtain ⟨tl, htail, js, hjs, -⟩ := denotes_tail false
  have hspells := ((Spells.textStart.append his).append (hn.spells.append hjs)).append Spells.textEnd
  have htext : textOf (hyphenLine (k + 1)) =
      ['^'] ++ hd ++ ((hyphenClass (k + 1)).text ++ tl) ++ ['$'] := by
    rw [textOf_hyphens, hhead, htail]; simp
  rw [htext, Expr.compile_of_read hspells.read]
  refine if_pos (Nat.lt_of_lt_of_le (Nat.lt_of_le_of_lt h hdepth) ?_)
  exact Item.depth_le_sequence (show ⟨.atom n.set, n.depth, true⟩ ∈ _ by simp)

theorem hyphenClass_not_reversed (k : Nat) : ¬ (hyphenClass k).Reversed := by
  rintro ⟨low, high, hin, hlt⟩
  have hchar {m : Member} (hm : m ∈ (hyphenClass k).members) : m.char = '-' := by
    rcases List.mem_cons.mp hm with rfl | hm
    · rfl
    · rw [List.eq_of_mem_replicate hm]; rfl
  rw [hchar (hin.subset (by simp)), hchar (hin.subset (by simp))] at hlt
  exact absurd hlt (by decide)

theorem not_reversed_hyphens {b : Bracket} (h : HasClass (hyphenLine k) b) : ¬ b.Reversed := by
  have hb := h.piece
  rw [piecesOf_hyphens, List.mem_singleton] at hb
  obtain rfl : b = hyphenClass k := Piece.bracket.inj hb
  exact hyphenClass_not_reversed k

theorem kept_hyphens (k : Nat) : Kept (hyphenLine k) := by
  constructor <;> rw [trim_hyphens] <;> simp [hyphenLine, unsigned]

theorem ofLine_hyphens {line : String} (hline : line.toList = hyphenLine (k + 1)) (h : Expr.maxDepth ≤ k) :
    Rule.ofLine line = .error (.compile .gitignore line (.expr .tooDeep)) := by
  have hk : Kept line.toList := hline ▸ kept_hyphens (k + 1)
  exact hk.ofLine_error (hline ▸ compile_hyphens h)

/-- A line fails to compile although no class of it has a range in descending order. -/
theorem ofLine_too_deep : Rule.ofLine (String.ofList (hyphenLine 300)) =
      .error (.compile .gitignore (String.ofList (hyphenLine 300)) (.expr .tooDeep)) ∧
    ¬ ∃ b, HasClass (hyphenLine 300) b ∧ b.Reversed :=
  ⟨ofLine_hyphens (k := 299) String.toList_ofList (by decide), fun ⟨_, h, hr⟩ => not_reversed_hyphens h hr⟩

end Line

end Exclusion.Rule
