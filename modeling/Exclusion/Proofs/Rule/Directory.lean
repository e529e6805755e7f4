import Exclusion.Proofs.Rule.EndSlash

/-! # Lines for directories

A line that ends in a slash compiles if it does so without, and its rule matches what has a slash behind a path
that the line without it matches.
-/

namespace Exclusion.Rule

open Form Piece Segment

section Lines

variable {line s : List Char} {c : Char}

/-- The last character of a line that a slash may follow. -/
def Closing (c : Char) : Prop := c ∉ ['/', '\\', ' ', '\r']

theorem dropWhile_append_cons (p : Char → Bool) (hc : p c = false) (s t : List Char) :
    (s ++ c :: t).dropWhile p = s.dropWhile p ++ c :: t := by
  rw [List.dropWhile_append]
  split
  · rename_i he; simp [List.isEmpty_iff.mp he, hc]
  · rfl

theorem dropWhile_concat (hc : c ≠ ' ') :
    (s ++ [c]).dropWhile (· == ' ') = s.dropWhile (· == ' ') ++ [c] :=
  dropWhile_append_cons (· == ' ') (beq_false_of_ne hc) s []

def trimEnd (s : List Char) : List Char :=
  ((s.reverse.dropWhile (· == '\r')).dropWhile (· == ' ')).reverse

theorem trimEnd_append (hc : c ≠ ' ') (hc' : c ≠ '\r') (s t : List Char) :
    trimEnd (s ++ c :: t) = s ++ c :: trimEnd t := by
  simp [trimEnd, dropWhile_append_cons, hc, hc']

theorem trimEnd_prefix (s : List Char) : trimEnd s <+: s := by
  have hsuffix := (List.dropWhile_suffix (l := s.reverse.dropWhile (· == '\r')) (· == ' ')).trans
    (List.dropWhile_suffix (l := s.reverse) (· == '\r'))
  simpa [trimEnd] using List.reverse_prefix.mpr hsuffix

theorem trim_append (hc : c ≠ ' ') (hc' : c ≠ '\r') (s t : List Char) :
    Form.trim (s ++ c :: t) = s.dropWhile (· == ' ') ++ c :: trimEnd t := by
  simp [Form.trim, trimEnd, dropWhile_append_cons, hc, hc']

theorem trim_concat (hc : c ≠ ' ') (hc' : c ≠ '\r') :
    Form.trim (s ++ [c]) = s.dropWhile (· == ' ') ++ [c] :=
  trim_append hc hc' s []

theorem trim_end_slash (h : line.getLast? = some c) (hc : Closing c) :
    Form.trim (line ++ ['/']) = Form.trim line ++ ['/'] ∧ (Form.trim line).getLast? = some c := by
  simp only [Closing, List.mem_cons, List.not_mem_nil, or_false, not_or] at hc
  obtain ⟨s, rfl⟩ := List.getLast?_eq_some_iff.mp h
  rw [trim_concat hc.2.2.1 hc.2.2.2, trim_concat (by decide) (by decide), dropWhile_concat hc.2.2.1]
  exact ⟨rfl, List.getLast?_concat⟩

theorem isAnchored_end_slash (h : line.getLast? = some c) (hc : Closing c) :
    isAnchored (line ++ ['/']) = isAnchored line := by
  obtain ⟨ht, hl⟩ := trim_end_slash h hc
  have hne : (Form.trim line).getLast? ≠ some '/' := by
    rw [hl]; rintro ⟨⟩; exact hc (by simp)
  rw [isAnchored, isAnchored, ht, dropEndSlash, if_pos List.getLast?_concat, List.dropLast_concat,
    dropEndSlash, if_neg hne]

theorem isDirectory_end_slash (h : line.getLast? = some c) (hc : Closing c) :
    isDirectory (line ++ ['/']) = true ∧ isDirectory line = false := by
  obtain ⟨ht, hl⟩ := trim_end_slash h hc
  rw [isDirectory, isDirectory, ht, hl, List.getLast?_concat]
  refine ⟨by decide, beq_false_of_ne ?_⟩
  rintro ⟨⟩; exact hc (by simp)

theorem unsigned_of_head (h : s.head? ≠ some '!') : unsigned s = s := by
  fun_cases unsigned s
  case case1 => exact absurd rfl h
  case case2 => rfl

theorem unsigned_append (h : s ≠ []) (t : List Char) : unsigned (s ++ t) = unsigned s ++ t := by
  obtain ⟨c, s, rfl⟩ := List.exists_cons_of_ne_nil h
  by_cases hc : c = '!'
  · subst hc; rfl
  · rw [unsigned_of_head (by simpa using hc), unsigned_of_head (by simpa using hc)]

/-- A slash at the end of the line completes no `**`. -/
structure Extends (line : List Char) : Prop where
  shallow : unsigned (Form.trim line) ≠ deep
  ended : deepEnd ∉ piecesOf line

theorem Extends.piecesOf (he : Extends line) (h : line.getLast? = some c) (hc : Closing c)
    (hne : unsigned (Form.trim line) ≠ []) :
    Rule.piecesOf (line ++ ['/']) = Rule.piecesOf line ++ [literal '/'] := by
  obtain ⟨ht, hl⟩ := trim_end_slash h hc
  have hlast : (Form.trim line).getLast? ≠ some '\\' := by
    rw [hl]; rintro ⟨⟩; exact hc (by simp)
  have htrim : Form.trim line ≠ [] := by
    intro hn; rw [hn] at hl; cases hl
  rw [Rule.piecesOf, ht, unsigned_append htrim]
  exact pieces_end_slash hne (getLast?_ne_of_suffix hlast (unsigned_suffix _)) he.shallow he.ended

def bodyOf (line : List Char) : List Char :=
  if isAnchored line then dropStartSlash (body (unsigned (Form.trim line)))
  else body (unsigned (Form.trim line))

theorem textOf_eq (line : List Char) :
    textOf line = head (isAnchored line) ++ bodyOf line ++ tail (isDirectory line) := rfl

theorem Extends.bodyOf (he : Extends line) (h : line.getLast? = some c) (hc : Closing c)
    (hne : unsigned (Form.trim line) ≠ []) : Rule.bodyOf (line ++ ['/']) = Rule.bodyOf line ++ ['/'] := by
  have hbody : body (unsigned (Form.trim (line ++ ['/']))) = body (unsigned (Form.trim line)) ++ ['/'] := by
    have hslash : (literal '/').text = ['/'] := by decide
    rw [body_eq, ← Rule.piecesOf, he.piecesOf h hc hne, List.flatMap_append, List.flatMap_singleton, hslash]
    rfl
  rw [Rule.bodyOf, Rule.bodyOf, isAnchored_end_slash h hc, hbody]
  split
  · exact dropStartSlash_append (body_ne_nil hne) _
  · rfl

end Lines

section Compiling

open Exclusion.Expr (Spells Item)

def anyRun : Item := (Item.except '\n' 0).repeated 0

def tailItems : List Item := [.group [] [.char '/', anyRun], .leaf (.look .textEnd)]

def slashTailItems : List Item := [.char '/', .group [] [anyRun], .leaf (.look .textEnd)]

theorem spells_tail : Spells (tail false) tailItems := by
  have hrun : Spells (['/'] ++ (['.'] ++ ['*'])) [.char '/', anyRun] :=
    (Spells.char (by decide)).append (Spells.dot.star rfl)
  exact (Spells.nil.group hrun).append .textEnd

theorem spells_slashTail : Spells ('/' :: tail true) slashTailItems := by
  have hrun : Spells (['.'] ++ ['*']) [anyRun] := Spells.dot.star rfl
  exact (Spells.char (by decide : '/' ∉ Spells.starters)).append ((Spells.nil.group hrun).append .textEnd)

variable {is : List Item}

theorem weight_slashTail (is : List Item) : (Item.sequence (is ++ slashTailItems).reverse).expr.weight =
    (Item.sequence (is ++ tailItems).reverse).expr.weight := by
  rw [Item.sequence_expr, Item.sequence_expr, Expr.weight_seqs, Expr.weight_seqs, List.map_append,
    List.map_append, Expr.jointWeight_append, Expr.jointWeight_append, slashTailItems, tailItems]
  simp only [List.map_cons, List.map_nil, Item.group_expr, Expr.seqs, Expr.weight, Expr.jointWeight]
  omega

theorem depth_slashTail (is : List Item) : (Item.sequence (is ++ slashTailItems).reverse).depth ≤
    (Item.sequence (is ++ tailItems).reverse).depth := by
  have hlt {item : Item} (h : item ∈ is ++ tailItems) :
      item.depth < (Item.sequence (is ++ tailItems).reverse).depth :=
    Item.depth_lt_sequence h (by simp [tailItems])
  have hgroup : 4 < (Item.sequence (is ++ tailItems).reverse).depth :=
    hlt (List.mem_append_right is List.mem_cons_self)
  have hle : (Item.sequence (is ++ slashTailItems).reverse).depth ≤
      (Item.sequence (is ++ tailItems).reverse).depth - 1 + 1 := by
    refine Item.sequence_depth fun item hm => Nat.le_sub_one_of_lt ?_
    rcases List.mem_append.mp hm with hm | hm
    · exact hlt (List.mem_append_left _ hm)
    · have hall : ∀ item ∈ slashTailItems, item.depth ≤ 4 := by decide
      exact Nat.lt_of_le_of_lt (hall item hm) hgroup
  omega

/-- A text compiles before a slash and a tail for directories if it does so before another tail. -/
theorem exists_compile_slashTail {t : List Char} (h : Spells t is) {e : Expr}
    (hc : Expr.compile (t ++ tail false) = .ok e) :
    ∃ e', Expr.compile (t ++ '/' :: tail true) = .ok e' := by
  have hdepth := depth_slashTail is
  rw [Expr.compile_of_read (h.append spells_tail).read] at hc
  rw [Expr.compile_of_read (h.append spells_slashTail).read, weight_slashTail]
  split at hc
  · cases hc
  · rw [if_neg (by omega)]
    split at hc
    · cases hc
    · rename_i hweight
      exact ⟨_, if_neg hweight⟩

end Compiling

section Accepting

variable {q : Piece}

theorem accepted_end_slash {line path : List Char} {c : Char} (he : Extends line) (h : line.getLast? = some c)
    (hc : Closing c) (hne : unsigned (Form.trim line) ≠ []) (hpath : '\n' ∉ path) :
    Accepted (line ++ ['/']) path ↔ ∃ x y, path = x ++ '/' :: y ∧ Accepted line x := by
  obtain ⟨hd, hd'⟩ := isDirectory_end_slash h hc
  rw [Accepted, isAnchored_end_slash h hc, he.piecesOf h hc hne, hd]
  have hps : piecesOf line ≠ [] := pieces_ne_nil hne
  simp only [Accepted, hd', bodyAccepts_end_slash hps]
  constructor
  · rintro ⟨u, -, t, rfl, hu, ⟨w, rfl, hw⟩, -⟩
    exact ⟨u ++ w, t, by simp, u, w, [], by simp, hu, hw, .inl rfl⟩
  · rintro ⟨x, y, rfl, u, v, t, rfl, hu, hv, ht⟩
    obtain ⟨z, hz⟩ : ∃ z, t ++ '/' :: y = '/' :: z := by
      rcases ht with rfl | ⟨w, rfl, -⟩
      · exact ⟨y, rfl⟩
      · exact ⟨w ++ '/' :: y, rfl⟩
    have hsplit : u ++ (v ++ t) ++ '/' :: y = u ++ (v ++ ['/'] ++ z) := by
      simp [hz]
    refine ⟨u, v ++ ['/'], z, hsplit, hu, ⟨v, rfl, hv⟩, .inr fun hm => hpath ?_⟩
    rw [hsplit]
    simp [hm]

theorem not_isAnchored_of_singleton {line : List Char} (hne : unsigned (Form.trim line) ≠ [])
    (h : piecesOf line = [q]) (hq : q = literal '/' ∨ q = .quoted '/') : isAnchored line = false := by
  have hpattern : unsigned (Form.trim line) = ['/'] ∨ unsigned (Form.trim line) = ['\\', '/'] := by
    have hs := eq_of_ofPattern_singleton h hq
    rcases dropDeepSlash_cases (insertSlash (unsigned (Form.trim line))) with hd | ⟨r, -, hd⟩
    · rw [hd] at hs
      rcases insertSlash_cases (unsigned (Form.trim line)) with hi | ⟨-, hi⟩
      · rwa [hi] at hs
      · rw [hi] at hs
        simp [hne] at hs
    · rw [hd] at hs
      simp [deep] at hs
  have htrim : Form.trim line = unsigned (Form.trim line) ∨ Form.trim line = '!' :: unsigned (Form.trim line) := by
    unfold unsigned
    split
    · rename_i ht; exact .inr ht
    · exact .inl rfl
  rw [isAnchored]
  rcases hpattern with hp | hp <;> rw [hp] at htrim <;> rcases htrim with ht | ht <;> rw [ht] <;> decide

end Accepting

section Rules

variable {line : String} {r : Rule}

theorem exists_spells_of_compile {line : List Char} {e : Expr} (h : Expr.compile (textOf line) = .ok e) :
    ∃ is, Expr.Spells (head (isAnchored line) ++ bodyOf line) is := by
  obtain ⟨d, hd⟩ := exists_shallow (piecesOf line)
  rcases denotes_body_or_refuses hd (isAnchored line) with ⟨js, hjs, -⟩ | ⟨-, href⟩
  · obtain ⟨t, ht, is, his, -⟩ := denotes_head (isAnchored line)
    rw [ht]
    exact ⟨_, (Expr.Spells.textStart.append his).append hjs⟩
  · have hread : Expr.read (textOf line) = .error .descendingRange :=
      (refuses_between href (isAnchored line) (isDirectory line)).read
    rw [Expr.compile, Expr.parse, hread] at h
    cases h

theorem exists_ofLine_end_slash (h : Rule.ofLine line = .ok (some r)) {c : Char} (he : Extends line.toList)
    (hlast : line.toList.getLast? = some c) (hc : Closing c) : ∃ r', Rule.ofLine (line ++ "/") = .ok (some r') := by
  have hk := kept_of_ofLine h
  have htext : (line ++ "/").toList = line.toList ++ ['/'] := String.toList_append
  obtain ⟨is, his⟩ := exists_spells_of_compile (compile_of_ofLine h)
  have hk' : Kept (line ++ "/").toList := by
    obtain ⟨c, t, ht⟩ := List.exists_cons_of_ne_nil hk.not_blank
    rw [htext]
    refine ⟨?_, ?_, ?_⟩ <;> rw [(trim_end_slash hlast hc).1]
    · simp
    · simpa [ht] using hk.not_comment
    · rw [unsigned_append hk.not_blank]; simp
  rcases hk'.ofLine_cases with hr | ⟨-, f, -, hf⟩
  · exact hr
  · have hcompile := compile_of_ofLine h
    rw [textOf_eq, (isDirectory_end_slash hlast hc).2] at hcompile
    obtain ⟨e, he'⟩ := exists_compile_slashTail his hcompile
    rw [htext, textOf_eq, isAnchored_end_slash hlast hc, he.bodyOf hlast hc hk.not_sign,
      (isDirectory_end_slash hlast hc).1, ← List.append_assoc, List.append_assoc _ ['/']] at hf
    cases hf.symm.trans he'

/-- What a line for directories accepts has a slash, unless all of its pattern is `**/`. -/
theorem slash_mem_of_accepted {line path : List Char} (hk : Kept line) (hd : isDirectory line = true)
    (hp : piecesOf line ≠ [deepStart]) (h : Accepted line path) : '/' ∈ path := by
  obtain ⟨u, v, t, rfl, -, hv, -⟩ := h
  have hlast : (unsigned (Form.trim line)).getLast? = some '/' := by
    obtain ⟨pre, hpre⟩ := unsigned_suffix (Form.trim line)
    rw [isDirectory, beq_iff_eq, ← hpre, List.getLast?_append_of_ne_nil pre hk.not_sign] at hd
    exact hd
  obtain ⟨qs, q, hqs, hq⟩ : EndsSlash true (piecesOf line) :=
    endsSlash_ofPattern ((getLast?_slashes hk.not_sign).trans hlast)
  suffices '/' ∈ v by simp [this]
  rw [hqs] at hv
  -- Bound to the root, a single slash would be taken as read, but such a line is not.
  have hone (hslash : q = literal '/' ∨ q = .quoted '/') (ha : isAnchored line = true) (hnil : qs = []) :
      q.beginsSlash = false := by
    subst hnil
    rw [not_isAnchored_of_singleton hk.not_sign hqs hslash] at ha
    cases ha
  rcases hq with hq | hq | rfl | ⟨-, rfl, rfl⟩
  · exact slash_mem_of_bodyAccepts (.inl hq) (hone (.inl hq)) hv
  · exact slash_mem_of_bodyAccepts (.inr (.inl hq)) (hone (.inr hq)) hv
  · exact slash_mem_of_bodyAccepts (.inr (.inr rfl)) (fun _ _ => rfl) hv
  · exact absurd hqs hp

/-- With a slash at its end, a line matches what has a slash behind a path that it matches without, unless the
slash completes a `**`. And with a slash at its end no line matches a path that has none, unless all of its
pattern is `**/`. -/
theorem matchesPath_end_slash (h : Rule.ofLine line = .ok (some r)) :
    (∀ c, line.toList.getLast? = some c → c ∉ ['/', '\\', ' ', '\r'] →
      unsigned (Form.trim line.toList) ≠ ['*', '*'] → deepEnd ∉ piecesOf line.toList →
        ∃ r', Rule.ofLine (line ++ "/") = .ok (some r') ∧ ∀ p : String, '\n' ∉ p.toList →
          (r'.matchesPath p = true ↔ ∃ x y : String, p = x ++ "/" ++ y ∧ r.matchesPath x = true)) ∧
    (isDirectory line.toList = true → piecesOf line.toList ≠ [deepStart] →
      ∀ p : String, r.matchesPath p = true → '/' ∈ p.toList) := by
  have hk := kept_of_ofLine h
  refine ⟨fun c hlast hc hd he => ?_, fun hd hp p hm => ?_⟩
  · obtain ⟨r', hr'⟩ := exists_ofLine_end_slash h ⟨hd, he⟩ hlast hc
    refine ⟨r', hr', fun p hp => ?_⟩
    have htext : (line ++ "/").toList = line.toList ++ ['/'] := String.toList_append
    rw [matchesPath_iff hr', htext, accepted_end_slash ⟨hd, he⟩ hlast hc hk.not_sign hp]
    constructor
    · rintro ⟨x, y, hsplit, hx⟩
      refine ⟨String.ofList x, String.ofList y, String.toList_inj.mp ?_, ?_⟩
      · simpa using hsplit
      · rwa [matchesPath_iff h, String.toList_ofList]
    · rintro ⟨x, y, rfl, hx⟩
      exact ⟨x.toList, y.toList, by simp, (matchesPath_iff h x).mp hx⟩
  · exact slash_mem_of_accepted hk hd hp ((matchesPath_iff h p).mp hm)

/-- A negated line with a class. -/
theorem matchesPath_end_slash_of_class : ∃ r r', Rule.ofLine "!a/[b-d]" = .ok (some r) ∧
    Rule.ofLine ("!a/[b-d]" ++ "/") = .ok (some r') ∧ (∀ p : String, '\n' ∉ p.toList →
      (r'.matchesPath p = true ↔ ∃ x y : String, p = x ++ "/" ++ y ∧ r.matchesPath x = true)) ∧
    ∀ p : String, r'.matchesPath p = true → '/' ∈ p.toList := by
  obtain ⟨r, hr, -⟩ := exists_of_any_ofLine? "!a/[b-d]" (fun _ => true) (by decide +kernel)
  obtain ⟨r', hr', hm⟩ :=
    (matchesPath_end_slash hr).1 ']' (by decide) (by decide) (by decide) (by decide +kernel)
  exact ⟨r, r', hr, hr', hm, (matchesPath_end_slash hr').2 (by decide) (by decide +kernel)⟩

/-- The slash that completes a `**` is not looked for. -/
theorem matchesPath_not_end_slash : ∃ r r', Rule.ofLine "**" = .ok (some r) ∧
    Rule.ofLine ("**" ++ "/") = .ok (some r') ∧ r'.matchesPath "a" = true ∧
    ¬ ∃ x y : String, "a" = x ++ "/" ++ y ∧ r.matchesPath x = true := by
  obtain ⟨r, hr, -⟩ := exists_of_any_ofLine? "**" (fun _ => true) (by decide +kernel)
  obtain ⟨r', hr', hm⟩ := exists_of_any_ofLine? ("**" ++ "/") (·.matchesPath "a") (by decide +kernel)
  refine ⟨r, r', hr, hr', hm, ?_⟩
  rintro ⟨x, y, he, -⟩
  have hmem : '/' ∈ "a".toList := by rw [he]; simp
  exact absurd hmem (by decide)

end Rules

end Exclusion.Rule
