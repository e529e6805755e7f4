import Exclusion.Proofs.Rule.Depth

/-! # Classes are found, read and written in step

A `]` closes a bracket if it is not in first place and an even number of backslashes stands before it. The first
such `]` ends the class; what lies between is read without losing a character, written out member by member, and
then read again as one class. Without such a `]` the bracket stands for itself.
-/

namespace Exclusion.Rule

open Exclusion.Expr

def backslashes (s : List Char) : ℕ := (s.reverse.takeWhile (· == '\\')).length

/-- No backslash of the text is left to quote the character behind it. -/
def Spent (s : List Char) : Prop := backslashes s % 2 = 0

instance (s : List Char) : Decidable (Spent s) := inferInstanceAs (Decidable (_ = _))

section Spent

variable {s : List Char} {c : Char}

theorem backslashes_cons (c : Char) (s : List Char) :
    backslashes (c :: s) = if backslashes s = s.length ∧ c = '\\' then s.length + 1 else backslashes s := by
  rw [backslashes, List.reverse_cons, List.takeWhile_append, List.length_reverse]
  change (if backslashes s = s.length then _ else _ : List Char).length = _
  by_cases hs : backslashes s = s.length
  · by_cases hc : c = '\\'
    · simp [hs, hc]
    · simp [hs, hc]
  · simp only [hs, if_false, false_and]
    rfl

theorem spent_nil : Spent [] := rfl

theorem spent_cons (hc : c ≠ '\\') : Spent (c :: s) ↔ Spent s := by
  rw [Spent, backslashes_cons, if_neg fun h => hc h.2, Spent]

theorem spent_quoted (c : Char) (s : List Char) : Spent ('\\' :: c :: s) ↔ Spent s := by
  have hle : backslashes s ≤ s.length := by
    simpa [backslashes] using (List.takeWhile_prefix (· == '\\') (l := s.reverse)).length_le
  simp only [Spent, backslashes_cons, List.length_cons]
  split <;> split <;> grind

theorem not_spent_backslash : ¬ Spent ['\\'] := by decide

theorem spent_append (hc : c ≠ '\\') (before s : List Char) : Spent (before ++ c :: s) ↔ Spent s := by
  have hcount : backslashes (before ++ c :: s) = backslashes s := by
    rw [backslashes, List.reverse_append, List.reverse_cons, List.append_assoc, List.takeWhile_append,
      List.singleton_append, List.takeWhile_cons_of_neg (by simpa using hc), List.append_nil, backslashes]
    split
    · rename_i h; exact h.symm
    · rfl
  rw [Spent, hcount, Spent]

end Spent

namespace Bracket

open Member

variable {s u v slice after : List Char}

/-- What stands in front of a `]` that may close a bracket: a sign, if any, then something, and no backslash that
quotes the `]`. -/
structure Fills (u : List Char) : Prop where
  filled : (sign u).2 ≠ []
  spent : Spent u

theorem spent_source {ms : List Member} (h : .plain '\\' ∉ ms) : Spent (ms.flatMap Member.source) := by
  induction ms with
  | nil => exact spent_nil
  | cons m ms ih =>
    rw [List.mem_cons, not_or] at h
    cases m with
    | plain c => exact (spent_cons fun hc => h.1 (congrArg plain hc.symm)).mpr (ih h.2)
    | quoted c => exact (spent_quoted c _).mpr (ih h.2)

theorem exists_scan_of_spent (h : Spent u) (v : List Char) :
    ∃ slice after, scan (u ++ ']' :: v) = some (slice, after) ∧ slice.length ≤ u.length := by
  fun_induction scan u with
  | case1 => exact ⟨[], v, rfl, Nat.le_refl 0⟩
  | case2 rest => exact ⟨[], _, rfl, Nat.zero_le _⟩
  | case3 c rest ih =>
    obtain ⟨slice, after, hscan, hle⟩ := ih ((spent_quoted c rest).mp h)
    refine ⟨'\\' :: c :: slice, after, ?_, by simpa using hle⟩
    rw [List.cons_append, List.cons_append, scan, hscan]
    rfl
  | case4 => exact absurd h not_spent_backslash
  | case5 c rest hclose hquote hlast ih =>
    have hc : c ≠ '\\' := Piece.ne_backslash hlast hquote
    obtain ⟨slice, after, hscan, hle⟩ := ih ((spent_cons hc).mp h)
    refine ⟨c :: slice, after, ?_, by simpa using hle⟩
    rw [List.cons_append, scan.eq_5 _ _ hclose (fun _ _ he => absurd he hc) fun he => absurd he hc, hscan]
    rfl

theorem spent_sign (s : List Char) : Spent (sign s).2 ↔ Spent s := by
  fun_cases sign s with
  | case1 rest => exact (spent_cons (by decide)).symm
  | case2 rest => exact (spent_cons (by decide)).symm
  | case3 => exact Iff.rfl

theorem spent_firstClose (s : List Char) : Spent (firstClose s).2 ↔ Spent s := by
  fun_cases firstClose s with
  | case1 rest => exact (spent_cons (by decide)).symm
  | case2 => exact Iff.rfl

theorem sign_append_of_filled (h : (sign u).2 ≠ []) (t : List Char) :
    sign (u ++ t) = ((sign u).1, (sign u).2 ++ t) := by
  fun_cases sign u with
  | case1 rest => rfl
  | case2 rest => rfl
  | case3 _ h₁ h₂ =>
    rw [sign.eq_3 u h₁ h₂] at h
    obtain ⟨c, u, rfl⟩ := List.exists_cons_of_ne_nil h
    exact sign.eq_3 _ (fun _ he => h₁ u (by rw [(List.cons.inj he).1])) fun _ he => h₂ u (by rw [(List.cons.inj he).1])

theorem firstClose_append_of_filled (h : u ≠ []) (t : List Char) :
    firstClose (u ++ t) = ((firstClose u).1, (firstClose u).2 ++ t) := by
  fun_cases firstClose u with
  | case1 rest => rfl
  | case2 _ h₁ =>
    obtain ⟨c, u, rfl⟩ := List.exists_cons_of_ne_nil h
    exact firstClose.eq_2 _ fun _ he => h₁ u (by rw [(List.cons.inj he).1])

/-- A `]` that may close the bracket ends the class, if none before it does. -/
theorem Fills.exists_close (h : Fills u) (v : List Char) :
    ∃ slice after, close? (u ++ ']' :: v) = some (slice, after) ∧ slice.length ≤ u.length := by
  have hspent : Spent (firstClose (sign u).2).2 := (spent_firstClose _).mpr ((spent_sign u).mpr h.spent)
  obtain ⟨slice, after, hscan, hle⟩ := exists_scan_of_spent hspent v
  have hsign := congrArg List.length (Bracket.sign_append u)
  have hfirst := congrArg List.length (firstClose_append (sign u).2)
  refine ⟨(sign u).1 ++ (firstClose (sign u).2).1 ++ slice, after, ?_, ?_⟩
  · simp only [close?, sign_append_of_filled h.filled, firstClose_append_of_filled h.filled, hscan, Option.map_some]
  · simp only [List.length_append] at hsign hfirst ⊢
    omega

theorem fills_of_close? (h : close? s = some (slice, after)) : Fills slice ∧ s = slice ++ ']' :: after := by
  obtain ⟨neg, ms, hw, rfl, hs⟩ := close?_eq_some_iff.mp h
  have hsign : sign (neg ++ ms.flatMap Member.source) = (neg, ms.flatMap Member.source) := by
    simpa using hw.sign_append []
  obtain ⟨m, ms, rfl⟩ := List.exists_cons_of_ne_nil hw.filled
  refine ⟨⟨?_, ?_⟩, hs⟩
  · rw [hsign]
    cases m <;> exact List.cons_ne_nil _ _
  · rw [← spent_sign, hsign]
    exact spent_source hw.escaped

def unquote : List Char → List Char
  | '\\' :: c :: rest => c :: unquote rest
  | c :: rest => c :: unquote rest
  | [] => []

theorem unquote_cons {c : Char} (hc : c ≠ '\\') (rest : List Char) : unquote (c :: rest) = c :: unquote rest :=
  unquote.eq_2 _ _ fun _ _ he => absurd he hc

theorem unquote_source {ms : List Member} (h : .plain '\\' ∉ ms) :
    unquote (ms.flatMap Member.source) = ms.map Member.char := by
  induction ms with
  | nil => rfl
  | cons m ms ih =>
    rw [List.mem_cons, not_or] at h
    rw [List.map_cons, ← ih h.2]
    cases m with
    | plain c => exact unquote_cons (fun hc => h.1 (congrArg plain hc.symm)) _
    | quoted c => rfl

theorem unquote_text {ms : List Member} (h : .plain '\\' ∉ ms) :
    unquote (ms.flatMap Member.text) = ms.map Member.char := by
  induction ms with
  | nil => rfl
  | cons m ms ih =>
    rw [List.mem_cons, not_or] at h
    rw [List.map_cons, ← ih h.2, List.flatMap_cons]
    rcases text_cases (Ne.symm h.1) with ⟨ht, hc, -⟩ | ⟨ht, -⟩
    · rw [ht]
      exact unquote_cons (fun he => hc (by simp [he])) _
    · rw [ht]
      rfl

/-- The text of a class is read as one class that ends with it, whatever follows, unless a range of it has its ends
in descending order. Alone it is the whole expression, unless it nests too deep for its many hyphens. -/
inductive ReadsBack (b : Bracket) : Prop
  | whole {n : Nested} (read : ∀ rest, Class.read .initial (b.text.tail ++ rest) = .ok (n, rest))
    (parse : Expr.parse b.text = if Expr.maxDepth < n.depth then .error .tooDeep else .ok (.atom n.set))
    (hyphens : Expr.maxDepth < n.depth → 498 ≤ b.hyphens)
  | reversed (h : b.Reversed) (read : ∀ rest, Class.read .initial (b.text.tail ++ rest) = .error .descendingRange)

/-- The text of a class is the whole expression if it does not nest too deep. -/
theorem ReadAs.parse {b : Bracket} {n : Nested} (h : b.ReadAs n) :
    Expr.parse b.text = if Expr.maxDepth < n.depth then .error .tooDeep else .ok (.atom n.set) := by
  have hread : Expr.read b.text = .ok ⟨.atom n.set, n.depth, true⟩ := h.spells.read
  rw [Expr.parse, hread]
  rfl

theorem Sound.readsBack {b : Bracket} (h : b.Sound) : b.ReadsBack := by
  rcases read_cases h with ⟨n, hn, hdepth⟩ | ⟨hrev, hread⟩
  · refine .whole (fun rest => by rw [text_tail_append]; exact hn rest) hn.parse fun hdeep => ?_
    rw [Expr.maxDepth] at hdeep
    omega
  · exact .reversed hrev fun rest => by rw [text_tail_append]; exact hread rest

/-- How the slice of a class is read and written: none of its characters is lost, the text has the same members in
the same order, and it is one class again. -/
structure InStep (slice : List Char) (b : Bracket) : Prop where
  complemented : b.complemented = !(sign slice).1.isEmpty
  filled : b.members ≠ []
  unbroken : .plain '\\' ∉ b.members
  whole : (sign slice).2 = b.members.flatMap Member.source
  written : ∃ inner, b.text = '[' :: (if b.complemented then ['^'] else []) ++ inner ++ [']'] ∧
    unquote inner = unquote (sign slice).2 ∧ unquote inner = b.members.map Member.char
  readsBack : b.ReadsBack

theorem inStep_of_close? (h : close? s = some (slice, after)) : InStep slice (ofSlice slice) := by
  have hsound := sound_of_close? h
  obtain ⟨neg, ms, hw, rfl, -⟩ := close?_eq_some_iff.mp h
  have hsign : sign (neg ++ ms.flatMap Member.source) = (neg, ms.flatMap Member.source) := by
    simpa using hw.sign_append []
  rw [hw.ofSlice] at hsound ⊢
  refine ⟨by rw [hsign], hw.filled, hw.escaped, by rw [hsign], ⟨_, rfl, ?_, unquote_text hw.escaped⟩, hsound.readsBack⟩
  rw [hsign, unquote_text hw.escaped, unquote_source hw.escaped]

section Positions

variable {text : List Char} {start stop : ℕ}

def between (text : List Char) (start stop : ℕ) : List Char := (text.take stop).drop (start + 1)

/-- A `]` that no backslash quotes and that is not in first place behind a bracket and its sign. -/
structure MayClose (text : List Char) (start stop : ℕ) : Prop where
  lt : start < stop
  bracket : text[stop]? = some ']'
  filled : (sign (between text start stop)).2 ≠ []
  spent : Spent (text.take stop)

section Split

variable {before u v : List Char}

theorem take_append (before u v : List Char) :
    (before ++ '[' :: (u ++ ']' :: v)).take (before.length + 1 + u.length) = before ++ '[' :: u := by
  have htext : before ++ '[' :: (u ++ ']' :: v) = (before ++ '[' :: u) ++ ']' :: v := by simp
  rw [htext, List.take_left' (by simp; omega)]

theorem drop_append (before u v : List Char) :
    (before ++ '[' :: (u ++ ']' :: v)).drop (before.length + 1 + u.length) = ']' :: v := by
  have htext : before ++ '[' :: (u ++ ']' :: v) = (before ++ '[' :: u) ++ ']' :: v := by simp
  rw [htext, List.drop_left' (by simp; omega)]

theorem between_append (before u v : List Char) :
    between (before ++ '[' :: (u ++ ']' :: v)) before.length (before.length + 1 + u.length) = u := by
  rw [between, take_append, ← List.drop_drop, List.drop_left]
  rfl

theorem mayClose_iff_fills :
    MayClose (before ++ '[' :: (u ++ ']' :: v)) before.length (before.length + 1 + u.length) ↔ Fills u := by
  constructor
  · rintro ⟨-, -, hfilled, hspent⟩
    rw [between_append] at hfilled
    rw [take_append, spent_append (by decide)] at hspent
    exact ⟨hfilled, hspent⟩
  · rintro ⟨hfilled, hspent⟩
    refine ⟨by omega, ?_, by rwa [between_append], by rwa [take_append, spent_append (by decide)]⟩
    rw [← List.head?_drop, drop_append]
    rfl

end Split

theorem exists_split {c : Char} {i : ℕ} (h : text[i]? = some c) : ∃ u v, text = u ++ c :: v ∧ u.length = i := by
  obtain ⟨hlt, hget⟩ := List.getElem?_eq_some_iff.mp h
  refine ⟨text.take i, text.drop (i + 1), ?_, List.length_take_of_le hlt.le⟩
  rw [← hget, ← List.drop_eq_getElem_cons hlt, List.take_append_drop]

theorem MayClose.exists_fills {before s : List Char} (h : MayClose (before ++ '[' :: s) before.length stop) :
    ∃ u v, s = u ++ ']' :: v ∧ stop = before.length + 1 + u.length ∧ Fills u := by
  obtain ⟨k, rfl⟩ := Nat.exists_eq_add_of_lt h.lt
  have hbracket := h.bracket
  rw [List.getElem?_append_right (by omega), show before.length + k + 1 - before.length = k + 1 by omega,
    List.getElem?_cons_succ] at hbracket
  obtain ⟨u, v, rfl, rfl⟩ := exists_split hbracket
  have hstop : before.length + u.length + 1 = before.length + 1 + u.length := by omega
  rw [hstop] at h
  exact ⟨u, v, rfl, hstop, mayClose_iff_fills.mp h⟩

/-- The first `]` that may close a bracket. -/
def Closes (text : List Char) (start stop : ℕ) : Prop :=
  MayClose text start stop ∧ ∀ k < stop, ¬ MayClose text start k

/-- A class ends with the first `]` that may close it. -/
theorem closes_of_close? {before s : List Char} (h : close? s = some (slice, after)) :
    Closes (before ++ '[' :: s) before.length (before.length + 1 + slice.length) := by
  obtain ⟨hfills, rfl⟩ := fills_of_close? h
  refine ⟨mayClose_iff_fills.mpr hfills, fun k hk hmay => ?_⟩
  obtain ⟨u, v, hs, rfl, hu⟩ := hmay.exists_fills
  obtain ⟨slice', after', hclose, hle⟩ := hu.exists_close v
  rw [← hs, h] at hclose
  cases hclose
  omega

theorem not_mayClose_of_close? {before s : List Char} (h : close? s = none) (stop : ℕ) :
    ¬ MayClose (before ++ '[' :: s) before.length stop := fun hmay => by
  obtain ⟨u, v, rfl, -, hu⟩ := hmay.exists_fills
  obtain ⟨slice, after, hclose, -⟩ := hu.exists_close v
  cases h.symm.trans hclose

/-- At every bracket of a text the end that is found is the first `]` that may close it, and what is read and
written is the class in between. If none is found, no `]` may close the bracket, which then is a character like
others, and what follows it is read as if it were not there. -/
theorem close?_in_step (h : text[start]? = some '[') (first : Bool) :
    (∀ slice after, close? (text.drop (start + 1)) = some (slice, after) → ∃ stop, Closes text start stop ∧
      slice = between text start stop ∧ after = text.drop (stop + 1) ∧ InStep slice (ofSlice slice) ∧
      Piece.ofPattern first (text.drop start) = .bracket (ofSlice slice) :: Piece.ofPattern false after) ∧
    (close? (text.drop (start + 1)) = none → (∀ stop, ¬ MayClose text start stop) ∧
      Piece.openBracket.text = Expr.quoteChar '[' ∧
      Piece.ofPattern first (text.drop start) = .openBracket :: Piece.ofPattern false (text.drop (start + 1))) := by
  obtain ⟨before, s, rfl, rfl⟩ := exists_split h
  have hrest : (before ++ '[' :: s).drop (before.length + 1) = s := by
    rw [← List.drop_drop, List.drop_left]
    rfl
  rw [hrest, List.drop_left]
  constructor
  · intro slice after hclose
    refine ⟨before.length + 1 + slice.length, closes_of_close? hclose, ?_, ?_, inStep_of_close? hclose,
      Piece.ofPattern_closed hclose first⟩
    · obtain ⟨-, rfl⟩ := fills_of_close? hclose
      exact (between_append before slice after).symm
    · obtain ⟨-, rfl⟩ := fills_of_close? hclose
      rw [← List.drop_drop, drop_append]
      rfl
  · intro hclose
    exact ⟨not_mayClose_of_close? hclose, by decide, Piece.ofPattern_unclosed hclose first⟩

/-- A class with a sign, a `]` in first place and a `]` behind a backslash, and one that ends before either could. -/
theorem close?_in_step_of_quoted : "a[^]\\]]b".toList[1]? = some '[' ∧ "[!]".toList[0]? = some '[' ∧
    (∃ stop, Closes "a[^]\\]]b".toList 1 stop ∧ "^]\\]".toList = between "a[^]\\]]b".toList 1 stop ∧
      InStep "^]\\]".toList ⟨true, [.plain ']', .quoted ']']⟩) ∧
    (∀ stop, ¬ MayClose "[!]".toList 0 stop) ∧ Piece.ofPattern true "[!]".toList =
      .openBracket :: Piece.ofPattern false "!]".toList := by
  have hclosed : "a[^]\\]]b".toList[1]? = some '[' := by decide
  have hopen : "[!]".toList[0]? = some '[' := by decide
  obtain ⟨stop, hstop, hslice, -, hin, -⟩ := (close?_in_step hclosed false).1 "^]\\]".toList ['b'] (by decide)
  obtain ⟨hnone, -, hpieces⟩ := (close?_in_step hopen true).2 (by decide)
  exact ⟨hclosed, hopen, ⟨stop, hstop, hslice, hin⟩, hnone, hpieces⟩

/-- A class whose text is refused although none of its ranges is in descending order. -/
theorem parse_not_whole : ∃ slice, close? ((hyphenLine 300).drop 1) = some (slice, []) ∧
    ¬ (ofSlice slice).Reversed ∧ Expr.parse (ofSlice slice).text = .error .tooDeep := by
  refine ⟨_, close?_hyphens 300, ?_⟩
  rw [(written_hyphens 300).ofSlice]
  obtain ⟨n, hn, hdepth⟩ := readAs_hyphens 299
  refine ⟨hyphenClass_not_reversed 300, hn.parse.trans (if_pos ?_)⟩
  rw [Expr.maxDepth]
  omega

end Positions

end Bracket

end Exclusion.Rule
