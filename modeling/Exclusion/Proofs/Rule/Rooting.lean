import Exclusion.Proofs.Rule.EndSlash

/-! # The slash that roots a pattern

A pattern with a directory in front of `*.` gets a slash before it. Its own slash binds the line to the root
already, and the one before it is taken away again, with a leading `/**/` or from the text of the body. So the form
of a line is the same without that slash, unless the pattern begins with a quoted one.
-/

namespace Exclusion.Rule

open Form Piece

namespace Form

def plainBody (pattern : List Char) : List Char :=
  (Piece.ofPattern true (dropDeepSlash pattern)).flatMap Piece.text

/-- The form of a line before whose pattern no slash is put. -/
def ofPlainLine? (line : List Char) : Option Form :=
  let line := trim line
  if line.isEmpty || line.head? == some '#' then none
  else
    let directory := line.getLast? == some '/'
    let anchored := '/' ∈ dropEndSlash line
    let (negated, pattern) :=
      match line with
      | '!' :: rest => (true, rest)
      | _ => (false, line)
    if pattern.isEmpty then none
    else some ⟨assemble anchored directory (plainBody pattern), negated⟩

/-- How the slash that is put before a pattern goes away again. -/
inductive Unrooted (pattern : List Char) : Prop
  /-- With the leading `/**/` that it makes. -/
  | deep (h : dropDeepSlash ('/' :: pattern) = pattern)
  /-- From the text of the body, of which it is the first character. -/
  | body (h : Form.body pattern = '/' :: plainBody pattern)

section Patterns

variable {s : List Char}

theorem exists_of_rootless (h : rootless s = true) : ∃ u r, s = u ++ '/' :: r ∧ r ≠ [] := by
  fun_induction rootless s with
  | case1 => cases h
  | case2 c r ih =>
    rcases Bool.or_eq_true_iff.mp h with hdot | hrest
    · refine ⟨[c], r, rfl, ?_⟩
      rintro rfl
      simp [starDot] at hdot
    · obtain ⟨u, t, hu, ht⟩ := ih hrest
      exact ⟨c :: u, t, by rw [hu]; rfl, ht⟩
  | case3 c rest _ ih =>
    obtain ⟨u, t, rfl, ht⟩ := ih h
    exact ⟨c :: u, t, rfl, ht⟩

theorem rootless_of_insertSlash (h : insertSlash s ≠ s) : rootless s = true := by
  rw [insertSlash] at h
  split at h
  · rename_i hs
    exact (Bool.and_eq_true_iff.mp hs).2
  · exact absurd rfl h

theorem mem_dropEndSlash {u r : List Char} (h : r ≠ []) : '/' ∈ dropEndSlash (u ++ '/' :: r) := by
  rw [dropEndSlash]
  split
  · rw [List.dropLast_append_of_ne_nil (List.cons_ne_nil _ _), List.dropLast_cons_of_ne_nil h]
    simp
  · simp

theorem ofPattern_first (h : ∀ r, s ≠ Segment.deep ++ '/' :: r) : ofPattern true s = ofPattern false s := by
  fun_cases ofPattern true s
  case case6 rest => exact absurd rfl (h rest)
  case case7 rest _ => rw [ofPattern]; simp
  case case9 rest slice after hclose => exact (ofPattern_closed hclose false).symm
  case case10 rest hclose => exact (ofPattern_unclosed hclose false).symm
  case case11 => rw [ofPattern] <;> assumption
  all_goals rw [ofPattern]

/-- The slash that is put before a pattern always goes away again. -/
theorem unrooted_of_insertSlash (h : insertSlash s ≠ s) : Unrooted s := by
  obtain ⟨hhead, hinsert⟩ := (insertSlash_cases s).resolve_left h
  rcases dropDeepSlash_cases ('/' :: s) with hkeep | ⟨r, hs, hdrop⟩
  · have hmiddle : ∀ r, s ≠ Segment.deep ++ '/' :: r := by
      rintro r rfl
      exact absurd (congrArg List.length hkeep) (by simp [dropDeepSlash, Segment.deep])
    have hend : s ≠ Segment.deep := by
      rintro rfl
      exact absurd (rootless_of_insertSlash h) (by decide)
    have hslash : (literal '/').text = ['/'] := by decide
    refine .body ?_
    rw [Form.body, plainBody, hinsert, hkeep, dropDeepSlash_of_head hhead, ofPattern_slash hend hmiddle,
      ofPattern_first hmiddle, List.flatMap_cons, hslash]
    rfl
  · exact .deep (hdrop.trans (List.cons.inj hs).2.symm)

theorem head_ofPattern_not_beginsSlash (hhead : s.head? ≠ some '/') (hquoted : ¬ ['\\', '/'] <+: s) :
    (ofPattern true s).head?.any beginsSlash = false := by
  fun_cases ofPattern true s
  case case3 c rest =>
    have hc : c ≠ '/' := by
      rintro rfl
      exact hquoted (List.prefix_append ['\\', '/'] rest)
    exact beq_false_of_ne hc
  case case11 c rest _ _ _ _ _ _ _ => exact beq_false_of_ne fun hc => hhead (congrArg some hc)
  all_goals first | rfl | exact absurd rfl hhead

theorem dropStartSlash_plainBody (hhead : s.head? ≠ some '/') (hquoted : ¬ ['\\', '/'] <+: s) :
    dropStartSlash (plainBody s) = plainBody s := by
  have hfirst := head_ofPattern_not_beginsSlash hhead hquoted
  rw [plainBody, dropDeepSlash_of_head hhead]
  cases hps : ofPattern true s with
  | nil => rfl
  | cons p ps =>
    rw [hps] at hfirst
    obtain ⟨c, t, ht, hc⟩ := head?_text (p := p) hfirst
    rw [List.flatMap_cons, ht]
    exact dropStartSlash.eq_2 _ fun rest he => hc (List.cons.inj he).1

end Patterns

section Lines

variable {line : List Char}

/-- A line before whose pattern a slash is put has one inside. -/
theorem isAnchored_of_insertSlash (h : insertSlash (unsigned (trim line)) ≠ unsigned (trim line)) :
    isAnchored line = true := by
  obtain ⟨u, r, hs, hr⟩ := exists_of_rootless (rootless_of_insertSlash h)
  obtain ⟨v, hv⟩ := unsigned_suffix (trim line)
  rw [isAnchored, ← hv, hs, ← List.append_assoc]
  exact decide_eq_true (mem_dropEndSlash hr)

theorem assemble_plainBody (hquoted : ¬ ['\\', '/'] <+: unsigned (trim line)) (directory : Bool) :
    assemble (isAnchored line) directory (body (unsigned (trim line))) =
      assemble (isAnchored line) directory (plainBody (unsigned (trim line))) := by
  by_cases h : insertSlash (unsigned (trim line)) = unsigned (trim line)
  · rw [Form.body, h]; rfl
  · obtain ⟨hhead, hinsert⟩ := (insertSlash_cases _).resolve_left h
    rcases unrooted_of_insertSlash h with hdeep | hbody
    · rw [Form.body, hinsert, hdeep, plainBody, dropDeepSlash_of_head hhead]
    · rw [isAnchored_of_insertSlash h, assemble, assemble, if_pos rfl, if_pos rfl, hbody,
        dropStartSlash_plainBody hhead hquoted]
      rfl

/-- The form of a line is the same when no slash is put before its pattern, unless the pattern begins with a quoted
slash. For where one is put, a slash inside binds the line to the root already, and the one in front goes away. -/
theorem ofLine?_eq_plain (line : List Char) :
    (¬ ['\\', '/'] <+: unsigned (trim line) → Form.ofLine? line = ofPlainLine? line) ∧
      (insertSlash (unsigned (trim line)) ≠ unsigned (trim line) →
        isAnchored line = true ∧ Unrooted (unsigned (trim line))) := by
  refine ⟨fun hquoted => ?_, fun h => ⟨isAnchored_of_insertSlash h, unrooted_of_insertSlash h⟩⟩
  have hbody := assemble_plainBody hquoted ((trim line).getLast? == some '/')
  simp only [isAnchored] at hbody
  simp only [Form.ofLine?, ofPlainLine?]
  generalize trim line = t at hbody ⊢
  fun_cases unsigned t
  case case1 rest =>
    simp only [unsigned] at hbody
    simp only [hbody]
  case case2 hsign =>
    rw [unsigned.eq_2 t hsign] at hbody
    simp only [hbody]

theorem ofLine?_eq_plain_of_extension : Form.ofLine? "!src/a*.c".toList = ofPlainLine? "!src/a*.c".toList ∧
    isAnchored "!src/a*.c".toList = true ∧ Unrooted (unsigned (trim "!src/a*.c".toList)) := by
  obtain ⟨hform, hrooted⟩ := ofLine?_eq_plain "!src/a*.c".toList
  exact ⟨hform (by decide), hrooted (by decide)⟩

/-- Behind the slash that is put in front, a quoted one stays. -/
example : Form.ofLine? "\\/a/*.c".toList ≠ ofPlainLine? "\\/a/*.c".toList := by decide +kernel

end Lines

end Form

end Exclusion.Rule
