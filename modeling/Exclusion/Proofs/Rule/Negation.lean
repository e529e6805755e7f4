import Exclusion.Proofs.Rule.Directory

/-! # Negated lines

The sign of a negation in front of a line changes nothing but whether its rule selects or releases paths. What
binds the line to the root or to directories is read with the sign, and its pattern without.
-/

namespace Exclusion

def negate (line : String) : String := "!" ++ line

namespace Rule

open Form

/-- A line with a form that begins with neither a space nor the sign of a negation. -/
structure Upright (line : List Char) : Prop where
  form : ∃ form, Form.ofLine? line = some form
  no_space : line.head? ≠ some ' '
  no_sign : line.head? ≠ some '!'

def released (r : Rule) : Rule := { r with source := negate r.source, negated := true }

section Forms

variable {line s : List Char}

theorem head?_of_front {t : List Char} (h : s <+: t) (hs : s ≠ []) : s.head? = t.head? := by
  obtain ⟨rest, rfl⟩ := h
  rw [List.head?_append_of_ne_nil _ hs]

theorem trim_eq_trimEnd (h : line.head? ≠ some ' ') : Form.trim line = trimEnd line := by
  have hprefix := List.rdropWhile_prefix (· == '\r') line
  unfold List.rdropWhile at hprefix
  rw [Form.trim, trimEnd]
  cases hnoReturns : (line.reverse.dropWhile (· == '\r')).reverse with
  | nil => rw [List.reverse_eq_nil_iff.mp hnoReturns]; rfl
  | cons c rest =>
    have hc : c ≠ ' ' := by
      rintro rfl
      exact h (head?_of_front (hnoReturns ▸ hprefix) (List.cons_ne_nil _ _)).symm
    rw [List.dropWhile_cons_of_neg (by simpa using hc), ← hnoReturns, List.reverse_reverse]

theorem trim_negated (h : line.head? ≠ some ' ') : Form.trim ('!' :: line) = '!' :: Form.trim line := by
  rw [trim_eq_trimEnd h]
  exact trim_append (by decide) (by decide) [] line

theorem dropEndSlash_cons (c : Char) (h : s ≠ []) : dropEndSlash (c :: s) = c :: dropEndSlash s := by
  obtain ⟨d, s, rfl⟩ := List.exists_cons_of_ne_nil h
  rw [dropEndSlash, dropEndSlash, List.getLast?_cons_cons, List.dropLast_cons_cons]
  split <;> rfl

theorem ofLine?_negated {form : Form} (hspace : line.head? ≠ some ' ') (hsign : line.head? ≠ some '!')
    (h : Form.ofLine? line = some form) :
    form.negated = false ∧ Form.ofLine? ('!' :: line) = some { form with negated := true } := by
  have hkept := kept_of_form h
  have hhead : (Form.trim line).head? ≠ some '!' := by
    rwa [head?_of_front (trim_eq_trimEnd hspace ▸ trimEnd_prefix line) hkept.not_blank]
  have hdirectory : (('!' :: Form.trim line).getLast? == some '/') = ((Form.trim line).getLast? == some '/') := by
    rw [List.getLast?_cons_of_ne_nil hkept.not_blank]
  have hanchored : decide ('/' ∈ dropEndSlash ('!' :: Form.trim line)) =
      decide ('/' ∈ dropEndSlash (Form.trim line)) := by
    rw [dropEndSlash_cons '!' hkept.not_blank]; simp
  have hpattern : unsigned ('!' :: Form.trim line) = unsigned (Form.trim line) := (unsigned_of_head hhead).symm
  rw [ofLine?_eq, if_neg (by simp [hkept.not_blank, hkept.not_comment, hkept.not_sign])] at h
  rw [ofLine?_eq, trim_negated hspace, if_neg (by simp [unsigned, hkept.not_blank]), hdirectory, hanchored, hpattern]
  cases h
  exact ⟨decide_eq_false hhead, rfl⟩

end Forms

theorem toList_negate (line : String) : (negate line).toList = '!' :: line.toList := String.toList_append

/-- An upright line that compiles has a rule that selects, and its negation one that releases the same. -/
theorem Upright.ofLine_negate {line : String} (h : Upright line.toList) {o : Option Rule}
    (ho : Rule.ofLine line = .ok o) :
    ∃ r, o = some r ∧ r.negated = false ∧ Rule.ofLine (negate line) = .ok (some r.released) := by
  obtain ⟨form, hform⟩ := h.form
  obtain ⟨hsign, hnegated⟩ := ofLine?_negated h.no_space h.no_sign hform
  unfold Rule.ofLine at ho ⊢
  rw [toList_negate, hnegated]
  rw [hform] at ho
  cases hc : Expr.compile form.text with
  | error f => simp only [hc] at ho; cases ho
  | ok e => simp only [hc] at ho ⊢; cases ho; exact ⟨_, rfl, hsign, rfl⟩

end Rule

end Exclusion
