import Exclusion.Proofs.Rule.Line

/-! # What a rule takes along

A rule that matches a path matches what lies below it, and a rule that is not bound to the root matches the
path below any other. Both hold as far as no line break is added, since the head and the tail of an
expression stop at one.
-/

namespace Exclusion.Rule

open Form Piece

section Ends

variable {anchored directory : Bool} {t u w : List Char}

theorem Form.TailReads.below (h : TailReads directory t) (hw : '\n' ∉ w) :
    TailReads directory (t ++ '/' :: w) := by
  have hslash : '\n' ∉ '/' :: w := by simpa using hw
  cases directory with
  | true =>
    refine .inr ?_
    rcases h with rfl | ht
    · exact hslash
    · exact fun hm => (List.mem_append.mp hm).elim ht hslash
  | false =>
    refine .inr ?_
    rcases h with rfl | ⟨v, rfl, hv⟩
    · exact ⟨w, rfl, hw⟩
    · exact ⟨v ++ '/' :: w, rfl, fun hm => (List.mem_append.mp hm).elim hv hslash⟩

theorem Form.HeadReads.above (h : HeadReads false u) (hw : '\n' ∉ w) : HeadReads false (w ++ '/' :: u) := by
  refine .inr ?_
  rcases h with rfl | ⟨v, rfl, hv⟩
  · exact ⟨w, rfl, hw⟩
  · refine ⟨w ++ '/' :: v, by simp, fun hm => ?_⟩
    rcases List.mem_append.mp hm with hm | hm
    · exact hw hm
    · exact hv (by simpa using hm)

end Ends

variable {line p : List Char} {r : Rule}

theorem Accepted.below (h : Accepted line p) {q : List Char} (hq : '\n' ∉ q) :
    Accepted line (p ++ '/' :: q) := by
  obtain ⟨u, v, t, rfl, hu, hv, ht⟩ := h
  exact ⟨u, v, t ++ '/' :: q, by simp, hu, hv, ht.below hq⟩

theorem Accepted.above (h : Accepted line p) (hline : isAnchored line = false) {d : List Char} (hd : '\n' ∉ d) :
    Accepted line (d ++ '/' :: p) := by
  obtain ⟨u, v, t, rfl, hu, hv, ht⟩ := h
  rw [hline] at hu
  exact ⟨d ++ '/' :: u, v, t, by simp, hline ▸ hu.above hd, hv, ht⟩

/-- A rule matches what lies below a path that it matches, and if no slash but one at its end stands in the
line, also the path below any other, as far as no line break is added. -/
theorem matchesPath_closed {line : String} (h : Rule.ofLine line = .ok (some r)) {p : String}
    (hp : r.matchesPath p = true) :
    (∀ q : String, '\n' ∉ q.toList → r.matchesPath (p ++ "/" ++ q) = true) ∧
      ('/' ∉ dropEndSlash (Form.trim line.toList) →
        ∀ d : String, '\n' ∉ d.toList → r.matchesPath (d ++ "/" ++ p) = true) := by
  have hacc := (matchesPath_iff h p).mp hp
  refine ⟨fun q hq => ?_, fun hline d hd => ?_⟩
  · refine (matchesPath_iff h _).mpr ?_
    simpa using hacc.below hq
  · refine (matchesPath_iff h _).mpr ?_
    simpa using hacc.above (decide_eq_false hline) hd

/-- A class in a line for directories. -/
theorem matchesPath_closed_of_class : ∃ r, Rule.ofLine "[!a-c]?/" = .ok (some r) ∧
    r.matchesPath "xy/" = true ∧ r.matchesPath "xy//z/" = true ∧ r.matchesPath "w/xy/" = true := by
  obtain ⟨r, hr, hp⟩ := exists_of_any_ofLine? "[!a-c]?/" (·.matchesPath "xy/") (by decide +kernel)
  have h := matchesPath_closed hr hp
  exact ⟨r, hr, hp, h.1 "z/" (by decide), h.2 (by decide) "w" (by decide)⟩

/-- A line break in what is added is not matched. -/
theorem matchesPath_not_closed : ∃ r, Rule.ofLine "a" = .ok (some r) ∧ r.matchesPath "a" = true ∧
    r.matchesPath ("a" ++ "/" ++ "\n") = false ∧ r.matchesPath ("\n" ++ "/" ++ "a") = false := by
  obtain ⟨r, hr, hp⟩ := exists_of_any_ofLine? "a" (fun r => r.matchesPath "a" &&
    !r.matchesPath ("a" ++ "/" ++ "\n") && !r.matchesPath ("\n" ++ "/" ++ "a")) (by decide +kernel)
  exact ⟨r, hr, by simpa [and_assoc] using hp⟩

end Exclusion.Rule
