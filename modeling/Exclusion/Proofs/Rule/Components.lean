import Exclusion.Proofs.Rule.Membership

/-! # Lines that look at one component

A line without a slash is free to begin and end at any component of a path. None of its pieces stands for a
slash but for a class that finds one, so that without such a class its rule matches a path exactly if it
matches one of the components alone.
-/

namespace Exclusion.Rule

open Form Piece

namespace Piece

/-- The piece stands for no slash. -/
def Flat : Piece → Prop
  | literal c => c ≠ '/'
  | quoted c => c ≠ '/'
  | bracket b => b.finds '/' = false
  | deepStart => False
  | deepMiddle => False
  | deepEnd => False
  | _ => True

variable {p : Piece} {ps : List Piece} {s w : List Char}

theorem Flat.slash_not_mem (h : p.Flat) (hp : p.Sound) (hw : p.Accepts w) : '/' ∉ w := by
  cases p with
  | literal c => obtain rfl : w = [c] := hw; simpa using Ne.symm h
  | quoted c => obtain rfl : w = [c] := hw; simpa using Ne.symm h
  | backslash => obtain rfl : w = ['\\'] := hw; decide
  | star => exact hw
  | question => obtain ⟨c, rfl, hc⟩ := hw; simpa using Ne.symm hc
  | bracket b =>
    obtain ⟨c, rfl, n, hn, hc⟩ := hw
    rw [hn.mem hp] at hc
    intro hm
    obtain rfl : '/' = c := List.mem_singleton.mp hm
    exact absurd (hc.symm.trans h) Bool.noConfusion
  | openBracket => obtain rfl : w = ['['] := hw; decide
  | deepStart => exact h.elim
  | deepMiddle => exact h.elim
  | deepEnd => exact h.elim

theorem slash_not_mem_of_acceptsAll (h : ∀ p ∈ ps, p.Flat) (hs : ∀ p ∈ ps, p.Sound) (hw : AcceptsAll ps w) :
    '/' ∉ w := by
  induction ps generalizing w with
  | nil => obtain rfl : w = [] := hw; exact List.not_mem_nil
  | cons p ps ih =>
    obtain ⟨u, v, rfl, hu, hv⟩ := hw
    rw [List.forall_mem_cons] at h hs
    rw [List.mem_append, not_or]
    exact ⟨h.1.slash_not_mem hs.1 hu, ih h.2 hs.2 hv⟩

theorem flat_of_mem_ofPattern {first : Bool} (h : '/' ∉ s) :
    ∀ p ∈ ofPattern first s, (∀ b, p = bracket b → b.finds '/' = false) → p.Flat := by
  have hrest {c : Char} {rest : List Char} (h : '/' ∉ c :: rest) : '/' ∉ rest :=
    fun hm => h (List.mem_cons_of_mem c hm)
  fun_induction ofPattern first s
  case case1 => exact fun p hp => absurd hp List.not_mem_nil
  case case2 => exact List.forall_mem_singleton.mpr fun _ => trivial
  case case3 c rest ih =>
    refine List.forall_mem_cons.mpr ⟨fun _ => ?_, ih (hrest (hrest h))⟩
    rintro rfl; exact h (by simp)
  case case4 => exact absurd List.mem_cons_self h
  case case5 => exact absurd List.mem_cons_self h
  case case6 => exact absurd (by simp) h
  case case7 rest _ ih => exact List.forall_mem_cons.mpr ⟨fun _ => trivial, ih (hrest h)⟩
  case case8 rest ih => exact List.forall_mem_cons.mpr ⟨fun _ => trivial, ih (hrest h)⟩
  case case9 rest slice after hclose ih =>
    obtain ⟨-, -, -, -, hsplit⟩ := Bracket.close?_eq_some_iff.mp hclose
    have hafter : '/' ∉ after := fun hm => h (by rw [hsplit]; simp [hm])
    exact List.forall_mem_cons.mpr ⟨fun hb => hb _ rfl, ih hafter⟩
  case case10 rest _ ih => exact List.forall_mem_cons.mpr ⟨fun _ => trivial, ih (hrest h)⟩
  case case11 c rest _ _ _ _ _ _ _ ih =>
    refine List.forall_mem_cons.mpr ⟨fun _ => ?_, ih (hrest h)⟩
    rintro rfl; exact h List.mem_cons_self

end Piece

variable {line : List Char} {cs : List (List Char)}

/-- A line without a slash accepts a path if its pieces accept a block of components that follow one another. -/
theorem accepted_iff_block (h : '/' ∉ line) (hcs : ∀ c ∈ cs, '/' ∉ c ∧ '\n' ∉ c) (hne : cs ≠ []) :
    Accepted line (join cs) ↔
      ∃ xs ys zs, cs = xs ++ (ys ++ zs) ∧ ys ≠ [] ∧ AcceptsAll (piecesOf line) (join ys) := by
  rw [Accepted, isAnchored_of_not_mem h, isDirectory_of_not_mem h]
  constructor
  · rintro ⟨u, v, t, he, hu, hv, ht⟩
    obtain ⟨xs, ys, zs, hsplit, hys, rfl⟩ := (join_eq_block_iff hcs hne).mp ⟨u, t, he, hu, ht⟩
    exact ⟨xs, ys, zs, hsplit, hys, hv⟩
  · rintro ⟨xs, ys, zs, hsplit, hys, hv⟩
    obtain ⟨u, t, he, hu, ht⟩ := (join_eq_block_iff hcs hne).mpr ⟨xs, ys, zs, hsplit, hys, rfl⟩
    exact ⟨u, _, t, he, hu, hv, ht⟩

theorem accepted_component_iff (h : '/' ∉ line) {c : List Char} (hc : '/' ∉ c ∧ '\n' ∉ c) :
    Accepted line c ↔ AcceptsAll (piecesOf line) c := by
  have hcs : ∀ d ∈ [c], '/' ∉ d ∧ '\n' ∉ d := by simpa using hc
  have hblock := accepted_iff_block h hcs (List.cons_ne_nil c [])
  rw [join_singleton] at hblock
  refine hblock.trans ⟨?_, fun hv => ⟨[], [c], [], rfl, List.cons_ne_nil c [], by rwa [join_singleton]⟩⟩
  rintro ⟨xs, ys, zs, he, hys, hv⟩
  rcases List.append_eq_singleton_iff.mp he.symm with ⟨-, he⟩ | ⟨-, he⟩
  · rcases List.append_eq_singleton_iff.mp he with ⟨rfl, -⟩ | ⟨rfl, -⟩
    · exact absurd rfl hys
    · rwa [join_singleton] at hv
  · exact absurd (List.append_eq_nil_iff.mp he).1 hys

/-- The components of a path, empty ones included. -/
def componentsOf (p : String) : List (List Char) := p.toList.splitOn '/'

theorem join_componentsOf (p : String) : join (componentsOf p) = p.toList := List.intercalate_splitOn '/'

theorem mem_componentsOf {p : String} (hp : '\n' ∉ p.toList) :
    ∀ c ∈ componentsOf p, '/' ∉ c ∧ '\n' ∉ c :=
  fun _ hc => ⟨(mem_of_mem_splitOn hc).1, fun hn => hp ((mem_of_mem_splitOn hc).2 _ hn)⟩

section Rules

variable {line : String} {r : Rule}

theorem matchesPath_iff_block (hline : '/' ∉ line.toList) (h : Rule.ofLine line = .ok (some r)) {p : String}
    (hp : '\n' ∉ p.toList) : r.matchesPath p = true ↔ ∃ xs ys zs, componentsOf p = xs ++ (ys ++ zs) ∧ ys ≠ [] ∧
      AcceptsAll (piecesOf line.toList) (join ys) := by
  rw [matchesPath_iff h, ← join_componentsOf p]
  exact accepted_iff_block hline (mem_componentsOf hp) (List.splitOn_ne_nil '/' _)

theorem matchesPath_iff_component (hline : '/' ∉ line.toList) (h : Rule.ofLine line = .ok (some r))
    {c : List Char} (hc : '/' ∉ c ∧ '\n' ∉ c) :
    r.matchesPath (String.ofList c) = true ↔ AcceptsAll (piecesOf line.toList) c := by
  rw [matchesPath_iff h, String.toList_ofList]
  exact accepted_component_iff hline hc

theorem matchesPath_of_component (hline : '/' ∉ line.toList) (h : Rule.ofLine line = .ok (some r)) {p : String}
    (hp : '\n' ∉ p.toList) {c : List Char} (hc : c ∈ componentsOf p) (hv : AcceptsAll (piecesOf line.toList) c) :
    r.matchesPath p = true := by
  obtain ⟨xs, zs, hsplit⟩ := List.append_of_mem hc
  refine (matchesPath_iff_block hline h hp).mpr ⟨xs, [c], zs, hsplit, List.cons_ne_nil c [], ?_⟩
  rwa [join_singleton]

/-- If the pieces accept no slash, the rule looks at one component at a time. -/
theorem matchesPath_iff_exists_component (hline : '/' ∉ line.toList) (h : Rule.ofLine line = .ok (some r))
    (hflat : ∀ w, AcceptsAll (piecesOf line.toList) w → '/' ∉ w) {p : String} (hp : '\n' ∉ p.toList) :
    r.matchesPath p = true ↔ ∃ c ∈ componentsOf p, AcceptsAll (piecesOf line.toList) c := by
  refine ⟨fun hm => ?_, fun ⟨c, hc, hv⟩ => matchesPath_of_component hline h hp hc hv⟩
  obtain ⟨xs, ys, zs, hsplit, hys, hv⟩ := (matchesPath_iff_block hline h hp).mp hm
  obtain ⟨c, rfl⟩ := exists_of_slash_not_mem_join hys (hflat _ hv)
  rw [join_singleton] at hv
  exact ⟨c, by rw [hsplit]; simp, hv⟩

/-- The rule of a line without a slash matches a path if it matches a component alone, and only then as far as
no class of the line finds a slash, which no other piece stands for. -/
theorem matchesPath_components (hline : '/' ∉ line.toList) (h : Rule.ofLine line = .ok (some r)) :
    (∀ q ∈ piecesOf line.toList, (∀ b, q ≠ bracket b) → ∀ w, q.Accepts w → '/' ∉ w) ∧
    (∀ p : String, '\n' ∉ p.toList → (∃ c ∈ componentsOf p, r.matchesPath (String.ofList c) = true) →
      r.matchesPath p = true) ∧
    ((∀ b, bracket b ∈ piecesOf line.toList → b.finds '/' = false) →
      (∀ q ∈ piecesOf line.toList, ∀ w, q.Accepts w → '/' ∉ w) ∧
      ∀ p : String, '\n' ∉ p.toList →
        (r.matchesPath p = true ↔ ∃ c ∈ componentsOf p, r.matchesPath (String.ofList c) = true)) := by
  have hpieces := piecesOf_of_not_mem hline
  have hsound : ∀ q ∈ piecesOf line.toList, q.Sound := by
    rw [hpieces]; exact ofPattern_sound true _
  have hflat : ∀ q ∈ piecesOf line.toList, (∀ b, q = bracket b → b.finds '/' = false) → q.Flat := by
    rw [hpieces]
    exact flat_of_mem_ofPattern fun hm => hline (mem_of_mem_trim (mem_of_mem_unsigned hm))
  have hone : ∀ p : String, '\n' ∉ p.toList →
      (∃ c ∈ componentsOf p, r.matchesPath (String.ofList c) = true) → r.matchesPath p = true := by
    rintro p hp ⟨c, hc, hm⟩
    rw [matchesPath_iff_component hline h (mem_componentsOf hp c hc)] at hm
    exact matchesPath_of_component hline h hp hc hm
  refine ⟨fun q hq hb w => (hflat q hq fun b he => absurd he (hb b)).slash_not_mem (hsound q hq), hone, ?_⟩
  intro hclasses
  have hall : ∀ q ∈ piecesOf line.toList, q.Flat := fun q hq => hflat q hq fun b he => hclasses b (he ▸ hq)
  refine ⟨fun q hq w => (hall q hq).slash_not_mem (hsound q hq), fun p hp => ?_⟩
  rw [matchesPath_iff_exists_component hline h (fun w => slash_not_mem_of_acceptsAll hall hsound) hp]
  exact exists_congr fun c => and_congr_right fun hc =>
    (matchesPath_iff_component hline h (mem_componentsOf hp c hc)).symm

/-- A class of letters does not find a slash. -/
theorem matchesPath_components_of_letters : ∃ r, Rule.ofLine "a[b-d]" = .ok (some r) ∧
    ∀ p : String, '\n' ∉ p.toList →
      (r.matchesPath p = true ↔ ∃ c ∈ componentsOf p, r.matchesPath (String.ofList c) = true) := by
  obtain ⟨r, hr, -⟩ := exists_of_any_ofLine? "a[b-d]" (fun _ => true) (by decide +kernel)
  have hpieces : piecesOf "a[b-d]".toList =
      [literal 'a', bracket ⟨false, [.plain 'b', .plain '-', .plain 'd']⟩] := by decide +kernel
  refine ⟨r, hr, ((matchesPath_components (by decide) hr).2.2 fun b hb => ?_).2⟩
  rw [hpieces] at hb
  obtain rfl : b = ⟨false, [.plain 'b', .plain '-', .plain 'd']⟩ := by simpa using hb
  decide

/-- A range from below the slash to above it finds one, as does the complement of a class without it. -/
theorem matchesPath_not_components :
    (∃ r, Rule.ofLine "a[+-9]c" = .ok (some r) ∧ r.matchesPath "a/c" = true ∧
      ∀ c ∈ componentsOf "a/c", r.matchesPath (String.ofList c) = false) ∧
    ∃ r, Rule.ofLine "a[!b]c" = .ok (some r) ∧ r.matchesPath "a/c" = true ∧
      ∀ c ∈ componentsOf "a/c", r.matchesPath (String.ofList c) = false := by
  have hp (r : Rule) (h : (r.matchesPath "a/c" &&
      (componentsOf "a/c").all fun c => !r.matchesPath (String.ofList c)) = true) :
      r.matchesPath "a/c" = true ∧ ∀ c ∈ componentsOf "a/c", r.matchesPath (String.ofList c) = false := by
    simpa using h
  obtain ⟨r, hr, hm⟩ := exists_of_any_ofLine? "a[+-9]c" (fun r => r.matchesPath "a/c" &&
      (componentsOf "a/c").all fun c => !r.matchesPath (String.ofList c)) (by decide +kernel)
  obtain ⟨r', hr', hm'⟩ := exists_of_any_ofLine? "a[!b]c" (fun r => r.matchesPath "a/c" &&
      (componentsOf "a/c").all fun c => !r.matchesPath (String.ofList c)) (by decide +kernel)
  exact ⟨⟨r, hr, hp r hm⟩, r', hr', hp r' hm'⟩

end Rules

end Exclusion.Rule
