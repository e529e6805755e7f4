import Exclusion.Proofs.Rule.Line

/-! # Patterns that end in a slash

A slash at the end of a pattern is read as a piece of its own, unless it ends a `**` that begins the pattern or
stands behind a slash. What the pieces accept then has a slash behind what they accept without it.
-/

namespace Exclusion.Rule

open Form Piece Segment

section Slash

variable {s : List Char}

theorem exists_of_append_slash {c : Char} {r rest : List Char} (h : s ++ '/' :: rest = c :: r) (hc : c ≠ '/') :
    ∃ t, s = c :: t ∧ r = t ++ '/' :: rest := by
  cases s with
  | nil => exact absurd (List.cons.inj h).1.symm hc
  | cons d s =>
    obtain ⟨rfl, rfl⟩ := List.cons.inj h
    exact ⟨s, rfl, rfl⟩

theorem starDot_append_slash (s : List Char) : starDot (s ++ ['/']) = starDot s := by
  fun_induction starDot s with
  | case1 => rfl
  | case2 c rest h ih =>
    rw [List.cons_append, starDot.eq_2, ih]
    intro tail hc he
    obtain ⟨t, rfl, -⟩ := exists_of_append_slash he (by decide)
    exact h t hc rfl
  | case3 => rfl

theorem rootless_append_slash (s : List Char) : rootless (s ++ ['/']) = rootless s := by
  fun_induction rootless s with
  | case1 => rfl
  | case2 c r ih =>
    rw [List.cons_append, List.cons_append, rootless.eq_2, starDot_append_slash, ← List.cons_append, ih]
  | case3 c rest h ih =>
    rw [← ih]
    cases rest with
    | nil => simp [rootless, starDot]
    | cons d rest =>
      have hd : d ≠ '/' := fun he => h rest (he ▸ rfl)
      simp [rootless, hd]

theorem insertSlash_append_slash (h : s ≠ []) : insertSlash (s ++ ['/']) = insertSlash s ++ ['/'] := by
  obtain ⟨c, s, rfl⟩ := List.exists_cons_of_ne_nil h
  rw [insertSlash, insertSlash, rootless_append_slash, List.cons_append, List.head?_cons, List.head?_cons]
  by_cases hc : (some c != some '/' && rootless (c :: s)) = true
  · rw [if_pos hc, if_pos hc]; rfl
  · rw [if_neg hc, if_neg hc]; rfl

theorem dropDeepSlash_append_slash (h : s ≠ '/' :: deep) :
    dropDeepSlash (s ++ ['/']) = dropDeepSlash s ++ ['/'] := by
  fun_cases dropDeepSlash s
  case case1 rest => rfl
  case case2 hs =>
    refine dropDeepSlash.eq_2 _ fun rest he => ?_
    match s, he with
    | ['/', '*', '*'], _ => exact h rfl
    | _ :: _ :: _ :: _ :: rest, he => simp at he; exact hs rest (by simp [he])

theorem dropStartSlash_append (h : s ≠ []) (t : List Char) : dropStartSlash (s ++ t) = dropStartSlash s ++ t := by
  obtain ⟨c, s, rfl⟩ := List.exists_cons_of_ne_nil h
  by_cases hc : c = '/'
  · subst hc; rfl
  · rw [dropStartSlash.eq_2 _ fun rest he => hc (List.cons.inj he).1]
    exact dropStartSlash.eq_2 _ fun rest he => hc (List.cons.inj he).1

theorem close?_append_slash (s : List Char) :
    Bracket.close? (s ++ ['/']) = (Bracket.close? s).map fun (slice, after) => (slice, after ++ ['/']) := by
  cases hc : Bracket.close? s with
  | some found =>
    obtain ⟨slice, after⟩ := found
    obtain ⟨neg, ms, hw, hslice, rfl⟩ := Bracket.close?_eq_some_iff.mp hc
    exact Bracket.close?_eq_some_iff.mpr ⟨neg, ms, hw, hslice, by simp⟩
  | none =>
    cases hc' : Bracket.close? (s ++ ['/']) with
    | none => rfl
    | some found =>
      obtain ⟨slice, after⟩ := found
      obtain ⟨neg, ms, hw, hslice, he⟩ := Bracket.close?_eq_some_iff.mp hc'
      rcases List.eq_nil_or_concat after with rfl | ⟨after, c, rfl⟩
      · exact absurd (List.append_inj' he rfl).2 (by decide)
      · rw [List.concat_eq_append, ← List.cons_append, ← List.append_assoc] at he
        have hs := Bracket.close?_eq_some_iff.mpr ⟨neg, ms, hw, hslice, (List.append_inj' he rfl).1⟩
        cases hc.symm.trans hs

theorem getLast?_ne_of_suffix {t : List Char} {c : Char} (h : s.getLast? ≠ some c) (ht : t <:+ s) :
    t.getLast? ≠ some c := by
  obtain ⟨pre, rfl⟩ := ht
  intro hc
  rw [List.getLast?_append, hc, Option.some_or] at h
  exact h rfl

theorem ofPattern_end_slash {first : Bool} (hs : s.getLast? ≠ some '\\') (hd : first = true → s ≠ deep)
    (hend : deepEnd ∉ ofPattern first s) :
    ofPattern first (s ++ ['/']) = ofPattern first s ++ [literal '/'] := by
  fun_induction ofPattern first s
  case case1 =>
    exact (ofPattern_slash (by decide : [] ≠ deep) (by simp [deep])).trans (by rw [ofPattern]; rfl)
  case case2 => exact absurd rfl hs
  case case3 c rest ih =>
    have hrest := getLast?_ne_of_suffix hs (List.suffix_append ['\\', c] rest)
    simp only [List.cons_append]
    rw [ofPattern, ih hrest (by simp) (by simpa using hend)]
  case case4 => exact absurd List.mem_cons_self hend
  case case5 rest ih =>
    have hrest := getLast?_ne_of_suffix hs (List.suffix_append ['/', '*', '*', '/'] rest)
    simp only [List.cons_append]
    rw [ofPattern, ih hrest (by simp) (by simpa using hend)]
  case case6 rest ih =>
    have hrest := getLast?_ne_of_suffix hs (List.suffix_append ['*', '*', '/'] rest)
    simp only [List.cons_append]
    rw [ofPattern, ih hrest (by simp) (by simpa using hend)]
  case case7 rest hne ih =>
    have hrest := getLast?_ne_of_suffix hs (List.suffix_cons '*' rest)
    rw [List.cons_append, ofPattern, ih hrest (by simp) (by simpa using hend), List.cons_append]
    -- The slash completes no `**/`, since the whole of the pattern is not `**`.
    intro r hf he
    obtain ⟨t, rfl, ht⟩ := exists_of_append_slash he (by decide)
    cases t with
    | nil => exact hd hf rfl
    | cons d t => exact hne t hf (by rw [(List.cons.inj ht).1])
  case case8 rest ih =>
    have hrest := getLast?_ne_of_suffix hs (List.suffix_cons '?' rest)
    rw [List.cons_append, ofPattern, ih hrest (by simp) (by simpa using hend), List.cons_append]
  case case9 rest slice after hclose ih =>
    obtain ⟨-, -, -, -, hrest⟩ := Bracket.close?_eq_some_iff.mp hclose
    have hafter : after.getLast? ≠ some '\\' := by
      refine getLast?_ne_of_suffix hs ⟨'[' :: (slice ++ [']']), ?_⟩
      rw [hrest]; simp
    have hclose' := (close?_append_slash rest).trans (congrArg _ hclose)
    rw [List.cons_append, ofPattern_closed hclose', ih hafter (by simp) (by simpa using hend), List.cons_append]
  case case10 rest hclose ih =>
    have hrest := getLast?_ne_of_suffix hs (List.suffix_cons '[' rest)
    have hclose' := (close?_append_slash rest).trans (congrArg _ hclose)
    rw [List.cons_append, ofPattern_unclosed hclose', ih hrest (by simp) (by simpa using hend), List.cons_append]
  case case11 c rest hlast hquote hdeep hmiddle hstar hquestion hopen ih =>
    have hrest := getLast?_ne_of_suffix hs (List.suffix_cons c rest)
    rw [List.cons_append, ofPattern, ih hrest (by simp) (by simpa using hend), List.cons_append]
    · simp
    · exact fun _ _ hc => absurd hc (ne_backslash hlast hquote)
    · intro _ he
      obtain ⟨t, -, ht⟩ := exists_of_append_slash he (by decide)
      cases t <;> simp at ht
    · intro r hc he
      obtain ⟨t, rfl, ht⟩ := exists_of_append_slash he (by decide)
      obtain ⟨t, rfl, ht'⟩ := exists_of_append_slash ht.symm (by decide)
      cases t with
      | nil => exact hdeep hc rfl
      | cons d t => exact hmiddle t hc (by rw [(List.cons.inj ht').1])
    · exact hstar
    · exact hquestion
    · exact hopen

theorem dropDeepSlash_cases (s : List Char) : dropDeepSlash s = s ∨
    ∃ r, s = '/' :: (deep ++ '/' :: r) ∧ dropDeepSlash s = deep ++ '/' :: r := by
  unfold dropDeepSlash
  split
  · rename_i r; exact .inr ⟨r, rfl, rfl⟩
  · exact .inl rfl

theorem getLast?_slashes (hne : s ≠ []) : (dropDeepSlash (insertSlash s)).getLast? = s.getLast? := by
  have hi : (insertSlash s).getLast? = s.getLast? := by
    rcases insertSlash_cases s with h | ⟨-, h⟩
    · rw [h]
    · rw [h, List.getLast?_cons_of_ne_nil hne]
  rw [← hi]
  rcases dropDeepSlash_cases (insertSlash s) with h | ⟨r, hs, h⟩
  · rw [h]
  · rw [h, hs]
    exact (List.getLast?_cons_of_ne_nil (by simp)).symm

/-- A pattern that is not `**` and does not end as one behind a slash keeps its pieces before a slash. -/
theorem pieces_end_slash (hne : s ≠ []) (hs : s.getLast? ≠ some '\\') (hd : s ≠ deep)
    (hend : deepEnd ∉ pieces s) : pieces (s ++ ['/']) = pieces s ++ [literal '/'] := by
  have hslash : insertSlash s ≠ '/' :: deep := fun he => by
    refine hend ?_
    rw [pieces, he]
    change deepEnd ∈ ofPattern true ('/' :: ['*', '*'])
    rw [ofPattern]
    exact List.mem_singleton_self _
  have hdeep : dropDeepSlash (insertSlash s) ≠ deep := by
    rcases dropDeepSlash_cases (insertSlash s) with h | ⟨r, -, h⟩ <;> rw [h]
    · rcases insertSlash_cases s with hi | ⟨-, hi⟩ <;> rw [hi]
      · exact hd
      · simp [deep]
    · simp [deep]
  rw [pieces, insertSlash_append_slash hne, dropDeepSlash_append_slash hslash,
    ofPattern_end_slash (by rwa [getLast?_slashes hne]) (fun _ => hdeep) hend]
  rfl

theorem text_ne_nil (p : Piece) : p.text ≠ [] := by
  cases h : p.beginsSlash with
  | true => obtain ⟨t, -, ht, -⟩ := denotes_behind_slash h; rw [ht]; nofun
  | false => obtain ⟨c, t, ht, -⟩ := head?_text h; rw [ht]; nofun

theorem ofPattern_ne_nil (first : Bool) (h : s ≠ []) : ofPattern first s ≠ [] := by
  fun_cases ofPattern first s
  case case1 => exact absurd rfl h
  all_goals exact List.cons_ne_nil _ _

theorem pieces_ne_nil (h : s ≠ []) : pieces s ≠ [] := by
  refine ofPattern_ne_nil true ?_
  rcases dropDeepSlash_cases (insertSlash s) with hd | ⟨r, -, hd⟩ <;> rw [hd]
  · rcases insertSlash_cases s with hi | ⟨-, hi⟩ <;> rw [hi]
    · exact h
    · nofun
  · simp

theorem body_ne_nil (h : s ≠ []) : body s ≠ [] := by
  obtain ⟨p, ps, hp⟩ := List.exists_cons_of_ne_nil (pieces_ne_nil h)
  rw [body_eq, hp, List.flatMap_cons]
  exact fun he => text_ne_nil p (List.append_eq_nil_iff.mp he).1

end Slash

section Accepting

variable {ps : List Piece} {p : Piece} {v w : List Char} {anchored : Bool}

theorem head_of_acceptsAll (hp : p.beginsSlash = true) (h : AcceptsAll (p :: ps) w) : ∃ t, w = '/' :: t := by
  obtain ⟨u, v, rfl, hu, -⟩ := h
  obtain ⟨-, L, -, -, hr⟩ := denotes_behind_slash hp
  rw [accepts_of_beginsSlash hp, hr] at hu
  obtain ⟨t, rfl, -⟩ := hu
  exact ⟨t ++ v, rfl⟩

theorem acceptsAll_end_slash (ps : List Piece) :
    AcceptsAll (ps ++ [literal '/']) v ↔ ∃ w, v = w ++ ['/'] ∧ AcceptsAll ps w := by
  rw [acceptsAll_append]
  refine exists_congr fun w => ?_
  constructor
  · rintro ⟨t, rfl, hw, ht⟩
    obtain rfl : t = ['/'] := acceptsAll_singleton.mp ht
    exact ⟨rfl, hw⟩
  · rintro ⟨rfl, hw⟩
    exact ⟨['/'], rfl, hw, acceptsAll_singleton.mpr rfl⟩

theorem acceptsBelow_of_beginsSlash (hp : p.beginsSlash = true) :
    AcceptsBelow (p :: ps) w ↔ AcceptsAll (p :: ps) ('/' :: w) := by
  simp [AcceptsBelow, hp]

theorem acceptsBelow_of_not_beginsSlash (hp : p.beginsSlash = false) :
    AcceptsBelow (p :: ps) w ↔ AcceptsAll (p :: ps) w := by
  simp [AcceptsBelow, hp]

theorem acceptsBelow_end_slash (hne : ps ≠ []) :
    AcceptsBelow (ps ++ [literal '/']) v ↔ ∃ w, v = w ++ ['/'] ∧ AcceptsBelow ps w := by
  obtain ⟨p, ps, rfl⟩ := List.exists_cons_of_ne_nil hne
  rw [List.cons_append]
  cases hp : p.beginsSlash with
  | false =>
    simp only [acceptsBelow_of_not_beginsSlash hp]
    exact acceptsAll_end_slash (p :: ps)
  | true =>
    simp only [acceptsBelow_of_beginsSlash hp]
    refine (acceptsAll_end_slash (p :: ps)).trans ⟨?_, ?_⟩
    · rintro ⟨w, he, hw⟩
      obtain ⟨t, rfl⟩ := head_of_acceptsAll hp hw
      exact ⟨t, (List.cons.inj he).2, hw⟩
    · rintro ⟨w, rfl, hw⟩
      exact ⟨'/' :: w, rfl, hw⟩

theorem bodyAccepts_end_slash (hne : ps ≠ []) :
    BodyAccepts anchored (ps ++ [literal '/']) v ↔ ∃ w, v = w ++ ['/'] ∧ BodyAccepts anchored ps w := by
  cases anchored with
  | false => exact acceptsAll_end_slash ps
  | true => exact acceptsBelow_end_slash hne

end Accepting

section Ends

variable {first anchored : Bool} {s v w : List Char} {p q : Piece} {ps qs : List Piece}

/-- The last piece stands for a slash at least, unless it is the only one and allows for none. -/
def EndsSlash (first : Bool) (ps : List Piece) : Prop :=
  ∃ qs q, ps = qs ++ [q] ∧
    (q = literal '/' ∨ q = .quoted '/' ∨ q = deepMiddle ∨ first = true ∧ q = deepStart ∧ qs = [])

theorem EndsSlash.cons (h : EndsSlash false ps) (p : Piece) : EndsSlash first (p :: ps) := by
  obtain ⟨qs, q, rfl, hq⟩ := h
  refine ⟨p :: qs, q, rfl, hq.imp_right (Or.imp_right (Or.imp_right ?_))⟩
  rintro ⟨hf, -⟩; cases hf

theorem endsSlash_singleton (h : q = literal '/' ∨ q = .quoted '/' ∨ q = deepMiddle ∨ first = true ∧ q = deepStart) :
    EndsSlash first [q] :=
  ⟨[], q, rfl, by simpa using h⟩

theorem endsSlash_ofPattern (h : s.getLast? = some '/') : EndsSlash first (ofPattern first s) := by
  have hrest {s rest : List Char} (h : s.getLast? = some '/') (hsuf : rest <:+ s) (hne : rest ≠ []) :
      rest.getLast? = some '/' := by
    obtain ⟨pre, rfl⟩ := hsuf
    rwa [List.getLast?_append_of_ne_nil pre hne] at h
  fun_induction ofPattern first s
  case case1 => cases h
  case case2 => cases h
  case case3 c rest ih =>
    by_cases hr : rest = []
    · subst hr
      obtain rfl : c = '/' := by simpa using h
      rw [ofPattern]
      exact endsSlash_singleton (.inr (.inl rfl))
    · exact (ih (hrest h (List.suffix_append ['\\', c] rest) hr)).cons _
  case case4 => cases h
  case case5 rest ih =>
    by_cases hr : rest = []
    · subst hr
      rw [ofPattern]
      exact endsSlash_singleton (.inr (.inr (.inl rfl)))
    · exact (ih (hrest h (List.suffix_append ['/', '*', '*', '/'] rest) hr)).cons _
  case case6 rest ih =>
    by_cases hr : rest = []
    · subst hr
      rw [ofPattern]
      exact endsSlash_singleton (.inr (.inr (.inr ⟨rfl, rfl⟩)))
    · exact (ih (hrest h (List.suffix_append ['*', '*', '/'] rest) hr)).cons _
  case case7 rest hne ih =>
    by_cases hr : rest = []
    · subst hr; cases h
    · exact (ih (hrest h (List.suffix_cons '*' rest) hr)).cons _
  case case8 rest ih =>
    by_cases hr : rest = []
    · subst hr; cases h
    · exact (ih (hrest h (List.suffix_cons '?' rest) hr)).cons _
  case case9 rest slice after hclose ih =>
    obtain ⟨-, -, -, -, hsplit⟩ := Bracket.close?_eq_some_iff.mp hclose
    by_cases hr : after = []
    · rw [hsplit, hr, ← List.cons_append, List.getLast?_concat] at h
      cases h
    · exact (ih (hrest h ⟨'[' :: (slice ++ [']']), by rw [hsplit]; simp⟩ hr)).cons _
  case case10 rest hclose ih =>
    by_cases hr : rest = []
    · subst hr; cases h
    · exact (ih (hrest h (List.suffix_cons '[' rest) hr)).cons _
  case case11 c rest hlast hquote hdeep hmiddle hstar hquestion hopen ih =>
    by_cases hr : rest = []
    · subst hr
      obtain rfl : c = '/' := by simpa using h
      rw [ofPattern]
      exact endsSlash_singleton (.inl rfl)
    · exact (ih (hrest h (List.suffix_cons c rest) hr)).cons _

theorem slash_mem_of_accepts (hq : q = literal '/' ∨ q = .quoted '/' ∨ q = deepMiddle) (hw : q.Accepts w) :
    '/' ∈ w := by
  rcases hq with rfl | rfl | rfl
  · obtain rfl : w = ['/'] := hw; exact List.mem_singleton_self _
  · obtain rfl : w = ['/'] := hw; exact List.mem_singleton_self _
  · rcases hw with rfl | ⟨u, rfl, -⟩
    · exact List.mem_singleton_self _
    · exact List.mem_cons_self

/-- Where a slash is taken as read, another one ends the pieces, unless there is only one. -/
theorem slash_mem_of_bodyAccepts (hq : q = literal '/' ∨ q = .quoted '/' ∨ q = deepMiddle)
    (hone : anchored = true → qs = [] → q.beginsSlash = false) (hv : BodyAccepts anchored (qs ++ [q]) v) :
    '/' ∈ v := by
  have hall {w : List Char} (hw : AcceptsAll (qs ++ [q]) w) : ∃ a b, w = a ++ b ∧ AcceptsAll qs a ∧ '/' ∈ b := by
    obtain ⟨a, b, rfl, ha, hb⟩ := acceptsAll_append.mp hw
    exact ⟨a, b, rfl, ha, slash_mem_of_accepts hq (acceptsAll_singleton.mp hb)⟩
  cases anchored with
  | false =>
    obtain ⟨a, b, rfl, -, hb⟩ := hall hv
    exact List.mem_append_right a hb
  | true =>
    cases qs with
    | nil =>
      obtain ⟨a, b, rfl, -, hb⟩ := hall ((acceptsBelow_of_not_beginsSlash (hone rfl rfl)).mp hv)
      exact List.mem_append_right a hb
    | cons p qs =>
      cases hp : p.beginsSlash with
      | false =>
        obtain ⟨a, b, rfl, -, hb⟩ := hall ((acceptsBelow_of_not_beginsSlash hp).mp hv)
        exact List.mem_append_right a hb
      | true =>
        obtain ⟨a, b, he, ha, hb⟩ := hall ((acceptsBelow_of_beginsSlash hp).mp hv)
        obtain ⟨t, rfl⟩ := head_of_acceptsAll hp ha
        rw [(List.cons.inj he).2]
        exact List.mem_append_right t hb

theorem eq_of_ofPattern_singleton (h : ofPattern first s = [q]) (hq : q = literal '/' ∨ q = .quoted '/') :
    s = ['/'] ∨ s = ['\\', '/'] := by
  have hnil {rest : List Char} (hr : ofPattern false rest = []) : rest = [] :=
    Decidable.byContradiction fun hne => ofPattern_ne_nil false hne hr
  fun_induction ofPattern first s
  case case3 c rest _ =>
    obtain ⟨hc, hr⟩ := List.cons.inj h
    rw [hnil hr]
    rcases hq with rfl | rfl <;> cases hc
    exact .inr rfl
  case case11 c rest _ _ _ _ _ _ _ _ =>
    obtain ⟨hc, hr⟩ := List.cons.inj h
    rw [hnil hr]
    rcases hq with rfl | rfl <;> cases hc
    exact .inl rfl
  all_goals rcases hq with rfl | rfl <;> cases h

end Ends

end Exclusion.Rule
