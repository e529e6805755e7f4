import Exclusion.Proofs.Rule.Directory

/-! # Places in a pattern

A slash in a pattern is one of its separators unless a backslash stands before it or a class holds it. Up to
such a slash a pattern is read without regard to what follows, but for a `**` which takes that slash along.
-/

namespace Exclusion.Rule

open Form Piece Segment

variable {s t rest rest' slice after : List Char} {c : Char}

/-- What follows the text stands behind no backslash, and in no class that the text opens. -/
inductive Exposed (rest : List Char) : List Char → Prop
  | nil : Exposed rest []
  | quoted (c : Char) {s : List Char} : Exposed rest s → Exposed rest ('\\' :: c :: s)
  | closed {slice s : List Char} : Bracket.close? (slice ++ ']' :: (s ++ rest)) = some (slice, s ++ rest) →
      Exposed rest s → Exposed rest ('[' :: (slice ++ ']' :: s))
  | opened {s : List Char} : Bracket.close? (s ++ rest) = none → Exposed rest s → Exposed rest ('[' :: s)
  | plain {c : Char} {s : List Char} : c ≠ '\\' → c ≠ '[' → Exposed rest s → Exposed rest (c :: s)

def deeper (s : List Char) : List Char := deep ++ '/' :: s

namespace Exposed

theorem of_plain (h : Exposed rest (c :: s)) (hc : c ≠ '\\') (hc' : c ≠ '[') : Exposed rest s := by
  generalize ht : c :: s = t at h
  cases h with
  | nil => cases ht
  | quoted => exact absurd (List.cons.inj ht).1 hc
  | closed => exact absurd (List.cons.inj ht).1 hc'
  | opened => exact absurd (List.cons.inj ht).1 hc'
  | plain _ _ h => rw [(List.cons.inj ht).2]; exact h

theorem of_deeper (h : Exposed rest (Rule.deeper s)) : Exposed rest s :=
  ((h.of_plain (by decide) (by decide)).of_plain (by decide) (by decide)).of_plain (by decide) (by decide)

theorem of_quoted (h : Exposed rest ('\\' :: s)) : ∃ c t, s = c :: t ∧ Exposed rest t := by
  generalize ht : '\\' :: s = u at h
  cases h with
  | nil => cases ht
  | quoted c h => exact ⟨c, _, (List.cons.inj ht).2, h⟩
  | closed => exact absurd (List.cons.inj ht).1 (by decide)
  | opened => exact absurd (List.cons.inj ht).1 (by decide)
  | plain hc => exact absurd (List.cons.inj ht).1.symm hc

theorem of_bracket (h : Exposed rest ('[' :: s)) : (Bracket.close? (s ++ rest) = none ∧ Exposed rest s) ∨
    ∃ slice after, Bracket.close? s = some (slice, after) ∧ Exposed rest after := by
  generalize ht : '[' :: s = u at h
  cases h with
  | nil => cases ht
  | quoted => exact absurd (List.cons.inj ht).1 (by decide)
  | @closed slice after hclose h =>
    rw [(List.cons.inj ht).2]
    obtain ⟨neg, ms, hw, hslice, -⟩ := Bracket.close?_eq_some_iff.mp hclose
    exact .inr ⟨slice, after, Bracket.close?_eq_some_iff.mpr ⟨neg, ms, hw, hslice, rfl⟩, h⟩
  | opened hclose h => rw [(List.cons.inj ht).2]; exact .inl ⟨hclose, h⟩
  | plain _ hc => exact absurd (List.cons.inj ht).1.symm hc

end Exposed

theorem Exposed.dropSpaces (h : Exposed rest s) : Exposed rest (s.dropWhile (· == ' ')) := by
  induction s with
  | nil => exact h
  | cons c s ih =>
    rw [List.dropWhile_cons]
    split
    · rename_i hc
      obtain rfl : c = ' ' := beq_iff_eq.mp hc
      exact ih (h.of_plain (by decide) (by decide))
    · exact h

theorem Exposed.dropSign (h : Exposed rest s) : Exposed rest (unsigned s) := by
  unfold unsigned
  split
  · exact h.of_plain (by decide) (by decide)
  · exact h

/-- A class that closes does so whatever follows. -/
theorem close?_append (h : Bracket.close? s = some (slice, after)) (t : List Char) :
    Bracket.close? (s ++ t) = some (slice, after ++ t) := by
  obtain ⟨neg, ms, hw, hslice, rfl⟩ := Bracket.close?_eq_some_iff.mp h
  exact Bracket.close?_eq_some_iff.mpr ⟨neg, ms, hw, hslice, by simp⟩

theorem close?_eq_none_of_append (h : Bracket.close? (s ++ t) = none) : Bracket.close? s = none := by
  cases hs : Bracket.close? s with
  | none => rfl
  | some found => cases h.symm.trans (close?_append hs t)

theorem Exposed.mono (h : Exposed rest s) (hopen : ∀ s, Bracket.close? (s ++ rest) = none →
    Bracket.close? (s ++ rest') = none) : Exposed rest' s := by
  induction h with
  | nil => exact .nil
  | quoted c _ ih => exact .quoted c ih
  | closed hclose _ ih =>
    obtain ⟨neg, ms, hw, hslice, -⟩ := Bracket.close?_eq_some_iff.mp hclose
    exact .closed (Bracket.close?_eq_some_iff.mpr ⟨neg, ms, hw, hslice, rfl⟩) ih
  | opened hclose _ ih => exact .opened (hopen _ hclose) ih
  | plain hc hc' _ ih => exact .plain hc hc' ih

section Pieces

/-- The pieces from a slash on, or those behind it where it is the end of a `**`. -/
inductive Continues : (List Char → List Piece) → Prop
  | fresh : Continues fun rest => ofPattern false ('/' :: rest)
  | drawn {p : Piece} : p = deepStart ∨ p = deepMiddle → Continues fun rest => p :: ofPattern false rest

/-- Up to a slash that is exposed, the pieces of the text do not depend on what follows. -/
def ReadsUpTo (first : Bool) (s : List Char) : Prop := ∃ ps next, Continues next ∧
  ∀ rest, Exposed ('/' :: rest) s → ofPattern first (s ++ '/' :: rest) = ps ++ next rest

theorem ReadsUpTo.cons (p : Piece) {first : Bool} (h : ReadsUpTo false t)
    (hp : ∀ rest, Exposed ('/' :: rest) s → Exposed ('/' :: rest) t ∧
      ofPattern first (s ++ '/' :: rest) = p :: ofPattern false (t ++ '/' :: rest)) : ReadsUpTo first s := by
  obtain ⟨ps, next, hnext, hps⟩ := h
  refine ⟨p :: ps, next, hnext, fun rest hs => ?_⟩
  obtain ⟨ht, hsplit⟩ := hp rest hs
  rw [hsplit, hps rest ht, List.cons_append]

theorem readsUpTo (first : Bool) (s : List Char) : ReadsUpTo first s := by
  fun_induction ofPattern first s
  case case1 => exact ⟨[], _, .fresh, fun rest _ => ofPattern_slash_first _ rest⟩
  case case2 =>
    refine ⟨[], _, .fresh, fun rest h => ?_⟩
    obtain ⟨c, t, ht, -⟩ := h.of_quoted
    cases ht
  case case3 c rest ih =>
    refine ih.cons (.quoted c) fun r h => ⟨?_, by simp only [List.cons_append]; rw [ofPattern]⟩
    obtain ⟨d, t, ht, h⟩ := h.of_quoted
    rw [(List.cons.inj ht).2]; exact h
  case case4 =>
    refine ⟨[], _, .drawn (.inr rfl), fun rest _ => ?_⟩
    simp only [List.cons_append, List.nil_append]
    rw [ofPattern]
  case case5 rest ih =>
    refine ih.cons deepMiddle fun r h => ⟨?_, by simp only [List.cons_append]; rw [ofPattern]⟩
    exact (h.of_plain (by decide) (by decide)).of_deeper
  case case6 rest ih =>
    refine ih.cons deepStart fun r h => ⟨?_, by simp only [List.cons_append]; rw [ofPattern]⟩
    exact h.of_deeper
  case case7 first rest hne ih =>
    by_cases hdeep : first = true ∧ rest = ['*']
    · obtain ⟨rfl, rfl⟩ := hdeep
      refine ⟨[], _, .drawn (.inl rfl), fun rest _ => ?_⟩
      simp only [List.cons_append, List.nil_append]
      rw [ofPattern]
    · refine ih.cons star fun r h => ⟨h.of_plain (by decide) (by decide), ?_⟩
      rw [List.cons_append, ofPattern]
      -- The slash completes no `**/` unless all of the text is `**`.
      intro r' hf hr
      obtain ⟨t, rfl, ht⟩ := exists_of_append_slash hr (by decide)
      cases t with
      | nil => exact hdeep ⟨hf, rfl⟩
      | cons d t => exact hne t hf (by rw [(List.cons.inj ht).1])
  case case8 rest ih =>
    refine ih.cons question fun r h => ⟨h.of_plain (by decide) (by decide), ?_⟩
    rw [List.cons_append, ofPattern]
  case case9 rest slice after hclose ih =>
    refine ih.cons (bracket (.ofSlice slice)) fun r h => ?_
    have hclose' := close?_append hclose ('/' :: r)
    constructor
    · rcases h.of_bracket with ⟨hnone, -⟩ | ⟨slice', after', hclose'', h⟩
      · cases hnone.symm.trans hclose'
      · cases hclose.symm.trans hclose''; exact h
    · rw [List.cons_append, ofPattern_closed hclose']
  case case10 rest hclose ih =>
    refine ih.cons openBracket fun r h => ?_
    obtain ⟨hnone, h⟩ | ⟨slice, after, hclose', -⟩ := h.of_bracket
    case inr => cases hclose.symm.trans hclose'
    refine ⟨h, ?_⟩
    rw [List.cons_append, ofPattern_unclosed hnone]
  case case11 c rest hlast hquote hdeep hmiddle hstar hquestion hopen ih =>
    have hc := ne_backslash hlast hquote
    refine ih.cons (literal c) fun r h => ⟨h.of_plain hc hopen, ?_⟩
    rw [List.cons_append, ofPattern]
    · exact fun he => absurd he hc
    · exact fun _ _ he => absurd he hc
    · intro _ hr
      obtain ⟨t, -, ht⟩ := exists_of_append_slash hr (by decide)
      cases t <;> simp at ht
    · intro r' hs hr
      obtain ⟨t, rfl, ht⟩ := exists_of_append_slash hr (by decide)
      obtain ⟨t, rfl, ht'⟩ := exists_of_append_slash ht.symm (by decide)
      cases t with
      | nil => exact hdeep hs rfl
      | cons d t => exact hmiddle t hs (by rw [(List.cons.inj ht').1])
    · exact hstar
    · exact hquestion
    · exact hopen

end Pieces

section Opening

theorem scan_append_slash (h : Bracket.scan rest = none → Bracket.scan rest' = none)
    (hs : Bracket.scan (s ++ '/' :: rest) = none) : Bracket.scan (s ++ '/' :: rest') = none := by
  fun_induction Bracket.scan s
  case case1 => simpa [Bracket.scan] using h (by simpa [Bracket.scan] using hs)
  case case2 => simp [Bracket.scan] at hs
  case case3 c s ih => simpa [Bracket.scan] using ih (by simpa [Bracket.scan] using hs)
  case case4 => simpa [Bracket.scan] using h (by simpa [Bracket.scan] using hs)
  case case5 c s hclose hquote hlast ih =>
    have hscan (t : List Char) :
        Bracket.scan (c :: s ++ '/' :: t) = none ↔ Bracket.scan (s ++ '/' :: t) = none := by
      rw [List.cons_append, Bracket.scan, Option.map_eq_none_iff]
      · exact hclose
      · exact fun _ _ he => absurd he (ne_backslash hlast hquote)
      · exact fun he => absurd he (ne_backslash hlast hquote)
    exact (hscan rest').mpr (ih ((hscan rest).mp hs))

theorem exists_firstClose_sign (s : List Char) : ∃ t, ∀ rest,
    (Bracket.firstClose (Bracket.sign (s ++ '/' :: rest)).2).2 = t ++ '/' :: rest := by
  have hfirst (s : List Char) : ∃ t, ∀ rest, (Bracket.firstClose (s ++ '/' :: rest)).2 = t ++ '/' :: rest := by
    fun_cases Bracket.firstClose s
    case case1 s => exact ⟨s, fun _ => rfl⟩
    case case2 hs =>
      refine ⟨s, fun rest => congrArg Prod.snd (Bracket.firstClose.eq_2 _ fun r he => ?_)⟩
      obtain ⟨t, rfl, -⟩ := exists_of_append_slash he (by decide)
      exact hs t rfl
  fun_cases Bracket.sign s
  case case1 s => exact hfirst s
  case case2 s => exact hfirst s
  case case3 hs hs' =>
    obtain ⟨t, ht⟩ := hfirst s
    refine ⟨t, fun rest => ?_⟩
    rw [Bracket.sign.eq_3, ht]
    · intro r he
      obtain ⟨u, rfl, -⟩ := exists_of_append_slash he (by decide)
      exact hs u rfl
    · intro r he
      obtain ⟨u, rfl, -⟩ := exists_of_append_slash he (by decide)
      exact hs' u rfl

theorem close?_append_slash_eq_none (h : Bracket.scan rest = none → Bracket.scan rest' = none)
    (hs : Bracket.close? (s ++ '/' :: rest) = none) : Bracket.close? (s ++ '/' :: rest') = none := by
  obtain ⟨t, ht⟩ := exists_firstClose_sign s
  rw [Bracket.close?, Option.map_eq_none_iff, ht] at hs ⊢
  exact scan_append_slash h hs

end Opening

section Slashes

theorem starDot_append_cons_slash (h : starDot rest = starDot rest') (s : List Char) :
    starDot (s ++ '/' :: rest) = starDot (s ++ '/' :: rest') := by
  fun_induction starDot s with
  | case1 => rfl
  | case2 c s hs ih =>
    have hstep (t : List Char) : starDot (c :: s ++ '/' :: t) = (c != '\n' && starDot (s ++ '/' :: t)) := by
      rw [List.cons_append, starDot]
      intro u hc he
      obtain ⟨v, rfl, -⟩ := exists_of_append_slash he (by decide)
      exact hs v hc rfl
    rw [hstep, hstep, ih]
  | case3 => simpa [starDot] using h

theorem rootless_append_cons_slash (h : starDot rest = starDot rest')
    (h' : rootless ('/' :: rest) = rootless ('/' :: rest')) (s : List Char) :
    rootless (s ++ '/' :: rest) = rootless (s ++ '/' :: rest') := by
  fun_induction rootless s with
  | case1 => exact h'
  | case2 c r ih =>
    simp only [List.cons_append] at ih ⊢
    rw [rootless, rootless, starDot_append_cons_slash h, ih]
  | case3 c s hs ih =>
    cases s with
    | nil => simp only [List.cons_append, List.nil_append]; rw [rootless, rootless, h, h']
    | cons d s =>
      have hd : d ≠ '/' := fun he => hs s (he ▸ rfl)
      simpa [rootless, hd] using ih

theorem exists_dropDeepSlash (hne : s ≠ []) : ∃ t, (t = s ∨ s = '/' :: t) ∧
    ∀ rest, dropDeepSlash (s ++ '/' :: rest) = t ++ '/' :: rest := by
  by_cases hdeep : s = '/' :: deep
  · subst hdeep; exact ⟨deep, .inr rfl, fun _ => rfl⟩
  · by_cases hmid : ∃ r, s = '/' :: (deep ++ '/' :: r)
    · obtain ⟨r, rfl⟩ := hmid; exact ⟨deep ++ '/' :: r, .inr rfl, fun _ => rfl⟩
    · refine ⟨s, .inl rfl, fun rest => dropDeepSlash.eq_2 _ fun r he => ?_⟩
      obtain ⟨c, s, rfl⟩ := List.exists_cons_of_ne_nil hne
      obtain ⟨rfl, ht⟩ := List.cons.inj he
      obtain ⟨t, rfl, hu⟩ := exists_of_append_slash ht (by decide)
      obtain ⟨u, rfl, hv⟩ := exists_of_append_slash hu.symm (by decide)
      cases u with
      | nil => exact hdeep rfl
      | cons d u => exact hmid ⟨u, by rw [(List.cons.inj hv).1]; rfl⟩

theorem exists_insertSlash (h : starDot rest = starDot rest')
    (h' : rootless ('/' :: rest) = rootless ('/' :: rest')) (hne : s ≠ []) : ∃ t, (t = s ∨ t = '/' :: s) ∧
    ∀ r ∈ [rest, rest'], insertSlash (s ++ '/' :: r) = t ++ '/' :: r := by
  have hroot := rootless_append_cons_slash h h' s
  obtain ⟨c, s, rfl⟩ := List.exists_cons_of_ne_nil hne
  have hinsert (r : List Char) : insertSlash (c :: s ++ '/' :: r) =
      if (some c != some '/' && rootless (c :: s ++ '/' :: r)) = true then '/' :: (c :: s ++ '/' :: r)
      else c :: s ++ '/' :: r := rfl
  simp only [List.forall_mem_cons, hinsert, ← hroot]
  split
  · exact ⟨_, .inr rfl, rfl, rfl, nofun⟩
  · exact ⟨_, .inl rfl, rfl, rfl, nofun⟩

/-- A slash that is exposed stays so when the front of the pattern changes, unless it is the front. -/
theorem exists_slashes_exposed (h : starDot rest = starDot rest')
    (h' : rootless ('/' :: rest) = rootless ('/' :: rest')) (hne : s ≠ []) : ∃ t,
    (∀ r, Exposed r s → Exposed r t) ∧ ∀ r ∈ [rest, rest'],
      dropDeepSlash (insertSlash (s ++ '/' :: r)) = t ++ '/' :: r := by
  obtain ⟨u, hu, hinsert⟩ := exists_insertSlash h h' hne
  have hne' : u ≠ [] := by rcases hu with rfl | rfl <;> simp [hne]
  obtain ⟨t, ht, hdrop⟩ := exists_dropDeepSlash hne'
  refine ⟨t, fun r hs => ?_, fun r hr => by rw [hinsert r hr, hdrop]⟩
  have hsu : Exposed r u := by
    rcases hu with rfl | rfl
    · exact hs
    · exact .plain (by decide) (by decide) hs
  rcases ht with rfl | rfl
  · exact hsu
  · exact hsu.of_plain (by decide) (by decide)

end Slashes

end Exclusion.Rule
