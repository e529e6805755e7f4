import Exclusion.Proofs.Rule.Places

/-! # Repeated `**`

A `**` takes the slash behind it along, so that another one directly behind is a plain run of stars, for which
there must be a directory. The slash behind that run is free again, and the next `**` is read as the first was.
Hence one more `**/` never lets a rule match more paths, and lets it match the same ones if it is read as any
directories. This leaves out the paths in which two slashes meet: a run of stars finds an empty name between
them, but no `/**/` reads one.
-/

namespace Exclusion.Rule

open Form Piece Segment

section Languages

variable {ps qs : List Piece} {p : Piece} {u v w x : List Char}

/-- No two slashes meet, and no line breaks. -/
structure Tidy (w : List Char) : Prop where
  apart : ¬ ['/', '/'] <:+: w
  unbroken : '\n' ∉ w

theorem Tidy.part (h : Tidy w) (hv : v <:+: w) : Tidy v :=
  ⟨fun hs => h.apart (hs.trans hv), fun hn => h.unbroken (hv.subset hn)⟩

theorem Tidy.suffix (h : Tidy (u ++ v)) : Tidy v := h.part (List.suffix_append u v).isInfix

/-- Of the tidy texts, the first pieces accept only what the second accept. -/
def Narrower (ps qs : List Piece) : Prop := ∀ ⦃w⦄, Tidy w → AcceptsAll ps w → AcceptsAll qs w

theorem Narrower.append_left (h : Narrower ps qs) (xs : List Piece) : Narrower (xs ++ ps) (xs ++ qs) := by
  intro w hw hps
  rw [acceptsAll_append] at hps ⊢
  obtain ⟨u, v, rfl, hu, hv⟩ := hps
  exact ⟨u, v, rfl, hu, h hw.suffix hv⟩

theorem acceptsAll_slash : AcceptsAll (literal '/' :: ps) w ↔ ∃ v, w = '/' :: v ∧ AcceptsAll ps v := by
  constructor
  · rintro ⟨-, v, rfl, rfl, hv⟩; exact ⟨v, rfl, hv⟩
  · rintro ⟨v, rfl, hv⟩; exact ⟨['/'], v, rfl, rfl, hv⟩

theorem acceptsAll_stars :
    AcceptsAll (star :: star :: ps) w ↔ ∃ s v, w = s ++ v ∧ '/' ∉ s ∧ AcceptsAll ps v := by
  constructor
  · rintro ⟨s, -, rfl, hs, s', v, rfl, hs', hv⟩
    refine ⟨s ++ s', v, by simp, fun hm => ?_, hv⟩
    exact (List.mem_append.mp hm).elim hs hs'
  · rintro ⟨s, v, rfl, hs, hv⟩
    exact ⟨s, v, rfl, hs, [], v, rfl, List.not_mem_nil, hv⟩

theorem exists_last_slash (h : '/' ∈ w) : ∃ u v, w = u ++ '/' :: v ∧ '/' ∉ v := by
  obtain ⟨v, u, hw, hv⟩ := List.eq_append_cons_of_mem (List.mem_reverse.mpr h)
  refine ⟨u.reverse, v.reverse, ?_, by simpa using hv⟩
  rw [← List.reverse_reverse w, hw]
  simp

theorem deepStart_absorbs (hu : deepStart.Accepts u) (hx : '\n' ∉ x) :
    deepStart.Accepts (u ++ x ++ ['/']) := by
  refine .inr ⟨u ++ x, rfl, fun hm => ?_⟩
  rcases List.mem_append.mp hm with hm | hm
  · rcases hu with rfl | ⟨y, rfl, hy⟩
    · cases hm
    · exact hy (by simpa using hm)
  · exact hx hm

theorem acceptsAll_deepMiddle (hw : Tidy w) :
    AcceptsAll (deepMiddle :: ps) w ↔ ∃ v, w = '/' :: v ∧ AcceptsAll (deepStart :: ps) v := by
  constructor
  · rintro ⟨-, v, rfl, rfl | ⟨u, rfl, -, hu⟩, hv⟩
    · exact ⟨v, rfl, [], v, rfl, .inl rfl, hv⟩
    · exact ⟨u ++ ['/'] ++ v, by simp, u ++ ['/'], v, rfl, .inr ⟨u, rfl, hu⟩, hv⟩
  · rintro ⟨-, rfl, -, v, rfl, rfl | ⟨u, rfl, hu⟩, hv⟩
    · exact ⟨['/'], v, rfl, .inl rfl, hv⟩
    · refine ⟨'/' :: u ++ ['/'], v, by simp, .inr ⟨u, rfl, ?_, hu⟩, hv⟩
      rintro rfl
      exact hw.apart (List.prefix_append ['/', '/'] v).isInfix

theorem Narrower.middle (h : Narrower (deepStart :: ps) (deepStart :: qs)) :
    Narrower (deepMiddle :: ps) (deepMiddle :: qs) := by
  intro w hw hps
  rw [acceptsAll_deepMiddle hw] at hps ⊢
  obtain ⟨v, rfl, hv⟩ := hps
  exact ⟨v, rfl, h (Tidy.suffix (u := ['/']) hw) hv⟩

theorem narrower_stars_slash (ps : List Piece) :
    Narrower (deepStart :: star :: star :: literal '/' :: ps) (deepStart :: ps) := by
  rintro - hw ⟨u, w, rfl, hu, hps⟩
  obtain ⟨s, w, rfl, -, hps⟩ := acceptsAll_stars.mp hps
  obtain ⟨v, rfl, hv⟩ := acceptsAll_slash.mp hps
  have hs : '\n' ∉ s := fun hn => hw.unbroken (by simp [hn])
  exact ⟨u ++ s ++ ['/'], v, by simp, deepStart_absorbs hu hs, hv⟩

theorem narrower_stars_end : Narrower [deepStart, star, star, deepEnd] [deepStart, star, star] := by
  rintro - hw ⟨u, w, rfl, hu, hps⟩
  obtain ⟨s, w, rfl, -, hps⟩ := acceptsAll_stars.mp hps
  obtain ⟨x, rfl, -⟩ := acceptsAll_singleton.mp hps
  obtain ⟨y, z, hx, hz⟩ := exists_last_slash (w := '/' :: x) List.mem_cons_self
  rw [hx] at hw ⊢
  have hy : '\n' ∉ s ++ y := fun hn => hw.unbroken (by rcases List.mem_append.mp hn with hn | hn <;> simp [hn])
  exact ⟨u ++ (s ++ y) ++ ['/'], z, by simp, deepStart_absorbs hu hy,
    acceptsAll_stars.mpr ⟨z, [], by simp, hz, rfl⟩⟩

theorem narrower_stars_middle (ps : List Piece) : Narrower (deepStart :: star :: star :: deepMiddle :: ps)
    (deepStart :: star :: star :: literal '/' :: ps) := by
  rintro - hw ⟨u, w, rfl, hu, hps⟩
  obtain ⟨s, w, rfl, hs, m, v, rfl, hm, hv⟩ := acceptsAll_stars.mp hps
  rcases hm with rfl | ⟨x, rfl, -, -⟩
  · exact ⟨u, _, rfl, hu, acceptsAll_stars.mpr ⟨s, _, rfl, hs, acceptsAll_slash.mpr ⟨v, rfl, hv⟩⟩⟩
  · obtain ⟨y, z, hx, hz⟩ := exists_last_slash (w := '/' :: x) List.mem_cons_self
    rw [hx] at hw ⊢
    have hy : '\n' ∉ s ++ y := fun hn => hw.unbroken (by rcases List.mem_append.mp hn with hn | hn <;> simp [hn])
    exact ⟨u ++ (s ++ y) ++ ['/'], z ++ '/' :: v, by simp, deepStart_absorbs hu hy,
      acceptsAll_stars.mpr ⟨z, _, rfl, hz, acceptsAll_slash.mpr ⟨v, rfl, hv⟩⟩⟩

theorem narrower_slash_middle (ps : List Piece) : Narrower (literal '/' :: ps) (deepMiddle :: ps) := by
  rintro - - ⟨-, v, rfl, rfl, hv⟩
  exact ⟨['/'], v, rfl, .inl rfl, hv⟩

theorem narrower_middle_end : Narrower [deepMiddle, star, star] [deepEnd] := by
  rintro - hw ⟨m, v, rfl, hm, -⟩
  obtain ⟨x, hx⟩ : ∃ x, m ++ v = '/' :: x := by
    rcases hm with rfl | ⟨u, rfl, -⟩
    · exact ⟨v, rfl⟩
    · exact ⟨u ++ ['/'] ++ v, by simp⟩
  rw [hx] at hw ⊢
  exact acceptsAll_singleton.mpr ⟨x, rfl, fun hn => hw.unbroken (List.mem_cons_of_mem _ hn)⟩

theorem narrower_end_middle : Narrower [deepEnd] [deepMiddle, star, star] := by
  rintro w hw hps
  obtain ⟨x, rfl, hx⟩ := acceptsAll_singleton.mp hps
  by_cases hs : '/' ∈ x
  · obtain ⟨y, z, rfl, hz⟩ := exists_last_slash hs
    refine ⟨'/' :: y ++ ['/'], z, by simp, .inr ⟨y, rfl, ?_, fun hn => hx (by simp [hn])⟩,
      acceptsAll_stars.mpr ⟨z, [], by simp, hz, rfl⟩⟩
    rintro rfl
    exact hw.apart (List.prefix_append ['/', '/'] z).isInfix
  · exact ⟨['/'], x, rfl, .inl rfl, acceptsAll_stars.mpr ⟨x, [], by simp, hs, rfl⟩⟩

end Languages

section Folding

variable {ps qs : List Piece}

/-- The second pieces accept no more than the first, and no less if they have one more `/**/`. -/
structure Folds (ps qs : List Piece) : Prop where
  fewer : Narrower qs ps
  equal : ps.count deepMiddle < qs.count deepMiddle → Narrower ps qs

theorem Folds.append_left (h : Folds ps qs) (xs : List Piece) : Folds (xs ++ ps) (xs ++ qs) :=
  ⟨h.fewer.append_left xs, fun hc => (h.equal (by simpa using hc)).append_left xs⟩

theorem Folds.middle (h : Folds (deepStart :: ps) (deepStart :: qs)) :
    Folds (deepMiddle :: ps) (deepMiddle :: qs) :=
  ⟨h.fewer.middle, fun hc => (h.equal (by simpa using hc)).middle⟩

theorem ofPattern_deeper (s : List Char) :
    ofPattern false (deeper s) = star :: star :: ofPattern false ('/' :: s) := by
  simp only [deeper, deep, List.cons_append, List.nil_append]
  rw [ofPattern, ofPattern]
  · simp
  · simp

theorem ofPattern_deeper_first (s : List Char) : ofPattern true (deeper s) = deepStart :: ofPattern false s := by
  simp only [deeper, deep, List.cons_append, List.nil_append]
  rw [ofPattern]

theorem ofPattern_slash_deeper (first : Bool) (s : List Char) :
    ofPattern first ('/' :: deeper s) = deepMiddle :: ofPattern false s := by
  simp only [deeper, deep, List.cons_append, List.nil_append]
  rw [ofPattern]

/-- One more `**` folds behind a `**` and behind a run of stars that stands behind one. By induction on the
`**` that follow, which are read in one of these ways and then in the other. -/
theorem folds_behind (s : List Char) :
    Folds (deepStart :: ofPattern false s) (deepStart :: star :: star :: ofPattern false ('/' :: s)) ∧
    Folds (deepStart :: star :: star :: ofPattern false ('/' :: s))
      (deepStart :: star :: star :: deepMiddle :: ofPattern false s) := by
  by_cases hend : s = deep
  · subst hend
    have hstars : ofPattern false deep = [star, star] := by decide +kernel
    have hslash : ofPattern false ('/' :: deep) = [deepEnd] := by decide +kernel
    rw [hstars, hslash]
    exact ⟨⟨narrower_stars_end, fun hc => absurd hc (by decide)⟩,
      narrower_middle_end.append_left [deepStart, star, star], fun _ => narrower_end_middle.append_left [deepStart, star, star]⟩
  by_cases hmid : ∃ t, s = deeper t
  · obtain ⟨t, ht⟩ := hmid
    have hlt : t.length < s.length := by
      simp only [ht, deeper, List.length_append, List.length_cons]; omega
    obtain ⟨hfold, hfold'⟩ := folds_behind t
    rw [ht, ofPattern_slash_deeper, ofPattern_deeper]
    exact ⟨hfold', hfold.middle.append_left [deepStart, star, star]⟩
  · rw [ofPattern_slash hend fun r he => hmid ⟨r, he⟩]
    exact ⟨⟨narrower_stars_slash _, fun hc => absurd hc (by simp)⟩, narrower_stars_middle _,
      fun _ => (narrower_slash_middle _).append_left [deepStart, star, star]⟩
termination_by s.length

end Folding

section Pieces

variable {ps qs : List Piece} {s rest : List Char}

/-- The pieces of two patterns that part behind a `**`, the second of which folds to the first. -/
def Doubles (ps qs : List Piece) : Prop := ∃ xs p ps' qs', (p = deepStart ∨ p = deepMiddle) ∧
  ps = xs ++ p :: ps' ∧ qs = xs ++ p :: qs' ∧ Folds (p :: ps') (p :: qs')

theorem Folds.behind {p : Piece} (hp : p = deepStart ∨ p = deepMiddle) (h : Folds (deepStart :: ps) (deepStart :: qs)) :
    Folds (p :: ps) (p :: qs) := by
  rcases hp with rfl | rfl
  · exact h
  · exact h.middle

/-- One more `**/` behind a slash that is exposed. -/
theorem doubles_exposed (first : Bool) (h : Exposed ('/' :: deeper rest) s)
    (h' : Exposed ('/' :: deeper (deeper rest)) s) :
    Doubles (ofPattern first (s ++ '/' :: deeper rest)) (ofPattern first (s ++ '/' :: deeper (deeper rest))) := by
  obtain ⟨xs, next, hnext, hsplit⟩ := readsUpTo first s
  rw [hsplit _ h, hsplit _ h']
  obtain ⟨hfresh, hdrawn⟩ := folds_behind rest
  cases hnext with
  | fresh =>
    dsimp only
    rw [ofPattern_slash_deeper, ofPattern_slash_deeper, ofPattern_deeper]
    exact ⟨xs, _, _, _, .inr rfl, rfl, rfl, hfresh.middle⟩
  | drawn hp =>
    dsimp only
    rw [ofPattern_deeper, ofPattern_deeper, ofPattern_slash_deeper]
    exact ⟨xs, _, _, _, hp, rfl, rfl, hdrawn.behind hp⟩

theorem doubles_first (s : List Char) : Doubles (ofPattern true (deeper s)) (ofPattern true (deeper (deeper s))) := by
  rw [ofPattern_deeper_first, ofPattern_deeper_first, ofPattern_deeper]
  exact ⟨[], _, _, _, .inl rfl, rfl, rfl, (folds_behind s).1⟩

theorem starDot_deeper (s : List Char) : starDot (deeper s) = starDot s := by
  simp [deeper, deep, starDot]

theorem rootless_slash_deeper (s : List Char) :
    rootless ('/' :: deeper s) = (starDot s || rootless ('/' :: s)) := by
  simp [deeper, deep, rootless]

theorem pieces_deeper (s : List Char) : pieces (deeper s) = ofPattern true (deeper s) := by
  rw [pieces]
  rcases insertSlash_cases (deeper s) with h | ⟨-, h⟩ <;> rw [h] <;> rfl

theorem pieces_slash_deeper (s : List Char) : pieces ('/' :: deeper s) = ofPattern true (deeper s) := by
  rw [pieces]
  rcases insertSlash_cases ('/' :: deeper s) with h | ⟨h, -⟩
  · rw [h]; rfl
  · exact absurd rfl h

theorem doubles_pieces (h : Exposed ('/' :: deeper rest) s) (h' : Exposed ('/' :: deeper (deeper rest)) s) :
    Doubles (pieces (s ++ '/' :: deeper rest)) (pieces (s ++ '/' :: deeper (deeper rest))) := by
  by_cases hne : s = []
  · subst hne
    simp only [List.nil_append, pieces_slash_deeper]
    exact doubles_first rest
  · have hstar : starDot (deeper rest) = starDot (deeper (deeper rest)) := (starDot_deeper _).symm
    have hroot : rootless ('/' :: deeper rest) = rootless ('/' :: deeper (deeper rest)) := by
      rw [rootless_slash_deeper (deeper rest), rootless_slash_deeper, starDot_deeper]
      simp
    obtain ⟨t, hexposed, hslashes⟩ := exists_slashes_exposed hstar hroot hne
    rw [pieces, pieces, hslashes _ (by simp), hslashes _ (by simp)]
    exact doubles_exposed true (hexposed _ h) (hexposed _ h')

end Pieces

section Lines

variable {line line' path : List Char} {ps qs : List Piece} {anchored : Bool}

/-- Behind a `**`, a fold carries over to what may stand between a head and a tail. -/
theorem bodyAccepts_of_narrower {xs : List Piece} {p : Piece} (hp : p = deepStart ∨ p = deepMiddle)
    (h : Narrower (p :: qs) (p :: ps)) {v : List Char} (hv : Tidy v) (hb : BodyAccepts anchored (xs ++ p :: qs) v) :
    BodyAccepts anchored (xs ++ p :: ps) v := by
  have hplain : p.beginsSlash = false := by rcases hp with rfl | rfl <;> rfl
  cases anchored with
  | false => exact h.append_left xs hv hb
  | true =>
    cases xs with
    | nil => exact (acceptsBelow_of_not_beginsSlash hplain).mpr (h hv ((acceptsBelow_of_not_beginsSlash hplain).mp hb))
    | cons x xs =>
      cases hx : x.beginsSlash with
      | false =>
        exact (acceptsBelow_of_not_beginsSlash hx).mpr
          (h.append_left (x :: xs) hv ((acceptsBelow_of_not_beginsSlash hx).mp hb))
      | true =>
        -- The slash that is taken as read need not be tidy, but the first piece reads it.
        refine (acceptsBelow_of_beginsSlash hx).mpr ?_
        obtain ⟨a, b, hab, ha, hrest⟩ := (acceptsBelow_of_beginsSlash hx).mp hb
        obtain ⟨c, rfl⟩ := head_of_acceptsAll hx (acceptsAll_singleton.mpr ha)
        obtain rfl : v = c ++ b := (List.cons.inj hab).2
        exact ⟨'/' :: c, b, rfl, ha, h.append_left xs hv.suffix hrest⟩

theorem Doubles.bodyAccepts (h : Doubles ps qs) {v : List Char} (hv : Tidy v) :
    (BodyAccepts anchored qs v → BodyAccepts anchored ps v) ∧
      (ps.count deepMiddle < qs.count deepMiddle → BodyAccepts anchored ps v → BodyAccepts anchored qs v) := by
  obtain ⟨xs, p, ps, qs, hp, rfl, rfl, hfold⟩ := h
  refine ⟨bodyAccepts_of_narrower hp hfold.fewer hv, fun hc => bodyAccepts_of_narrower hp (hfold.equal ?_) hv⟩
  simpa using hc

/-- The second line accepts no more than the first, and no less if it has one more `/**/`. -/
def AcceptsFewer (line line' path : List Char) : Prop := (Accepted line' path → Accepted line path) ∧
  ((piecesOf line).count deepMiddle < (piecesOf line').count deepMiddle → Accepted line path → Accepted line' path)

theorem Doubles.acceptsFewer (h : Doubles (piecesOf line) (piecesOf line')) (ha : isAnchored line' = isAnchored line)
    (hd : isDirectory line' = isDirectory line) (hpath : Tidy path) : AcceptsFewer line line' path := by
  unfold AcceptsFewer Accepted
  rw [ha, hd]
  constructor
  · rintro ⟨u, v, t, rfl, hu, hv, ht⟩
    exact ⟨u, v, t, rfl, hu, (h.bodyAccepts (hpath.part (by simp))).1 hv, ht⟩
  · rintro hc ⟨u, v, t, rfl, hu, hv, ht⟩
    exact ⟨u, v, t, rfl, hu, (h.bodyAccepts (hpath.part (by simp))).2 hc hv, ht⟩

end Lines

section Trimming

variable {line line' a b s t : List Char}

theorem trim_slash_deeper (a b : List Char) :
    Form.trim (a ++ '/' :: deeper b) = a.dropWhile (· == ' ') ++ '/' :: deeper (trimEnd b) := by
  rw [trim_append (by decide) (by decide), deeper, trimEnd_append (by decide) (by decide)]
  rfl

theorem trim_deeper (a b : List Char) :
    Form.trim (a ++ deeper b) = a.dropWhile (· == ' ') ++ deeper (trimEnd b) := by
  have hstar := dropWhile_append_cons (· == ' ') (by decide : ('*' == ' ') = false) a ['*']
  rw [deeper, ← List.append_assoc, trim_append (by decide) (by decide)]
  exact (congrArg (· ++ '/' :: trimEnd b) hstar).trans (List.append_assoc _ _ _)

theorem unsigned_append_slash (s t : List Char) : unsigned (s ++ '/' :: t) = unsigned s ++ '/' :: t := by
  by_cases hs : s = []
  · subst hs; rfl
  · exact unsigned_append hs _

theorem isAnchored_of_trim (h : Form.trim line = s ++ '/' :: t) (ht : t ≠ []) : isAnchored line = true := by
  refine decide_eq_true ?_
  rw [h, dropEndSlash]
  split
  · rw [List.dropLast_append_of_ne_nil (List.cons_ne_nil _ _), List.dropLast_cons_of_ne_nil ht]
    simp
  · simp

theorem isDirectory_of_suffix (h : '/' :: t <:+ Form.trim line) :
    isDirectory line = (('/' :: t).getLast? == some '/') := by
  obtain ⟨s, hs⟩ := h
  rw [isDirectory, ← hs, List.getLast?_append_of_ne_nil s (List.cons_ne_nil _ _)]

theorem isDirectory_eq_of_suffix (h : deeper t <:+ Form.trim line) (h' : deeper t <:+ Form.trim line') :
    isDirectory line' = isDirectory line := by
  have hslash : '/' :: t <:+ deeper t := List.suffix_append deep _
  rw [isDirectory_of_suffix (hslash.trans h), isDirectory_of_suffix (hslash.trans h')]

theorem suffix_deeper (t : List Char) : deeper t <:+ deeper (deeper t) :=
  (List.suffix_cons '/' _).trans (List.suffix_append deep _)

theorem Exposed.trim (h : Exposed ('/' :: deeper b) a) :
    Exposed ('/' :: deeper (trimEnd b)) (unsigned (a.dropWhile (· == ' '))) := by
  refine (h.mono fun s hs => ?_).dropSpaces.dropSign
  obtain ⟨u, hu⟩ := trimEnd_prefix b
  have hline : s ++ '/' :: deeper b = s ++ '/' :: deeper (trimEnd b) ++ u := by
    conv_lhs => rw [← hu]
    simp [deeper]
  exact close?_eq_none_of_append (hline ▸ hs)

theorem Exposed.deeper (h : Exposed ('/' :: deeper b) a) : Exposed ('/' :: deeper (Rule.deeper b)) a := by
  refine h.mono fun s hs => close?_append_slash_eq_none (fun hscan => ?_) hs
  simpa [Rule.deeper, deep, Bracket.scan] using hscan

end Trimming

section Doubled

variable {a b path : List Char}

theorem trimEnd_deeper (b : List Char) : trimEnd (deeper b) = deeper (trimEnd b) :=
  trimEnd_append (by decide) (by decide) deep b

theorem acceptsFewer_inner (h : Exposed ('/' :: deeper b) a) (hpath : Tidy path) :
    AcceptsFewer (a ++ '/' :: deeper b) (a ++ '/' :: deeper (deeper b)) path := by
  have htrim := trim_slash_deeper a b
  have htrim' := trim_slash_deeper a (deeper b)
  rw [trimEnd_deeper] at htrim'
  refine Doubles.acceptsFewer ?_ ?_ ?_ hpath
  · rw [piecesOf, piecesOf, htrim, htrim', unsigned_append_slash, unsigned_append_slash]
    exact doubles_pieces h.trim h.trim.deeper
  · rw [isAnchored_of_trim htrim (by simp [deeper]), isAnchored_of_trim htrim' (by simp [deeper])]
  · have hbehind (s t : List Char) : t <:+ s ++ '/' :: t := (List.suffix_cons '/' t).trans (List.suffix_append s _)
    exact isDirectory_eq_of_suffix (htrim ▸ hbehind _ _) (htrim' ▸ (suffix_deeper _).trans (hbehind _ _))

def InFront (a : List Char) : Prop := a.dropWhile (· == ' ') ∈ [[], ['!']]

theorem InFront.unsigned (h : InFront a) (s : List Char) :
    unsigned (a.dropWhile (· == ' ') ++ deeper s) = deeper s := by
  rcases List.mem_cons.mp h with h | h
  · rw [h]; rfl
  · rw [List.mem_singleton.mp h]; rfl

theorem InFront.piecesOf (h : InFront a) (b : List Char) :
    piecesOf (a ++ deeper b) = ofPattern true (deeper (trimEnd b)) := by
  rw [Rule.piecesOf, trim_deeper, h.unsigned, pieces_deeper]

theorem accepted_deepStart (h : InFront a) (hb : trimEnd b = []) (hpath : '\n' ∉ path) :
    Accepted (a ++ deeper b) path := by
  have hends : isAnchored (a ++ deeper b) = false ∧ isDirectory (a ++ deeper b) = true := by
    rw [isAnchored, isDirectory, trim_deeper, hb]
    rcases List.mem_cons.mp h with h | h
    · rw [h]; decide
    · rw [List.mem_singleton.mp h]; decide
  rw [Accepted, hends.1, hends.2, h.piecesOf, hb, ofPattern_deeper_first, ofPattern]
  exact ⟨[], [], path, rfl, .inl rfl, acceptsAll_singleton.mpr (.inl rfl), .inr hpath⟩

theorem acceptsFewer_front (h : InFront a) (hpath : Tidy path) :
    AcceptsFewer (a ++ deeper b) (a ++ deeper (deeper b)) path := by
  by_cases hb : trimEnd b = []
  · refine ⟨fun _ => accepted_deepStart h hb hpath.unbroken, fun hc => ?_⟩
    rw [h.piecesOf, h.piecesOf, trimEnd_deeper, hb] at hc
    exact absurd hc (by decide +kernel)
  · have htrim := trim_deeper a b
    have htrim' := trim_deeper a (deeper b)
    rw [trimEnd_deeper] at htrim'
    refine Doubles.acceptsFewer ?_ ?_ ?_ hpath
    · rw [h.piecesOf, h.piecesOf, trimEnd_deeper]
      exact doubles_first _
    · have hsplit (s t : List Char) : s ++ deeper t = s ++ deep ++ '/' :: t := (List.append_assoc s deep _).symm
      rw [isAnchored_of_trim (htrim.trans (hsplit _ _)) hb,
        isAnchored_of_trim (htrim'.trans (hsplit _ _)) (by simp [deeper])]
    · exact isDirectory_eq_of_suffix (htrim ▸ List.suffix_append _ _)
        (htrim' ▸ (suffix_deeper _).trans (List.suffix_append _ _))

end Doubled

section Rules

variable {line line' : String} {r r' : Rule}

/-- The second line differs from the first in one more `**/`, behind a `/**/` of which no character stands behind a
backslash or in a class, or behind a `**/` with which the pattern begins. -/
inductive Doubled : String → String → Prop
  | inner {a b : String} : Exposed ("/**/" ++ b).toList a.toList → Doubled (a ++ "/**/" ++ b) (a ++ "/**/**/" ++ b)
  | front {a b : String} : InFront a.toList → Doubled (a ++ "**/" ++ b) (a ++ "**/**/" ++ b)

theorem Doubled.acceptsFewer (h : Doubled line line') {path : List Char} (hpath : Tidy path) :
    AcceptsFewer line.toList line'.toList path := by
  cases h with
  | @inner a b ha =>
    have hline : (a ++ "/**/" ++ b).toList = a.toList ++ '/' :: deeper b.toList := by simp [deeper, deep]
    have hline' : (a ++ "/**/**/" ++ b).toList = a.toList ++ '/' :: deeper (deeper b.toList) := by
      simp [deeper, deep]
    have hrest : ("/**/" ++ b).toList = '/' :: deeper b.toList := by simp [deeper, deep]
    rw [hline, hline']
    exact acceptsFewer_inner (hrest ▸ ha) hpath
  | @front a b ha =>
    have hline : (a ++ "**/" ++ b).toList = a.toList ++ deeper b.toList := by simp [deeper, deep]
    have hline' : (a ++ "**/**/" ++ b).toList = a.toList ++ deeper (deeper b.toList) := by
      simp [deeper, deep]
    rw [hline, hline']
    exact acceptsFewer_front ha hpath

/-- Where no two slashes meet, one more `**/` lets a rule match no more paths, and the same ones if it is read as
any directories. -/
theorem matchesPath_doubled (hd : Doubled line line') (h : Rule.ofLine line = .ok (some r))
    (h' : Rule.ofLine line' = .ok (some r')) {p : String} (hp : '\n' ∉ p.toList)
    (hs : ¬ ['/', '/'] <:+: p.toList) :
    (r'.matchesPath p = true → r.matchesPath p = true) ∧
    ((piecesOf line.toList).count deepMiddle < (piecesOf line'.toList).count deepMiddle →
      (r'.matchesPath p = true ↔ r.matchesPath p = true)) := by
  rw [matchesPath_iff h, matchesPath_iff h']
  obtain ⟨hfewer, hequal⟩ := hd.acceptsFewer ⟨hs, hp⟩
  exact ⟨hfewer, fun hc => ⟨hfewer, hequal hc⟩⟩

/-- A third `**` behind two. -/
theorem matchesPath_doubled_of_three : ∃ r r', Rule.ofLine ("a" ++ "/**/" ++ "**/[b]") = .ok (some r) ∧
    Rule.ofLine ("a" ++ "/**/**/" ++ "**/[b]") = .ok (some r') ∧ ∀ p : String, '\n' ∉ p.toList →
      ¬ ['/', '/'] <:+: p.toList → (r'.matchesPath p = true ↔ r.matchesPath p = true) := by
  obtain ⟨r, hr, -⟩ := exists_of_any_ofLine? ("a" ++ "/**/" ++ "**/[b]") (fun _ => true) (by decide +kernel)
  obtain ⟨r', hr', -⟩ := exists_of_any_ofLine? ("a" ++ "/**/**/" ++ "**/[b]") (fun _ => true) (by decide +kernel)
  have hd : Doubled ("a" ++ "/**/" ++ "**/[b]") ("a" ++ "/**/**/" ++ "**/[b]") :=
    .inner (.plain (by decide) (by decide) .nil)
  exact ⟨r, r', hr, hr', fun p hp hs => (matchesPath_doubled hd hr hr' hp hs).2 (by decide +kernel)⟩

/-- Directly behind another one, a `**` asks for a directory. -/
theorem matchesPath_not_doubled :
    (Doubled ("a" ++ "/**/" ++ "b") ("a" ++ "/**/**/" ++ "b") ∧
      ∃ r r', Rule.ofLine ("a" ++ "/**/" ++ "b") = .ok (some r) ∧
        Rule.ofLine ("a" ++ "/**/**/" ++ "b") = .ok (some r') ∧
        r.matchesPath "a/b" = true ∧ r'.matchesPath "a/b" = false) ∧
    Doubled ("" ++ "**/" ++ "x") ("" ++ "**/**/" ++ "x") ∧
      ∃ r r', Rule.ofLine ("" ++ "**/" ++ "x") = .ok (some r) ∧
        Rule.ofLine ("" ++ "**/**/" ++ "x") = .ok (some r') ∧
        r.matchesPath "x" = true ∧ r'.matchesPath "x" = false := by
  obtain ⟨r₁, hr₁, hm₁⟩ := exists_of_any_ofLine? ("a" ++ "/**/" ++ "b") (·.matchesPath "a/b") (by decide +kernel)
  obtain ⟨r₂, hr₂, hm₂⟩ := exists_of_any_ofLine? ("a" ++ "/**/**/" ++ "b") (fun r => !r.matchesPath "a/b")
    (by decide +kernel)
  obtain ⟨r₃, hr₃, hm₃⟩ := exists_of_any_ofLine? ("" ++ "**/" ++ "x") (·.matchesPath "x") (by decide +kernel)
  obtain ⟨r₄, hr₄, hm₄⟩ := exists_of_any_ofLine? ("" ++ "**/**/" ++ "x") (fun r => !r.matchesPath "x")
    (by decide +kernel)
  exact ⟨⟨.inner (.plain (by decide) (by decide) .nil), r₁, r₂, hr₁, hr₂, hm₁, by simpa using hm₂⟩,
    .front (List.mem_cons_self), r₃, r₄, hr₃, hr₄, hm₃, by simpa using hm₄⟩

end Rules

end Exclusion.Rule
