import Exclusion.Proofs.Rule.Segments

/-! # Pieces and segments

The pieces of a pattern are those of its segments, with the slashes between them drawn into the pieces
that a `**` makes. By induction on the segments, the pieces read exactly the paths that the segments
cover.
-/

namespace Exclusion.Rule

open Piece Segment

theorem readsAll_char {c : Char} {p : Piece} {ps : List Piece} {w : List Char}
    (hp : ∀ u, p.Reads u ↔ u = [c]) : ReadsAll (p :: ps) w ↔ ∃ v, w = c :: v ∧ ReadsAll ps v := by
  simp only [ReadsAll, hp]
  constructor
  · rintro ⟨-, v, rfl, rfl, hv⟩; exact ⟨v, rfl, hv⟩
  · rintro ⟨v, rfl, hv⟩; exact ⟨[c], v, rfl, rfl, hv⟩

section OneSegment

variable {first : Bool} {s : List Char}

theorem slash_not_mem_of_readsAll {w : List Char} (hs : '/' ∉ s) (hb : '[' ∉ s)
    (h : ReadsAll (ofPattern first s) w) : '/' ∉ w := by
  fun_induction ofPattern first s generalizing w
  case case1 => rw [show w = [] from h]; exact List.not_mem_nil
  case case2 =>
    obtain ⟨-, -, rfl, rfl, rfl⟩ := h
    decide
  case case3 c rest ih =>
    obtain ⟨-, v, rfl, rfl, hv⟩ := h
    simp only [List.mem_cons, not_or] at hs hb
    simpa [hs.2.1] using ih hs.2.2 hb.2.2 hv
  case case4 => simp at hs
  case case5 => simp at hs
  case case6 => simp at hs
  case case7 rest _ ih =>
    obtain ⟨u, v, rfl, hu, hv⟩ := h
    simp only [List.mem_cons, not_or] at hs hb
    exact fun hm => (List.mem_append.mp hm).elim hu (ih hs.2 hb.2 hv)
  case case8 rest ih =>
    obtain ⟨-, v, rfl, ⟨c, rfl, hc⟩, hv⟩ := h
    simp only [List.mem_cons, not_or] at hs hb
    simpa [Ne.symm hc] using ih hs.2 hb.2 hv
  case case9 => simp at hb
  case case10 => simp at hb
  case case11 c rest _ _ _ _ _ _ _ ih =>
    obtain ⟨-, v, rfl, rfl, hv⟩ := h
    simp only [List.mem_cons, not_or] at hs hb
    simpa [hs.1] using ih hs.2 hb.2 hv

theorem readsAll_segment {w : List Char} (hs : '/' ∉ s) (hb : '[' ∉ s) (hw : '/' ∉ w) :
    ReadsAll (ofPattern first s) w ↔ Matches s w := by
  fun_induction ofPattern first s generalizing w
  case case1 => rfl
  case case2 =>
    rw [readsAll_char fun _ => Iff.rfl]
    simp [ReadsAll, Matches]
  case case3 c rest ih =>
    simp only [List.mem_cons, not_or] at hs hb
    rw [readsAll_char fun _ => Iff.rfl, Matches]
    refine exists_congr fun v => and_congr_right fun hv => ih hs.2.2 hb.2.2 ?_
    exact fun hm => hw (hv ▸ List.mem_cons_of_mem _ hm)
  case case4 => simp at hs
  case case5 => simp at hs
  case case6 => simp at hs
  case case7 rest _ ih =>
    simp only [List.mem_cons, not_or] at hs hb
    rw [Matches]
    refine exists_congr fun u => exists_congr fun v => and_congr_right fun hv => ?_
    rw [hv, List.mem_append, not_or] at hw
    exact (and_iff_right hw.1).trans (ih hs.2 hb.2 hw.2)
  case case8 rest ih =>
    simp only [List.mem_cons, not_or] at hs hb
    rw [Matches]
    constructor
    · rintro ⟨-, v, rfl, ⟨c, rfl, hc⟩, hv⟩
      rw [List.mem_append, not_or] at hw
      exact ⟨c, v, rfl, (ih hs.2 hb.2 hw.2).mp hv⟩
    · rintro ⟨c, v, rfl, hv⟩
      rw [List.mem_cons, not_or] at hw
      exact ⟨[c], v, rfl, ⟨c, rfl, Ne.symm hw.1⟩, (ih hs.2 hb.2 hw.2).mpr hv⟩
  case case9 => simp at hb
  case case10 => simp at hb
  case case11 c rest hlast hquote _ _ hstar hquestion _ ih =>
    simp only [List.mem_cons, not_or] at hs hb
    have hm : Matches (c :: rest) w ↔ ∃ v, w = c :: v ∧ Matches rest v := by
      rw [Matches]
      · exact fun hc hr => hlast hc hr
      · exact fun d r hc hr => hquote d r hc hr
      · exact hstar
      · exact hquestion
    rw [readsAll_char fun _ => Iff.rfl, hm]
    refine exists_congr fun v => and_congr_right fun hv => ih hs.2 hb.2 ?_
    exact fun hm => hw (hv ▸ List.mem_cons_of_mem _ hm)

end OneSegment

/-- The pieces behind a slash, from the segments that follow it. -/
def interior : List (List Char) → List Piece
  | [] => []
  | [s] => if s = deep then [deepEnd] else literal '/' :: ofPattern false s
  | s :: t :: rest =>
    if s = deep then deepMiddle :: (ofPattern false t ++ interior rest)
    else literal '/' :: (ofPattern false s ++ interior (t :: rest))

/-- Segments that are not empty, hold no bracket, quote no slash and have no `**` next to another. -/
structure Separate (segs : List (List Char)) : Prop where
  plain : ∀ s ∈ segs, s ≠ [] ∧ '/' ∉ s ∧ '[' ∉ s
  unquoted : quotesSlash (join segs) = false
  apart : ¬ [deep, deep] <:+: segs

theorem quotesSlash_cons {c : Char} (hc : c ≠ '\\') (s : List Char) :
    quotesSlash (c :: s) = quotesSlash s := by
  rw [quotesSlash]
  rintro d r rfl; exact absurd rfl hc

theorem quotesSlash_behind {s r : List Char} (h : quotesSlash (s ++ '/' :: r) = false) :
    quotesSlash r = false := by
  fun_induction quotesSlash s
  case case1 c rest ih =>
    simp only [List.cons_append, quotesSlash, Bool.or_eq_false_iff] at h
    exact ih h.2
  case case2 c rest hne ih =>
    by_cases hc : c = '\\'
    · cases rest with
      | nil => simp [hc, quotesSlash] at h
      | cons d rest => exact (hne d rest hc rfl).elim
    · rw [List.cons_append, quotesSlash_cons hc] at h; exact ih h
  case case3 => rwa [List.nil_append, quotesSlash_cons (by decide)] at h

theorem Separate.tail {s : List Char} {segs : List (List Char)} (h : Separate (s :: segs)) :
    Separate segs := by
  refine ⟨fun t ht => h.plain t (List.mem_cons_of_mem _ ht), ?_, fun hi => h.apart (hi.trans ?_)⟩
  · cases segs with
    | nil => rfl
    | cons t rest =>
      have hq := h.unquoted
      rw [join_cons, slashed_cons, List.cons_append] at hq
      rw [join_cons]
      exact quotesSlash_behind hq
  · exact (List.suffix_cons s segs).isInfix

theorem ofPattern_slash {first : Bool} {s : List Char} (hend : s ≠ deep)
    (hmid : ∀ r, s ≠ deep ++ '/' :: r) : ofPattern first ('/' :: s) = literal '/' :: ofPattern false s := by
  rw [ofPattern]
  · intro h; simp at h
  · intro c r h; simp at h
  · exact fun _ h => hend h
  · exact fun r _ h => hmid r h
  · intro h; simp at h
  · intro h; simp at h
  · intro h; simp at h

theorem ofPattern_slash_first (first : Bool) (s : List Char) :
    ofPattern first ('/' :: s) = ofPattern false ('/' :: s) := by
  by_cases hend : s = deep
  · subst hend; rw [deep, ofPattern, ofPattern]
  · by_cases hmid : ∃ r, s = deep ++ '/' :: r
    · obtain ⟨r, rfl⟩ := hmid
      simp only [deep, List.cons_append, List.nil_append]
      rw [ofPattern, ofPattern]
    · have hmid' : ∀ r, s ≠ deep ++ '/' :: r := fun r h => hmid ⟨r, h⟩
      rw [ofPattern_slash hend hmid', ofPattern_slash hend hmid']

theorem ofPattern_append_slash {first : Bool} {s r : List Char} (hs : '/' ∉ s) (hb : '[' ∉ s)
    (hq : quotesSlash (s ++ '/' :: r) = false) (hd : first = true → s ≠ deep) :
    ofPattern first (s ++ '/' :: r) = ofPattern first s ++ ofPattern false ('/' :: r) := by
  fun_induction ofPattern first s
  case case1 => exact ofPattern_slash_first _ r
  case case2 => simp [quotesSlash] at hq
  case case3 c rest ih =>
    simp only [List.mem_cons, not_or] at hs hb
    simp only [List.cons_append, quotesSlash, Bool.or_eq_false_iff] at hq ⊢
    rw [ofPattern, ih hs.2.2 hb.2.2 hq.2 (by simp)]
  case case4 => simp at hs
  case case5 => simp at hs
  case case6 => simp at hs
  case case7 rest _ ih =>
    simp only [List.mem_cons, not_or] at hs hb
    rw [List.cons_append, quotesSlash_cons (by decide)] at hq
    rw [List.cons_append, ofPattern, ih hs.2 hb.2 hq (by simp), List.cons_append]
    -- A `**` that the slash would complete is excluded by `hd`, a longer one by `hs`.
    intro r' hf hr
    rcases rest with _ | ⟨c, _ | ⟨d, rest⟩⟩
    · simp at hr
    · simp at hr; exact hd hf (by rw [hr.1]; rfl)
    · simp at hr; exact hs.2 (by simp [hr.2.1])
  case case8 rest ih =>
    simp only [List.mem_cons, not_or] at hs hb
    rw [List.cons_append, quotesSlash_cons (by decide)] at hq
    rw [List.cons_append, ofPattern, ih hs.2 hb.2 hq (by simp), List.cons_append]
  case case9 => simp at hb
  case case10 => simp at hb
  case case11 c rest hlast hquote _ _ hstar hquestion hopen ih =>
    simp only [List.mem_cons, not_or] at hs hb
    have hc := ne_backslash hlast hquote
    rw [List.cons_append, quotesSlash_cons hc] at hq
    rw [List.cons_append, ofPattern, ih hs.2 hb.2 hq (by simp), List.cons_append]
    · exact fun h => absurd h hc
    · exact fun _ _ h => absurd h hc
    · exact fun h => absurd h.symm hs.1
    · exact fun _ h => absurd h.symm hs.1
    · exact hstar
    · exact hquestion
    · exact hopen

theorem join_ne_deep {s : List Char} (segs : List (List Char)) (h : '/' ∉ s) (hd : s ≠ deep) :
    join (s :: segs) ≠ deep ∧ ∀ r, join (s :: segs) ≠ deep ++ '/' :: r := by
  rw [join_cons]
  refine ⟨fun he => ?_, fun r he => ?_⟩
  · have := append_eq_append_of_not_slash (v := []) h (by decide) (slashed_head segs) (.inl rfl)
      (he.trans (List.append_nil _).symm)
    exact hd this.1
  · have := append_eq_append_of_not_slash h (by decide) (slashed_head segs) (.inr rfl) he
    exact hd this.1

/-- The pieces of a pattern are those of its first segment and those behind the slash that ends it. -/
theorem ofPattern_join {first : Bool} {s : List Char} {segs : List (List Char)} (h : Separate (s :: segs))
    (hd : first = true → s ≠ deep)
    (ih : segs ≠ [] → ofPattern false ('/' :: join segs) = interior segs) :
    ofPattern first (join (s :: segs)) = ofPattern first s ++ interior segs := by
  cases segs with
  | nil => simp [join, interior]
  | cons t rest =>
    have hs := h.plain s List.mem_cons_self
    have hq := h.unquoted
    have hj : join (s :: t :: rest) = s ++ '/' :: join (t :: rest) := by
      rw [join_cons, slash_join (by simp)]
    rw [hj] at hq ⊢
    rw [ofPattern_append_slash hs.2.1 hs.2.2 hq hd, ih (by simp)]

theorem ofPattern_slash_join {segs : List (List Char)} (h : Separate segs) (hne : segs ≠ []) :
    ofPattern false ('/' :: join segs) = interior segs := by
  fun_induction interior segs
  case case1 => exact absurd rfl hne
  case case2 => simp only [join, List.intercalate_singleton, deep]; rw [ofPattern]
  case case3 s hs =>
    have hj := join_ne_deep [] (h.plain s List.mem_cons_self).2.1 hs
    rw [ofPattern_slash hj.1 hj.2, join, List.intercalate_singleton]
  case case4 t rest ih =>
    have ht := h.tail
    have hj : join (deep :: t :: rest) = deep ++ '/' :: join (t :: rest) := by
      rw [join_cons, slash_join (by simp)]
    rw [hj, deep, List.cons_append, List.cons_append, List.nil_append, ofPattern,
      ofPattern_join ht (by simp) fun hr => ih ht.tail hr]
  case case5 s t rest hs ih =>
    have hj := join_ne_deep (t :: rest) (h.plain s List.mem_cons_self).2.1 hs
    rw [ofPattern_slash hj.1 hj.2, ofPattern_join h (by simp) fun hr => ih h.tail hr]

theorem head_of_readsAll_interior {segs : List (List Char)} {w : List Char}
    (h : ReadsAll (interior segs) w) : w = [] ∨ w.head? = some '/' := by
  fun_induction interior segs
  case case1 => exact .inl h
  case case2 => obtain ⟨-, v, rfl, ⟨u, rfl, -⟩, -⟩ := h; exact .inr rfl
  case case3 => obtain ⟨-, v, rfl, rfl, -⟩ := h; exact .inr rfl
  case case4 =>
    obtain ⟨-, v, rfl, rfl | ⟨u, rfl, -, -⟩, -⟩ := h
    · exact .inr rfl
    · exact .inr rfl
  case case5 => obtain ⟨-, v, rfl, rfl, -⟩ := h; exact .inr rfl

theorem readsAll_component {first : Bool} {s : List Char} {segs cs : List (List Char)} {v : List Char}
    (hs : '/' ∉ s) (hb : '[' ∉ s) (hcs : ∀ c ∈ cs, IsComponent c) (hv : slashed cs = '/' :: v)
    (ih : ∀ ys, (∀ c ∈ ys, IsComponent c) → (ReadsAll (interior segs) (slashed ys) ↔ Covers segs ys)) :
    ReadsAll (ofPattern first s ++ interior segs) v ↔
      ∃ c ys, cs = c :: ys ∧ Matches s c ∧ Covers segs ys := by
  cases cs with
  | nil => simp at hv
  | cons c ys =>
    have hc := hcs c List.mem_cons_self
    have hys : ∀ d ∈ ys, IsComponent d := fun d hd => hcs d (List.mem_cons_of_mem _ hd)
    obtain rfl : c ++ slashed ys = v := by simpa using hv
    rw [readsAll_append]
    constructor
    · rintro ⟨a, b, he, ha, hb'⟩
      obtain ⟨rfl, rfl⟩ := append_eq_append_of_not_slash hc.2.1 (slash_not_mem_of_readsAll hs hb ha)
        (slashed_head ys) (head_of_readsAll_interior hb') he
      exact ⟨c, ys, rfl, (readsAll_segment hs hb hc.2.1).mp ha, (ih ys hys).mp hb'⟩
    · rintro ⟨d, zs, he, hm, hcov⟩
      obtain ⟨rfl, rfl⟩ := List.cons.inj he
      exact ⟨c, slashed ys, rfl, (readsAll_segment hs hb hc.2.1).mpr hm, (ih ys hys).mpr hcov⟩

theorem readsAll_slash_component {s : List Char} {segs cs : List (List Char)}
    (hs : '/' ∉ s ∧ '[' ∉ s) (hd : s ≠ deep) (hcs : ∀ c ∈ cs, IsComponent c)
    (ih : ∀ ys, (∀ c ∈ ys, IsComponent c) → (ReadsAll (interior segs) (slashed ys) ↔ Covers segs ys)) :
    ReadsAll (literal '/' :: (ofPattern false s ++ interior segs)) (slashed cs) ↔ Covers (s :: segs) cs := by
  rw [readsAll_char fun _ => Iff.rfl, Covers, if_neg hd]
  constructor
  · rintro ⟨v, hv, hr⟩
    exact (readsAll_component hs.1 hs.2 hcs hv ih).mp hr
  · rintro ⟨c, ys, rfl, hm⟩
    exact ⟨_, slashed_cons c ys, (readsAll_component hs.1 hs.2 hcs (slashed_cons c ys) ih).mpr
      ⟨c, ys, rfl, hm⟩⟩

theorem deepEnd_reads_slashed {cs : List (List Char)} (hcs : ∀ c ∈ cs, IsComponent c) :
    deepEnd.Reads (slashed cs) ↔ cs ≠ [] := by
  constructor
  · rintro ⟨u, hu, -⟩ rfl; simp at hu
  · intro hne
    have hn := newline_not_mem_slashed fun c hc => (hcs c hc).2.2
    rw [← slash_join hne, List.mem_cons, not_or] at hn
    exact ⟨join cs, (slash_join hne).symm, hn.2⟩

/-- Any number of components, none included, stand where `/**/` does. -/
theorem readsAll_deepMiddle {ps : List Piece} {cs : List (List Char)} (hcs : ∀ c ∈ cs, IsComponent c) :
    ReadsAll (deepMiddle :: ps) (slashed cs) ↔
      ∃ xs ys v, cs = xs ++ ys ∧ slashed ys = '/' :: v ∧ ReadsAll ps v := by
  have hslash : ∀ c ∈ cs, '/' ∉ c := fun c hc => (hcs c hc).2.1
  constructor
  · rintro ⟨-, v, hw, rfl | ⟨u, rfl, hne, -⟩, hr⟩
    · exact ⟨[], cs, v, rfl, hw, hr⟩
    · rw [List.append_assoc, List.singleton_append] at hw
      obtain ⟨xs, ys, rfl, -, hy⟩ := (slashed_eq_append_slash hslash).mp hw
      exact ⟨xs, ys, v, rfl, hy.symm, hr⟩
  · rintro ⟨xs, ys, v, rfl, hy, hr⟩
    by_cases hx : xs = []
    · subst hx; exact ⟨['/'], v, hy, .inl rfl, hr⟩
    · have hcx : ∀ c ∈ xs, IsComponent c := fun c hc => hcs c (List.mem_append_left _ hc)
      have hn := newline_not_mem_slashed fun c hc => (hcx c hc).2.2
      rw [← slash_join hx, List.mem_cons, not_or] at hn
      refine ⟨'/' :: join xs ++ ['/'], v, ?_, .inr ⟨join xs, rfl, ?_, hn.2⟩, hr⟩
      · rw [slashed_append, hy, slash_join hx]; simp
      · cases xs with
        | nil => exact absurd rfl hx
        | cons c xs =>
          rw [join_cons]
          exact fun he => (hcx c List.mem_cons_self).1 (List.append_eq_nil_iff.mp he).1

theorem readsAll_interior_nil (cs : List (List Char)) :
    ReadsAll (interior []) (slashed cs) ↔ Covers [] cs := by
  constructor
  · intro hr
    cases cs with
    | nil => rfl
    | cons c cs => simp [interior, ReadsAll] at hr
  · rintro rfl; rfl

/-- The interior reads exactly the components that the segments cover. -/
theorem readsAll_interior {segs cs : List (List Char)} (h : Separate segs)
    (hcs : ∀ c ∈ cs, IsComponent c) : ReadsAll (interior segs) (slashed cs) ↔ Covers segs cs := by
  fun_induction interior segs generalizing cs
  case case1 => exact readsAll_interior_nil cs
  case case2 =>
    rw [Covers, if_pos rfl, if_pos rfl, ← deepEnd_reads_slashed hcs]
    constructor
    · rintro ⟨u, v, he, hu, rfl⟩; rwa [he, List.append_nil]
    · intro hu; exact ⟨_, [], (List.append_nil _).symm, hu, rfl⟩
  case case3 s hs =>
    have hread : ReadsAll (literal '/' :: (ofPattern false s ++ interior [])) (slashed cs) ↔ Covers [s] cs :=
      readsAll_slash_component (h.plain s List.mem_cons_self).2 hs hcs fun ys _ => readsAll_interior_nil ys
    rwa [interior, List.append_nil] at hread
  case case4 t rest ih =>
    have ht : t ≠ deep := fun he => h.apart (he ▸ (List.prefix_append [deep, t] rest).isInfix)
    have hp := (h.plain t (by simp)).2
    rw [readsAll_deepMiddle hcs, Covers, if_pos rfl, if_neg (by simp)]
    refine exists_congr fun xs => exists_congr fun ys => ?_
    rw [Covers, if_neg ht]
    constructor
    · rintro ⟨v, rfl, hy, hr⟩
      have hys : ∀ c ∈ ys, IsComponent c := fun c hc => hcs c (List.mem_append_right _ hc)
      exact ⟨rfl, (readsAll_component hp.1 hp.2 hys hy fun zs => ih h.tail.tail).mp hr⟩
    · rintro ⟨rfl, c, zs, rfl, hm⟩
      have hys : ∀ d ∈ c :: zs, IsComponent d := fun d hd => hcs d (List.mem_append_right _ hd)
      exact ⟨_, rfl, slashed_cons c zs, (readsAll_component hp.1 hp.2 hys (slashed_cons c zs)
        fun zs => ih h.tail.tail).mpr ⟨c, zs, rfl, hm⟩⟩
  case case5 s t rest hs ih =>
    exact readsAll_slash_component (h.plain s List.mem_cons_self).2 hs hcs fun ys => ih h.tail

end Exclusion.Rule
