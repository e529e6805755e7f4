import Exclusion.Proofs.Rule.Covering
import Exclusion.Proofs.Rule.Expression
import Exclusion.Rule.Basic

/-! # What a rule line selects

A line without brackets selects paths by its segments: those that have a component which its only
segment matches if it has no slash, and otherwise those that begin with components which its segments
cover.
-/

namespace Exclusion.Rule

open Form Piece Segment

def unsigned : List Char → List Char
  | '!' :: rest => rest
  | s => s

/-- What stands between the slashes of a line, other than one in front. -/
def segments (line : List Char) : List (List Char) :=
  (dropStartSlash (unsigned line)).splitOn '/'

/-- A trimmed line that is a list of segments. -/
structure Segmented (line : List Char) : Prop where
  not_blank : line ≠ []
  not_comment : line.head? ≠ some '#'
  no_bracket : '[' ∉ line
  no_end_slash : line.getLast? ≠ some '/'
  no_quoted_slash : quotesSlash line = false
  filled : ∀ s ∈ segments line, s ≠ []
  apart : ¬ [deep, deep] <:+: segments line

/-- A line selects components that begin with some which its segments cover, if it has a slash, and those
with one that its only segment matches, if it has none. -/
def Selects (line : List Char) (cs : List (List Char)) : Prop :=
  if '/' ∈ line then ∃ pre, pre ≠ [] ∧ pre <+: cs ∧ Covers (segments line) pre
  else ∃ s c, segments line = [s] ∧ c ∈ cs ∧ Matches s c

section Split

variable {s t : List Char} {line : List Char}

theorem mem_of_mem_dropStartSlash {c : Char} (h : c ∈ dropStartSlash s) : c ∈ s := by
  unfold dropStartSlash at h
  split at h
  · exact List.mem_cons_of_mem _ h
  · exact h

theorem mem_of_mem_unsigned {c : Char} (h : c ∈ unsigned s) : c ∈ s := by
  unfold unsigned at h
  split at h
  · exact List.mem_cons_of_mem _ h
  · exact h

theorem mem_unsigned {c : Char} (hc : c ≠ '!') (h : c ∈ s) : c ∈ unsigned s := by
  unfold unsigned
  split
  · exact (List.mem_cons.mp h).resolve_left hc
  · exact h

theorem quotesSlash_unsigned (h : quotesSlash s = false) : quotesSlash (unsigned s) = false := by
  unfold unsigned
  split
  · rwa [quotesSlash_cons (by decide)] at h
  · exact h

theorem quotesSlash_dropStartSlash (h : quotesSlash s = false) : quotesSlash (dropStartSlash s) = false := by
  unfold dropStartSlash
  split
  · rwa [quotesSlash_cons (by decide)] at h
  · exact h

theorem mem_of_mem_splitOn (h : t ∈ s.splitOn '/') : '/' ∉ t ∧ ∀ c ∈ t, c ∈ s := by
  induction s generalizing t with
  | nil => simp_all
  | cons d s ih =>
    rw [List.splitOn_cons_eq_if_modifyHead] at h
    split at h
    · rcases List.mem_cons.mp h with rfl | h
      · exact ⟨List.not_mem_nil, fun c hc => absurd hc List.not_mem_nil⟩
      · exact ⟨(ih h).1, fun c hc => List.mem_cons_of_mem _ ((ih h).2 c hc)⟩
    · rename_i hd
      obtain ⟨a, rest, hs⟩ := List.exists_cons_of_ne_nil (List.splitOn_ne_nil '/' s)
      rw [hs, List.modifyHead_cons] at h
      rcases List.mem_cons.mp h with rfl | h
      · have ha := ih (hs ▸ List.mem_cons_self)
        exact ⟨by simpa [ha.1] using fun he => hd (beq_iff_eq.mpr he.symm),
          fun c hc => (List.mem_cons.mp hc).elim (fun he => he ▸ List.mem_cons_self)
            fun hc => List.mem_cons_of_mem _ (ha.2 c hc)⟩
      · have ha := ih (hs ▸ List.mem_cons_of_mem _ h)
        exact ⟨ha.1, fun c hc => List.mem_cons_of_mem _ (ha.2 c hc)⟩

theorem join_segments (line : List Char) : join (segments line) = dropStartSlash (unsigned line) :=
  List.intercalate_splitOn '/'

theorem Segmented.separate (h : Segmented line) : Separate (segments line) := by
  refine ⟨fun s hs => ?_, ?_, h.apart⟩
  · have hm := mem_of_mem_splitOn hs
    refine ⟨h.filled s hs, hm.1, fun hb => h.no_bracket ?_⟩
    exact mem_of_mem_unsigned (mem_of_mem_dropStartSlash (hm.2 _ hb))
  · rw [join_segments]
    exact quotesSlash_dropStartSlash (quotesSlash_unsigned h.no_quoted_slash)

theorem segments_of_not_mem (h : '/' ∉ line) : segments line = [unsigned line] := by
  have hu : '/' ∉ unsigned line := fun hm => h (mem_of_mem_unsigned hm)
  have hd : dropStartSlash (unsigned line) = unsigned line := by
    unfold dropStartSlash
    split
    · rename_i heq; rw [heq] at hu; exact absurd List.mem_cons_self hu
    · rfl
  rw [segments, hd, List.splitOn_eq_singleton hu]

end Split

theorem ofLine_of_parse {line : String} {form : Form} {e : Expr} (hf : Form.ofLine? line.toList = some form)
    (he : Expr.parse form.text = .ok e) :
    Rule.ofLine line = if Expr.maxWeight < e.weight then .error (.compile .gitignore line (.expr .tooLarge))
      else .ok (some ⟨line, String.ofList form.text, e, form.negated⟩) := by
  by_cases hw : Expr.maxWeight < e.weight
  · simp [Rule.ofLine, hf, Expr.compile, he, bind, Except.bind, hw]
  · simp [Rule.ofLine, hf, Expr.compile, he, bind, Except.bind, hw, pure, Except.pure]

section Slashes

variable {pattern q : List Char}

theorem dropStartSlash_cases (s : List Char) :
    (s = '/' :: dropStartSlash s) ∨ (s = dropStartSlash s ∧ s.head? ≠ some '/') := by
  unfold dropStartSlash
  split
  · exact .inl rfl
  · rename_i h
    refine .inr ⟨rfl, fun hs => ?_⟩
    cases s with
    | nil => simp at hs
    | cons c s =>
      obtain rfl : c = '/' := by simpa using hs
      exact h s rfl

theorem insertSlash_cases (s : List Char) :
    insertSlash s = s ∨ (s.head? ≠ some '/' ∧ insertSlash s = '/' :: s) := by
  unfold insertSlash
  split
  · rename_i h
    simp only [Bool.and_eq_true, bne_iff_ne, ne_eq] at h
    exact .inr ⟨h.1, rfl⟩
  · exact .inl rfl

theorem insertSlash_eq (pattern : List Char) :
    insertSlash pattern = dropStartSlash pattern ∨ insertSlash pattern = '/' :: dropStartSlash pattern := by
  rcases dropStartSlash_cases pattern with h | ⟨h, -⟩
  · rcases insertSlash_cases pattern with hi | ⟨hh, -⟩
    · exact .inr (hi.trans h)
    · rw [h] at hh; exact absurd rfl hh
  · rw [← h]
    exact (insertSlash_cases pattern).imp_right (·.2)

theorem rootless_of_not_mem {s : List Char} (h : '/' ∉ s) : rootless s = false := by
  fun_induction rootless s
  case case1 => rfl
  case case2 => simp at h
  case case3 c rest hne ih => exact ih fun hm => h (List.mem_cons_of_mem _ hm)

theorem insertSlash_of_not_mem {s : List Char} (h : '/' ∉ s) : insertSlash s = s := by
  simp [insertSlash, rootless_of_not_mem h]

theorem dropDeepSlash_of_head {s : List Char} (h : s.head? ≠ some '/') : dropDeepSlash s = s := by
  unfold dropDeepSlash
  split
  · simp at h
  · rfl

theorem dropDeepSlash_slash {s : List Char} (h : ∀ r, s ≠ deep ++ '/' :: r) :
    dropDeepSlash ('/' :: s) = '/' :: s := by
  unfold dropDeepSlash
  split
  · rename_i r heq; exact absurd (List.cons.inj heq).2 (h r)
  · rfl

/-- A slash may stand in front of the pattern or not, but for `/**/`, where it does not, and for patterns
that had one and are not of this form, where it does. -/
theorem slashes_cases (pattern : List Char) (hq : (dropStartSlash pattern).head? ≠ some '/') :
    (dropDeepSlash (insertSlash pattern) = dropStartSlash pattern ∧
        (pattern = dropStartSlash pattern ∨ ∃ r, dropStartSlash pattern = deep ++ '/' :: r)) ∨
      (dropDeepSlash (insertSlash pattern) = '/' :: dropStartSlash pattern ∧
        ∀ r, dropStartSlash pattern ≠ deep ++ '/' :: r) := by
  by_cases hdeep : ∃ r, dropStartSlash pattern = deep ++ '/' :: r
  · refine .inl ⟨?_, .inr hdeep⟩
    rcases insertSlash_eq pattern with h | h
    · rw [h, dropDeepSlash_of_head hq]
    · obtain ⟨r, hr⟩ := hdeep
      rw [h, hr]; rfl
  · have hdeep' : ∀ r, dropStartSlash pattern ≠ deep ++ '/' :: r := fun r h => hdeep ⟨r, h⟩
    rcases insertSlash_eq pattern with h | h
    · rcases dropStartSlash_cases pattern with hp | ⟨hp, -⟩
      · rcases insertSlash_cases pattern with h' | ⟨h', -⟩
        · rw [h'.symm.trans h] at hp
          exact absurd (congrArg List.head? hp) hq
        · exact absurd (congrArg List.head? hp) h'
      · exact .inl ⟨by rw [h, dropDeepSlash_of_head hq], .inl hp⟩
    · exact .inr ⟨by rw [h, dropDeepSlash_slash hdeep'], hdeep'⟩

end Slashes

section Below

variable {segs cs : List (List Char)} {v : List Char}

theorem interior_beginsSlash {s : List Char} {rest : List (List Char)}
    (h : s = deep → rest = []) : (interior (s :: rest)).head?.any beginsSlash = true := by
  cases rest with
  | nil => unfold interior; split <;> rfl
  | cons t rest =>
    have hs : s ≠ deep := fun hs => absurd (h hs) (List.cons_ne_nil t rest)
    rw [interior, if_neg hs]; rfl

theorem ofPattern_not_beginsSlash {first : Bool} {s : List Char} (hne : s ≠ []) (hs : '/' ∉ s) (hb : '[' ∉ s)
    (ps : List Piece) : (ofPattern first s ++ ps).head?.any beginsSlash = false := by
  fun_cases ofPattern first s
  case case1 => exact absurd rfl hne
  case case3 c rest =>
    simp only [List.mem_cons, not_or] at hs
    exact beq_false_of_ne (Ne.symm hs.2.1)
  case case11 c rest _ _ _ _ _ _ _ =>
    rw [List.mem_cons, not_or] at hs
    exact beq_false_of_ne (Ne.symm hs.1)
  all_goals first | rfl | simp at hs

theorem readsAll_deepStart {ps : List Piece} (hv : v.head? ≠ some '/') :
    ReadsAll (deepStart :: ps) v ↔ ReadsAll (deepMiddle :: ps) ('/' :: v) := by
  constructor
  · rintro ⟨-, t, rfl, rfl | ⟨u, rfl, hu⟩, hr⟩
    · exact ⟨['/'], t, rfl, .inl rfl, hr⟩
    · refine ⟨'/' :: u ++ ['/'], t, rfl, .inr ⟨u, rfl, ?_, hu⟩, hr⟩
      rintro rfl; exact hv rfl
  · rintro ⟨-, t, hw, rfl | ⟨u, rfl, -, hu⟩, hr⟩
    · exact ⟨[], t, (List.cons.inj hw).2, .inl rfl, hr⟩
    · exact ⟨u ++ ['/'], t, (List.cons.inj hw).2, .inr ⟨u, rfl, hu⟩, hr⟩

theorem ofPattern_deep_join {t : List Char} {rest : List (List Char)} (h : Separate (deep :: t :: rest)) :
    ofPattern true (join (deep :: t :: rest)) = deepStart :: (ofPattern false t ++ interior rest) := by
  have ht := h.tail
  rw [join_cons, ← slash_join (List.cons_ne_nil t rest), deep, List.cons_append, List.cons_append,
    List.nil_append, ofPattern, ofPattern_join ht (by simp) fun hr => ofPattern_slash_join ht.tail hr]

theorem head_of_slashed (hcs : ∀ c ∈ cs, IsComponent c) (hv : slashed cs = '/' :: v) :
    v.head? ≠ some '/' := by
  cases cs with
  | nil => simp at hv
  | cons c cs =>
    obtain ⟨hne, hslash, -⟩ := hcs c List.mem_cons_self
    obtain ⟨d, c, rfl⟩ := List.exists_cons_of_ne_nil hne
    obtain rfl : d :: (c ++ slashed cs) = v := by simpa using hv
    simpa using fun he => hslash (by simp [he])

/-- Below the root, the pieces of a pattern read the components that its segments cover. -/
theorem readsBelow_pieces {pattern : List Char} (h : Separate segs) (hne : segs ≠ [])
    (hsegs : join segs = dropStartSlash pattern) (hroot : pattern ≠ deep) (hcs : ∀ c ∈ cs, IsComponent c)
    (hv : slashed cs = '/' :: v) : ReadsBelow (pieces pattern) v ↔ Covers segs cs := by
  obtain ⟨s, rest, rfl⟩ := List.exists_cons_of_ne_nil hne
  obtain ⟨hs, hslash, hbracket⟩ := h.plain s List.mem_cons_self
  have hhead : (dropStartSlash pattern).head? ≠ some '/' := by
    obtain ⟨c, s, rfl⟩ := List.exists_cons_of_ne_nil hs
    rw [← hsegs, join_cons]
    simpa using fun he => hslash (by simp [he])
  unfold ReadsBelow pieces
  rcases slashes_cases pattern hhead with ⟨hp, hcase⟩ | ⟨hp, hdeep⟩
  · rw [hp, ← hsegs]
    by_cases hd : s = deep
    · subst hd
      cases rest with
      | nil =>
        rcases hcase with hcase | ⟨r, hr⟩
        · exact absurd (hcase.trans hsegs.symm) hroot
        · exact absurd (hsegs.trans hr) (by simp [join])
      | cons t rest =>
        rw [ofPattern_deep_join h, List.head?_cons, Option.any_some, if_neg (by decide),
          readsAll_deepStart (head_of_slashed hcs hv), ← hv, ← readsAll_interior h hcs, interior, if_pos rfl]
    · rw [ofPattern_join h (fun _ => hd) fun hr => ofPattern_slash_join h.tail hr,
        ofPattern_not_beginsSlash hs hslash hbracket, if_neg (by simp), Covers, if_neg hd]
      exact readsAll_component hslash hbracket hcs hv fun ys hys => readsAll_interior h.tail hys
  · rw [hp, ← hsegs, ofPattern_slash_first, ofPattern_slash_join h hne, interior_beginsSlash, if_pos rfl,
      ← hv, readsAll_interior h hcs]
    rintro rfl
    refine Decidable.byContradiction fun hr => hdeep (join rest) ?_
    rw [← hsegs, join_cons, slash_join hr]

end Below

section Selection

variable {line : List Char} {cs : List (List Char)} {u v t : List Char}

theorem tailReads_slashed (hcs : ∀ c ∈ cs, '\n' ∉ c) : TailReads false (slashed cs) := by
  by_cases hne : cs = []
  · exact .inl (by rw [hne]; rfl)
  · have hn := newline_not_mem_slashed hcs
    rw [← slash_join hne, List.mem_cons, not_or] at hn
    exact .inr ⟨join cs, (slash_join hne).symm, hn.2⟩

theorem slashed_eq_append_tail (hcs : ∀ c ∈ cs, '/' ∉ c) (ht : TailReads false t)
    (h : slashed cs = v ++ t) : ∃ xs ys, cs = xs ++ ys ∧ v = slashed xs ∧ t = slashed ys := by
  rcases ht with rfl | ⟨w, rfl, -⟩
  · exact ⟨cs, [], (List.append_nil cs).symm, (h.trans (List.append_nil v)).symm, rfl⟩
  · exact (slashed_eq_append_slash hcs).mp h

theorem join_eq_head_append (hcs : ∀ c ∈ cs, '/' ∉ c) (hne : cs ≠ []) (hu : HeadReads false u)
    (h : join cs = u ++ v) : ∃ xs ys, cs = xs ++ ys ∧ '/' :: v = slashed ys := by
  rcases hu with rfl | ⟨w, rfl, -⟩
  · exact ⟨[], cs, rfl, by rw [← slash_join hne, h, List.nil_append]⟩
  · have hw : slashed cs = ('/' :: w) ++ '/' :: v := by
      rw [← slash_join hne, h]; simp
    obtain ⟨xs, ys, rfl, -, hy⟩ := (slashed_eq_append_slash hcs).mp hw
    exact ⟨xs, ys, rfl, hy⟩

theorem join_eq_block_iff (hcs : ∀ c ∈ cs, '/' ∉ c ∧ '\n' ∉ c) (hne : cs ≠ []) :
    (∃ u t, join cs = u ++ (v ++ t) ∧ HeadReads false u ∧ TailReads false t) ↔
      ∃ xs ys zs, cs = xs ++ (ys ++ zs) ∧ ys ≠ [] ∧ v = join ys := by
  constructor
  · rintro ⟨u, t, he, hu, ht⟩
    obtain ⟨xs, rest, rfl, hrest⟩ := join_eq_head_append (fun c hc => (hcs c hc).1) hne hu he
    have hv : slashed rest = ('/' :: v) ++ t := hrest.symm
    obtain ⟨ys, zs, rfl, hy, -⟩ :=
      slashed_eq_append_tail (fun c hc => (hcs c (List.mem_append_right _ hc)).1) ht hv
    have hys : ys ≠ [] := by rintro rfl; cases hy
    exact ⟨xs, ys, zs, rfl, hys, (List.cons.inj (hy.trans (slash_join hys).symm)).2⟩
  · rintro ⟨xs, ys, zs, rfl, hys, rfl⟩
    have hz : TailReads false (slashed zs) := tailReads_slashed fun c hc => (hcs c (by simp [hc])).2
    by_cases hx : xs = []
    · subst hx
      exact ⟨[], slashed zs, join_append hys, .inl rfl, hz⟩
    · have hn := newline_not_mem_slashed fun c hc => (hcs c (List.mem_append_left _ hc)).2
      rw [← slash_join hx, List.mem_cons, not_or] at hn
      refine ⟨join xs ++ ['/'], slashed zs, ?_, .inr ⟨join xs, rfl, hn.2⟩, hz⟩
      rw [join_append hx, slashed_append, ← slash_join hys]; simp

/-- Bound to the root, a line selects what begins with components that its segments cover. -/
theorem reads_below_root (h : Segmented line) (hslash : '/' ∈ line) (hne : cs ≠ [])
    (hcs : ∀ c ∈ cs, IsComponent c) :
    (∃ u v t, join cs = u ++ (v ++ t) ∧ HeadReads true u ∧ BodyReads true (pieces (unsigned line)) v ∧
      TailReads false t) ↔ ∃ pre, pre ≠ [] ∧ pre <+: cs ∧ Covers (segments line) pre := by
  have hsegs := List.splitOn_ne_nil '/' (dropStartSlash (unsigned line))
  have hroot : unsigned line ≠ deep := fun hd => absurd (hd ▸ mem_unsigned (by decide) hslash) (by decide)
  have hbelow {xs w} (hx : ∀ c ∈ xs, IsComponent c) (hw : slashed xs = '/' :: w) :
      BodyReads true (pieces (unsigned line)) w ↔ Covers (segments line) xs :=
    readsBelow_pieces h.separate hsegs (join_segments line) hroot hx hw
  constructor
  · rintro ⟨u, v, t, he, hu, hv, ht⟩
    obtain rfl : u = [] := hu.resolve_right fun hu => by
      have hj := slash_join hne
      refine head_of_slashed hcs hj.symm ?_
      rw [he, if_pos rfl |>.mp hu]; rfl
    have hw : slashed cs = ('/' :: v) ++ t := by rw [← slash_join hne, he]; rfl
    obtain ⟨xs, ys, rfl, hx, -⟩ := slashed_eq_append_tail (fun c hc => (hcs c hc).2.1) ht hw
    refine ⟨xs, ?_, List.prefix_append xs ys, ?_⟩
    · rintro rfl; simp at hx
    · exact (hbelow (fun c hc => hcs c (List.mem_append_left _ hc)) hx.symm).mp hv
  · rintro ⟨xs, hx, ⟨ys, rfl⟩, hcov⟩
    have hcx : ∀ c ∈ xs, IsComponent c := fun c hc => hcs c (List.mem_append_left _ hc)
    have hcy : ∀ c ∈ ys, IsComponent c := fun c hc => hcs c (List.mem_append_right _ hc)
    refine ⟨[], join xs, slashed ys, ?_, .inl rfl, ?_, tailReads_slashed fun c hc => (hcy c hc).2.2⟩
    · rw [List.nil_append, join_append hx]
    · exact (hbelow hcx (slash_join hx).symm).mpr hcov

/-- Without a slash, a line selects what has a component that its only segment matches. -/
theorem reads_anywhere (h : Segmented line) (hslash : '/' ∉ line) (hne : cs ≠ [])
    (hcs : ∀ c ∈ cs, IsComponent c) :
    (∃ u v t, join cs = u ++ (v ++ t) ∧ HeadReads false u ∧ BodyReads false (pieces (unsigned line)) v ∧
      TailReads false t) ↔ ∃ c ∈ cs, Matches (unsigned line) c := by
  have hs : '/' ∉ unsigned line := fun hm => hslash (mem_of_mem_unsigned hm)
  have hb : '[' ∉ unsigned line := fun hm => h.no_bracket (mem_of_mem_unsigned hm)
  have hp : pieces (unsigned line) = ofPattern true (unsigned line) := by
    rw [pieces, insertSlash_of_not_mem hs, dropDeepSlash_of_head]
    exact fun hh => hs (List.mem_of_mem_head? hh)
  have hread {c : List Char} (hc : '/' ∉ c) :
      BodyReads false (pieces (unsigned line)) c ↔ Matches (unsigned line) c := by
    rw [BodyReads, if_neg (by simp), hp, readsAll_segment hs hb hc]
  have hblock {v : List Char} := join_eq_block_iff (v := v) (fun c hc => (hcs c hc).2) hne
  constructor
  · rintro ⟨u, v, t, he, hu, hv, ht⟩
    have hv' : '/' ∉ v := by
      rw [BodyReads, if_neg (by simp), hp] at hv
      exact slash_not_mem_of_readsAll hs hb hv
    obtain ⟨xs, ys, zs, rfl, hys, rfl⟩ := hblock.mp ⟨u, t, he, hu, ht⟩
    obtain ⟨c, rfl⟩ := exists_of_slash_not_mem_join hys hv'
    rw [join_singleton] at hv hv'
    exact ⟨c, by simp, (hread hv').mp hv⟩
  · rintro ⟨c, hc, hm⟩
    obtain ⟨xs, zs, rfl⟩ := List.append_of_mem hc
    obtain ⟨u, t, he, hu, ht⟩ := hblock.mpr ⟨xs, [c], zs, rfl, List.cons_ne_nil c [], (join_singleton c).symm⟩
    exact ⟨u, c, t, he, hu, (hread (hcs c hc).2.1).mpr hm, ht⟩

theorem ofLine?_eq (text : List Char) : ofLine? text =
    if Form.trim text = [] ∨ (Form.trim text).head? = some '#' ∨ unsigned (Form.trim text) = [] then none
    else some ⟨assemble (decide ('/' ∈ dropEndSlash (Form.trim text))) ((Form.trim text).getLast? == some '/')
      (body (unsigned (Form.trim text))), decide ((Form.trim text).head? = some '!')⟩ := by
  simp only [ofLine?]
  generalize Form.trim text = line
  by_cases hkept : line = [] ∨ line.head? = some '#'
  · rw [if_pos (by simpa using hkept), if_pos (hkept.imp_right .inl)]
  · rw [if_neg (by simpa using hkept)]
    rw [not_or] at hkept
    simp only [hkept, false_or]
    fun_cases unsigned line
    case case1 rest => simp
    case case2 hsign =>
      have hhead : line.head? ≠ some '!' := fun hh =>
        let ⟨rest, hr⟩ := List.head?_eq_some_iff.mp hh; hsign rest hr
      simp [hkept, hhead]

theorem ofLine?_of_segmented {text : List Char} (h : Segmented (Form.trim text)) :
    ofLine? text = some ⟨assemble (decide ('/' ∈ Form.trim text)) false (body (unsigned (Form.trim text))),
      decide ((Form.trim text).head? = some '!')⟩ := by
  have hne : unsigned (Form.trim text) ≠ [] := fun he => by
    refine h.filled [] ?_ rfl
    rw [segments, he]
    exact List.mem_singleton_self _
  have hend : dropEndSlash (Form.trim text) = Form.trim text := if_neg h.no_end_slash
  have hlast : ((Form.trim text).getLast? == some '/') = false := beq_false_of_ne h.no_end_slash
  rw [ofLine?_eq, if_neg (by simp [h.not_blank, h.not_comment, hne]), hend, hlast]

/-- A line of segments compiles, unless it is too large, to a rule that matches the paths whose components
it selects. -/
theorem ofLine_matches_selected {line : String} (h : Segmented (Form.trim line.toList)) :
    ∃ r : Rule, Expr.parse r.text.toList = .ok r.expr ∧
      Rule.ofLine line = (if Expr.maxWeight < r.expr.weight
        then .error (.compile .gitignore line (.expr .tooLarge)) else .ok (some r)) ∧
      ∀ cs, cs ≠ [] → (∀ c ∈ cs, IsComponent c) →
        (r.matchesPath (String.ofList (join cs)) = true ↔ Selects (Form.trim line.toList) cs) := by
  have hb : '[' ∉ unsigned (Form.trim line.toList) := fun hm => h.no_bracket (mem_of_mem_unsigned hm)
  have hf := ofLine?_of_segmented h
  obtain ⟨e, he, hm⟩ := parse_assemble hb (decide ('/' ∈ Form.trim line.toList)) false
  refine ⟨⟨line, _, e, _⟩, ?_, ofLine_of_parse hf he, fun cs hne hcs => (hm _).trans ?_⟩
  · rw [String.toList_ofList]; exact he
  · rw [String.toList_ofList, Selects]
    by_cases hslash : '/' ∈ Form.trim line.toList
    · rw [if_pos hslash, decide_eq_true hslash]
      exact reads_below_root h hslash hne hcs
    · rw [if_neg hslash, decide_eq_false hslash, segments_of_not_mem hslash]
      simpa [eq_comm] using reads_anywhere h hslash hne hcs

/-- A rule below `src`, with a quoted character, a wildcard and a run in its last segment. -/
theorem ofLine_matches_selected_below_source :
    Segmented (Form.trim " !/src/**/a\\*?.r* \r".toList) ∧
      ∃ r : Rule, Expr.parse r.text.toList = .ok r.expr ∧ r.matchesPath "src/x/y/a*b.rs/z" = true := by
  have ht : Form.trim " !/src/**/a\\*?.r* \r".toList =
      ['!', '/', 's', 'r', 'c', '/', '*', '*', '/', 'a', '\\', '*', '?', '.', 'r', '*'] := by decide
  have h : Segmented (Form.trim " !/src/**/a\\*?.r* \r".toList) := by
    rw [ht]
    exact ⟨by decide, by decide, by decide, by decide, by decide, by decide, by decide⟩
  obtain ⟨r, hr, -, hm⟩ := ofLine_matches_selected h
  refine ⟨h, r, hr, ?_⟩
  let below := [['s', 'r', 'c'], ['x'], ['y'], ['a', '*', 'b', '.', 'r', 's']]
  have hp : join (below ++ [['z']]) = "src/x/y/a*b.rs/z".toList := by decide
  have hs := hm (below ++ [['z']]) (by decide) (by unfold IsComponent; decide)
  rw [hp, String.ofList_toList, ht, Selects, if_pos (by decide)] at hs
  refine hs.mpr ⟨below, by decide, by decide, ?_⟩
  have hseg : segments ['!', '/', 's', 'r', 'c', '/', '*', '*', '/', 'a', '\\', '*', '?', '.', 'r', '*'] =
      [['s', 'r', 'c'], deep, ['a', '\\', '*', '?', '.', 'r', '*']] := by decide
  rw [hseg]
  refine ⟨_, _, rfl, ?_, [['x'], ['y']], _, rfl, ⟨_, _, rfl, ?_, rfl⟩⟩
  · simp [Matches]
  · exact ⟨_, rfl, _, rfl, 'b', _, rfl, _, rfl, _, rfl, ['s'], _, rfl, rfl⟩

end Selection

end Exclusion.Rule
