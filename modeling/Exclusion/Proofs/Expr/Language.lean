import Exclusion.Expr.Spans

/-! # The texts of an expression

An expression without looks has a language: whether a span matches does not depend on what surrounds
it. A search for expressions in sequence between both ends of a text finds them exactly if the text
splits into members of their languages.
-/

namespace Exclusion.Expr

/-- The whole text matches, whatever surrounds it. A look reads no text of its own and is left out. -/
def Reads : Expr → List Nat → Prop
  | empty, w => w = []
  | atom a, w => ∃ c, w = [c] ∧ a.mem c = true
  | look _, _ => False
  | seq a b, w => ∃ u v, w = u ++ v ∧ Reads a u ∧ Reads b v
  | alt a b, w => Reads a w ∨ Reads b w
  | loop a least most, w =>
    ∃ us : List (List Nat), least ≤ us.length ∧ (∀ m, most = some m → us.length ≤ max least m) ∧
      w = us.flatten ∧ ∀ u ∈ us, Reads a u

def LookFree : Expr → Prop
  | empty => True
  | atom _ => True
  | look _ => False
  | seq a b => LookFree a ∧ LookFree b
  | alt a b => LookFree a ∧ LookFree b
  | loop a _ _ => LookFree a

def ReadsAll : List Expr → List Nat → Prop
  | [], w => w = []
  | e :: es, w => ∃ u v, w = u ++ v ∧ e.Reads u ∧ ReadsAll es v

section Reads

variable {a : Charset} {w : List Nat}

theorem flatten_of_atoms {us : List (List Nat)} (h : ∀ u ∈ us, Reads (atom a) u) :
    us.flatten.length = us.length ∧ ∀ c ∈ us.flatten, a.mem c = true := by
  induction us with
  | nil => simp
  | cons u us ih =>
    obtain ⟨c, rfl, hc⟩ := h u List.mem_cons_self
    obtain ⟨hl, hm⟩ := ih fun v hv => h v (List.mem_cons_of_mem _ hv)
    exact ⟨by simp only [List.flatten_cons, List.length_append, hl, List.length_cons, List.length_nil]; omega,
      by simpa [hc] using hm⟩

theorem reads_atoms (h : ∀ c ∈ w, a.mem c = true) : ∀ u ∈ w.map ([·]), Reads (atom a) u := by
  intro u hu
  obtain ⟨c, hc, rfl⟩ := List.mem_map.mp hu
  exact ⟨c, rfl, h c hc⟩

theorem reads_loop_atom (least : Nat) :
    Reads (loop (atom a) least none) w ↔ least ≤ w.length ∧ ∀ c ∈ w, a.mem c = true := by
  constructor
  · rintro ⟨us, hl, -, rfl, hu⟩
    obtain ⟨hlen, hmem⟩ := flatten_of_atoms hu
    exact ⟨by omega, hmem⟩
  · rintro ⟨hl, hm⟩
    exact ⟨w.map ([·]), by simpa, by simp, (List.flatMap_singleton' w).symm, reads_atoms hm⟩

end Reads

theorem readsAll_append {es fs : List Expr} {w : List Nat} :
    ReadsAll (es ++ fs) w ↔ ∃ u v, w = u ++ v ∧ ReadsAll es u ∧ ReadsAll fs v := by
  induction es generalizing w with
  | nil =>
    constructor
    · intro h; exact ⟨[], w, rfl, rfl, h⟩
    · rintro ⟨-, v, rfl, rfl, h⟩; exact h
  | cons e es ih =>
    simp only [List.cons_append, ReadsAll, ih]
    constructor
    · rintro ⟨u, -, rfl, hu, v, t, rfl, hv, ht⟩
      exact ⟨u ++ v, t, by simp, ⟨u, v, rfl, hu, hv⟩, ht⟩
    · rintro ⟨-, t, rfl, ⟨u, v, rfl, hu, hv⟩, ht⟩
      exact ⟨u, v ++ t, by simp, hu, v, t, rfl, hv, ht⟩

theorem readsAll_singleton {e : Expr} {w : List Nat} : ReadsAll [e] w ↔ e.Reads w := by
  constructor
  · rintro ⟨u, v, rfl, hu, rfl⟩; simpa using hu
  · intro h; exact ⟨w, [], by simp, h, rfl⟩

theorem reads_seqs {es : List Expr} {w : List Nat} : (seqs es).Reads w ↔ ReadsAll es w := by
  induction es generalizing w with
  | nil => rfl
  | cons e es ih =>
    cases es with
    | nil => exact readsAll_singleton.symm
    | cons f es => simp only [seqs, Reads, ReadsAll, ih]

section Spans

variable {text : List Nat}

theorem steps_iff {R : Nat → Nat → Prop} {L : List Nat → Prop}
    (hR : ∀ i j, i ≤ text.length → (R i j ↔ ∃ u v, text.drop i = u ++ v ∧ j = i + u.length ∧ L u))
    {n i j : Nat} (hi : i ≤ text.length) :
    Steps R n i j ↔ ∃ (us : List (List Nat)) (v : List Nat), us.length = n ∧ text.drop i = us.flatten ++ v ∧
      j = i + us.flatten.length ∧ ∀ u ∈ us, L u := by
  induction n generalizing i with
  | zero =>
    constructor
    · rintro ⟨⟩; exact ⟨[], text.drop j, rfl, by simp, by simp, by simp⟩
    · rintro ⟨us, v, hn, -, rfl, -⟩
      obtain rfl : us = [] := List.length_eq_zero_iff.mp hn
      exact .none i
  | succ n ih =>
    constructor
    · intro h
      cases h with
      | step hr hs =>
        obtain ⟨u, v, hd, rfl, hu⟩ := (hR _ _ hi).mp hr
        have hlen := congrArg List.length hd
        simp only [List.length_drop, List.length_append] at hlen
        obtain ⟨us, v', hn, hd', rfl, hus⟩ := (ih (by omega)).mp hs
        rw [← List.drop_drop, hd, List.drop_left] at hd'
        exact ⟨u :: us, v', by simp [hn], by simp [hd, hd'], by simp [Nat.add_assoc],
          by simpa [hu] using hus⟩
    · rintro ⟨us, v, hn, hd, rfl, hus⟩
      cases us with
      | nil => simp at hn
      | cons u us =>
        simp only [List.flatten_cons, List.append_assoc] at hd
        have hlen := congrArg List.length hd
        simp only [List.length_drop, List.length_append] at hlen
        refine .step ((hR _ _ hi).mpr ⟨u, us.flatten ++ v, hd, rfl, hus u List.mem_cons_self⟩)
          ((ih (by omega)).mpr ⟨us, v, by simpa using hn, ?_, by simp [Nat.add_assoc],
            fun u' hu' => hus u' (List.mem_cons_of_mem _ hu')⟩)
        rw [← List.drop_drop, hd, List.drop_left]

/-- The text from `i` on begins with members of the language of `e`, and exactly there it has spans. -/
theorem spans_iff {e : Expr} (he : e.LookFree) {i j : Nat} (hi : i ≤ text.length) :
    Spans text e i j ↔ ∃ u v, text.drop i = u ++ v ∧ j = i + u.length ∧ e.Reads u := by
  induction e generalizing i j with
  | empty =>
    constructor
    · rintro rfl; exact ⟨[], text.drop i, by simp, by simp, rfl⟩
    · rintro ⟨u, v, -, rfl, rfl⟩; rfl
  | atom a =>
    constructor
    · rintro ⟨c, hc, ha, rfl⟩
      obtain ⟨hlt, rfl⟩ := List.getElem?_eq_some_iff.mp hc
      exact ⟨[text[i]], text.drop (i + 1), List.drop_eq_getElem_cons hlt, rfl, _, rfl, ha⟩
    · rintro ⟨-, v, hd, rfl, c, rfl, ha⟩
      have hc : (text.drop i)[0]? = some c := by simp [hd]
      exact ⟨c, by simpa using hc, ha, rfl⟩
  | look l => exact he.elim
  | seq a b iha ihb =>
    constructor
    · rintro ⟨k, ha, hb⟩
      obtain ⟨u, v, hd, rfl, hu⟩ := (iha he.1 hi).mp ha
      have hlen := congrArg List.length hd
      simp only [List.length_drop, List.length_append] at hlen
      obtain ⟨u', v', hd', rfl, hu'⟩ := (ihb he.2 (by omega)).mp hb
      rw [← List.drop_drop, hd, List.drop_left] at hd'
      exact ⟨u ++ u', v', by rw [hd, hd', List.append_assoc], by simp; omega, u, u', rfl, hu, hu'⟩
    · rintro ⟨-, v, hd, rfl, u, u', rfl, hu, hu'⟩
      have hlen := congrArg List.length hd
      simp only [List.length_drop, List.length_append] at hlen
      refine ⟨i + u.length, (iha he.1 hi).mpr ⟨u, u' ++ v, by simp [hd], rfl, hu⟩,
        (ihb he.2 (by omega)).mpr ⟨u', v, ?_, by simp; omega, hu'⟩⟩
      rw [← List.drop_drop, hd, List.append_assoc, List.drop_left]
  | alt a b iha ihb =>
    simp only [Spans, Reads, iha he.1 hi, ihb he.2 hi]
    constructor
    · rintro (⟨u, v, h, hj, hu⟩ | ⟨u, v, h, hj, hu⟩)
      · exact ⟨u, v, h, hj, .inl hu⟩
      · exact ⟨u, v, h, hj, .inr hu⟩
    · rintro ⟨u, v, h, hj, hu | hu⟩
      · exact .inl ⟨u, v, h, hj, hu⟩
      · exact .inr ⟨u, v, h, hj, hu⟩
  | loop a least most ih =>
    simp only [Spans, Reads]
    constructor
    · rintro ⟨n, hl, hm, hs⟩
      obtain ⟨us, v, rfl, hd, hj, hus⟩ := (steps_iff (fun _ _ => ih he) hi).mp hs
      exact ⟨us.flatten, v, hd, hj, us, hl, hm, rfl, hus⟩
    · rintro ⟨-, v, hd, hj, us, hl, hm, rfl, hus⟩
      exact ⟨us.length, hl, hm, (steps_iff (fun _ _ => ih he) hi).mpr ⟨us, v, rfl, hd, hj, hus⟩⟩

/-- Without looks, an expression accepts the texts that it reads. -/
theorem accepts_iff_reads {e : Expr} (he : e.LookFree) : e.accepts text = true ↔ e.Reads text := by
  rw [accepts_iff, spans_iff he (Nat.zero_le _), List.drop_zero]
  constructor
  · rintro ⟨u, v, ht, hlen, hu⟩
    have hv := congrArg List.length ht
    rw [List.length_append] at hv
    obtain rfl : v = [] := List.length_eq_zero_iff.mp (by omega)
    rwa [ht, List.append_nil]
  · intro hr
    exact ⟨text, [], (List.append_nil _).symm, (Nat.zero_add _).symm, hr⟩

theorem spans_seqs_cons {e : Expr} {es : List Expr} {i j : Nat} :
    Spans text (seqs (e :: es)) i j ↔ ∃ k, Spans text e i k ∧ Spans text (seqs es) k j := by
  cases es with
  | nil => simp [seqs, Spans]
  | cons f es => rfl

theorem spans_seqs_append {es fs : List Expr} {i j : Nat} :
    Spans text (seqs (es ++ fs)) i j ↔ ∃ k, Spans text (seqs es) i k ∧ Spans text (seqs fs) k j := by
  induction es generalizing i with
  | nil => simp [seqs, Spans]
  | cons e es ih =>
    simp only [List.cons_append, spans_seqs_cons, ih]
    constructor
    · rintro ⟨k, he, m, hes, hfs⟩; exact ⟨m, ⟨k, he, hes⟩, hfs⟩
    · rintro ⟨m, ⟨k, he, hes⟩, hfs⟩; exact ⟨k, he, m, hes, hfs⟩

theorem lookFree_seqs {es : List Expr} (h : ∀ e ∈ es, e.LookFree) : (seqs es).LookFree := by
  induction es with
  | nil => trivial
  | cons e es ih =>
    cases es with
    | nil => exact h e List.mem_cons_self
    | cons f es => exact ⟨h e List.mem_cons_self, ih fun g hg => h g (List.mem_cons_of_mem _ hg)⟩

theorem spans_textStart {i j : Nat} (hi : i ≤ text.length) :
    Spans text (look .textStart) i j ↔ i = 0 ∧ j = 0 := by
  simp only [Spans, Look.holds, Option.isNone_iff_eq_none, unitBefore]
  constructor
  · rintro ⟨rfl, h⟩
    by_cases h0 : i = 0
    · exact ⟨h0, h0⟩
    · rw [if_neg h0, List.getElem?_eq_none_iff] at h; omega
  · rintro ⟨rfl, rfl⟩; exact ⟨rfl, if_pos rfl⟩

theorem spans_textEnd {i j : Nat} :
    Spans text (look .textEnd) i j ↔ i = j ∧ text.length ≤ i := by
  simp [Spans, Look.holds]

theorem found_between_ends {es : List Expr} (h : ∀ e ∈ es, e.LookFree) :
    (seqs (look .textStart :: (es ++ [look .textEnd]))).found text = true ↔ ReadsAll es text := by
  rw [found_iff, ← reads_seqs]
  simp only [spans_seqs_cons, spans_seqs_append]
  constructor
  · rintro ⟨i, j, hi, k, hs, m, hm, n, he, -⟩
    obtain ⟨rfl, rfl⟩ := (spans_textStart hi).mp hs
    obtain ⟨u, v, hd, rfl, hu⟩ := (spans_iff (lookFree_seqs h) hi).mp hm
    have hlen := (spans_textEnd.mp he).2
    have hv := congrArg List.length hd
    simp only [List.drop_zero, List.length_append] at hv
    obtain rfl : v = [] := List.length_eq_zero_iff.mp (by omega)
    rw [List.drop_zero, List.append_nil] at hd
    exact hd ▸ hu
  · intro hr
    refine ⟨0, text.length, Nat.zero_le _, 0, (spans_textStart (Nat.zero_le _)).mpr ⟨rfl, rfl⟩,
      text.length, (spans_iff (lookFree_seqs h) (Nat.zero_le _)).mpr ⟨text, [], by simp, by simp, hr⟩,
      text.length, spans_textEnd.mpr ⟨rfl, Nat.le_refl _⟩, rfl⟩

end Spans

end Exclusion.Expr
