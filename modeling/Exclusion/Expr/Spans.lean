import Exclusion.Expr.Image

/-! # Spans

Which parts of a text match an expression, by the form of the expression alone. A part is given by the
positions where it starts and ends. Searching is right by this measure: `image` leads from a set of
starts to the ends of all spans from there, so `found` asks for any span and `accepts` for the whole
text.
-/

namespace Exclusion

inductive Steps (R : Nat → Nat → Prop) : Nat → Nat → Nat → Prop where
  | none (i : Nat) : Steps R 0 i i
  | step {n i j k : Nat} : R i j → Steps R n j k → Steps R (n + 1) i k

namespace Steps

variable {R : Nat → Nat → Prop} {n m i j k : Nat}

theorem append (h : Steps R n i j) (h' : Steps R m j k) : Steps R (n + m) i k := by
  induction h with
  | none => simpa using h'
  | step hr _ ih => rw [Nat.add_right_comm]; exact .step hr (ih h')

theorem split (h : Steps R (n + m) i k) : ∃ j, Steps R n i j ∧ Steps R m j k := by
  induction n generalizing i with
  | zero => exact ⟨i, .none i, by simpa using h⟩
  | succ n ih =>
    rw [Nat.add_right_comm] at h
    cases h with
    | step hr hs =>
      obtain ⟨j, h₁, h₂⟩ := ih hs
      exact ⟨j, .step hr h₁, h₂⟩

end Steps

def unitBefore (text : List Nat) (i : Nat) : Option Nat :=
  if i = 0 then none else text[i - 1]?

namespace Expr

/-- The span between two positions matches the expression. -/
def Spans (text : List Nat) : Expr → Nat → Nat → Prop
  | empty, i, j => i = j
  | atom a, i, j => ∃ c, text[i]? = some c ∧ a.mem c = true ∧ j = i + 1
  | look l, i, j => i = j ∧ l.holds (unitBefore text i) text[i]? = true
  | seq a b, i, j => ∃ k, Spans text a i k ∧ Spans text b k j
  | alt a b, i, j => Spans text a i j ∨ Spans text b i j
  | loop a least most, i, j =>
    ∃ n, least ≤ n ∧ (∀ m, most = some m → n ≤ max least m) ∧ Steps (Spans text a) n i j

def Places.Has (s : Places) (i : Nat) : Prop := s[i]? = some true

namespace Places

theorem has_union {s t : Places} (h : s.length = t.length) (i : Nat) :
    (s.union t).Has i ↔ s.Has i ∨ t.Has i := by
  unfold Has union
  rw [List.getElem?_zipWith]
  by_cases hi : i < s.length
  · have ht : i < t.length := h ▸ hi
    simp [List.getElem?_eq_getElem hi, List.getElem?_eq_getElem ht]
  · have ht : ¬ i < t.length := h ▸ hi
    simp [List.getElem?_eq_none (Nat.le_of_not_lt hi), List.getElem?_eq_none (Nat.le_of_not_lt ht)]

theorem length_union {s t : Places} (h : s.length = t.length) :
    (s.union t).length = s.length := by
  simp [union, h]

theorem none_iff {s : Places} : s.none = true ↔ ∀ i, ¬ s.Has i := by
  simp only [none, List.all_eq_true, Has, List.getElem?_eq_some_iff, not_exists]
  constructor
  · intro h i hi hs
    have := h _ (List.getElem_mem hi)
    simp [hs] at this
  · intro h b hb
    obtain ⟨i, hi, rfl⟩ := List.getElem_of_mem hb
    simpa using h i hi

end Places

theorem length_positions (before : Option Nat) (text : List Nat) :
    (positions before text).length = text.length + 1 := by
  induction text generalizing before with
  | nil => rfl
  | cons c rest ih => simp [positions, ih]

theorem getElem?_positions (before : Option Nat) (text : List Nat) (i : Nat) (h : i ≤ text.length) :
    (positions before text)[i]? = some (if i = 0 then before else text[i - 1]?, text[i]?) := by
  induction text generalizing before i with
  | nil =>
    obtain rfl : i = 0 := by simpa using h
    rfl
  | cons c rest ih =>
    cases i with
    | zero => rfl
    | succ i =>
      simp only [positions, List.getElem?_cons_succ, Nat.succ_ne_zero, if_false, Nat.add_sub_cancel]
      rw [ih _ _ (by simpa using h)]
      cases i <;> simp

theorem length_advance {text : List Nat} {a : Charset} {s : Places} (h : s.length = text.length + 1) :
    (advance text a s).length = text.length + 1 := by
  simp [advance, h]

theorem has_advance {text : List Nat} {a : Charset} {s : Places} (j : Nat) :
    (advance text a s).Has j ↔ ∃ i, s.Has i ∧ Spans text (atom a) i j := by
  simp only [advance, Places.Has, Spans]
  cases j with
  | zero => simp
  | succ j =>
    simp only [List.getElem?_cons_succ, List.getElem?_zipWith]
    constructor
    · intro h
      split at h
      · rename_i b c hb hc
        simp only [Option.some.injEq, Bool.and_eq_true] at h
        exact ⟨j, h.1 ▸ hb, c, hc, h.2, rfl⟩
      · simp at h
    · rintro ⟨i, hi, c, hc, ha, hj⟩
      obtain rfl : j = i := by omega
      simp [hi, hc, ha]

theorem length_stay {text : List Nat} {l : Look} {s : Places} (h : s.length = text.length + 1) :
    (stay text l s).length = text.length + 1 := by
  simp [stay, h, length_positions]

theorem has_stay {text : List Nat} {l : Look} {s : Places} (h : s.length = text.length + 1) (j : Nat) :
    (stay text l s).Has j ↔ ∃ i, s.Has i ∧ Spans text (look l) i j := by
  simp only [stay, Places.Has, Spans, List.getElem?_zipWith]
  by_cases hj : j ≤ text.length
  · rw [getElem?_positions _ _ _ hj]
    have hs : j < s.length := by omega
    simp only [List.getElem?_eq_getElem hs, Option.some.injEq, Bool.and_eq_true]
    constructor
    · rintro ⟨h₁, h₂⟩
      exact ⟨j, by simp [List.getElem?_eq_getElem hs, h₁], rfl, h₂⟩
    · rintro ⟨i, hi, rfl, hl⟩
      rw [List.getElem?_eq_getElem hs] at hi
      exact ⟨by simpa using hi, hl⟩
  · have hs : s[j]? = Option.none := List.getElem?_eq_none (by omega)
    simp only [hs]
    constructor
    · intro h; simp at h
    · rintro ⟨i, hi, rfl, -⟩
      simp [hs] at hi

theorem iterate_of_fixed {f : Places → Places} {s : Places} (h : f s = s) (n : Nat) :
    iterate f n s = s := by
  cases n <;> simp [iterate, h]

theorem iterate_succ (f : Places → Places) (n : Nat) (s : Places) :
    iterate f (n + 1) s = iterate f n (f s) := by
  by_cases h : f s = s
  · simp [iterate, h, iterate_of_fixed h]
  · simp [iterate, h]

section Loop

variable {f : Places → Places} {R : Nat → Nat → Prop} {size : Nat}

theorem length_iterate (hf : ∀ s : Places, s.length = size → (f s).length = size) (n : Nat) {s : Places}
    (h : s.length = size) : (iterate f n s).length = size := by
  induction n generalizing s with
  | zero => exact h
  | succ n ih => rw [iterate_succ]; exact ih (hf s h)

theorem has_iterate (hf : ∀ s : Places, s.length = size → (f s).length = size)
    (hR : ∀ s : Places, s.length = size → ∀ j, (f s).Has j ↔ ∃ i, s.Has i ∧ R i j) (n : Nat) {s : Places}
    (h : s.length = size) (j : Nat) :
    (iterate f n s).Has j ↔ ∃ i, s.Has i ∧ Steps R n i j := by
  induction n generalizing s with
  | zero =>
    constructor
    · intro hj; exact ⟨j, hj, .none j⟩
    · rintro ⟨i, hi, hs⟩; cases hs; exact hi
  | succ n ih =>
    rw [iterate_succ, ih (hf s h)]
    constructor
    · rintro ⟨k, hk, hs⟩
      obtain ⟨i, hi, hr⟩ := (hR s h k).1 hk
      exact ⟨i, hi, .step hr hs⟩
    · rintro ⟨i, hi, hs⟩
      cases hs with
      | step hr hs => exact ⟨_, (hR s h _).2 ⟨i, hi, hr⟩, hs⟩

def widen (f : Places → Places) (s : Places) : Places := s.union (f s)

theorem length_widen (hf : ∀ s : Places, s.length = size → (f s).length = size) {s : Places}
    (h : s.length = size) : (widen f s).length = size := by
  rw [widen, Places.length_union (by rw [h, hf s h]), h]

theorem has_widen (hf : ∀ s : Places, s.length = size → (f s).length = size)
    (hR : ∀ s : Places, s.length = size → ∀ j, (f s).Has j ↔ ∃ i, s.Has i ∧ R i j) {s : Places}
    (h : s.length = size) (j : Nat) :
    (widen f s).Has j ↔ s.Has j ∨ ∃ i, s.Has i ∧ R i j := by
  rw [widen, Places.has_union (by rw [h, hf s h]), hR s h]

theorem has_iterate_widen (hf : ∀ s : Places, s.length = size → (f s).length = size)
    (hR : ∀ s : Places, s.length = size → ∀ j, (f s).Has j ↔ ∃ i, s.Has i ∧ R i j) (n : Nat) {s : Places}
    (h : s.length = size) (j : Nat) :
    (iterate (widen f) n s).Has j ↔ ∃ i m, m ≤ n ∧ s.Has i ∧ Steps R m i j := by
  induction n generalizing s with
  | zero =>
    constructor
    · intro hj; exact ⟨j, 0, Nat.le_refl 0, hj, .none j⟩
    · rintro ⟨i, m, hm, hi, hs⟩
      obtain rfl : m = 0 := by omega
      cases hs; exact hi
  | succ n ih =>
    rw [iterate_succ, ih (length_widen hf h)]
    constructor
    · rintro ⟨k, m, hm, hk, hs⟩
      rcases (has_widen hf hR h k).1 hk with hk | ⟨i, hi, hr⟩
      · exact ⟨k, m, by omega, hk, hs⟩
      · exact ⟨i, m + 1, by omega, hi, .step hr hs⟩
    · rintro ⟨i, m, hm, hi, hs⟩
      cases hs with
      | none => exact ⟨_, 0, by omega, (has_widen hf hR h _).2 (.inl hi), .none _⟩
      | @step m _ k _ hr hs =>
        exact ⟨k, m, by omega, (has_widen hf hR h _).2 (.inr ⟨i, hi, hr⟩), hs⟩

theorem count_widen {s t : Places} (h : s.length = t.length) (hne : s.union t ≠ s) :
    s.count true < (s.union t).count true := by
  induction s generalizing t with
  | nil => simp [Places.union] at hne
  | cons a s ih =>
    cases t with
    | nil => simp at h
    | cons b t =>
      have hle : s.count true ≤ (Places.union s t).count true := by
        by_cases he : Places.union s t = s
        · exact Nat.le_of_eq (congrArg (List.count true) he.symm)
        · exact Nat.le_of_lt (ih (by simpa using h) he)
      cases a <;> cases b
      · have he : Places.union s t ≠ s := fun he => hne (by simp [Places.union] at he ⊢; exact he)
        simpa [Places.union] using ih (by simpa using h) he
      · simp [Places.union] at hle ⊢; omega
      · have he : Places.union s t ≠ s := fun he => hne (by simp [Places.union] at he ⊢; exact he)
        have := ih (by simpa using h) he
        simp [Places.union] at this ⊢; omega
      · have he : Places.union s t ≠ s := fun he => hne (by simp [Places.union] at he ⊢; exact he)
        have := ih (by simpa using h) he
        simp [Places.union] at this ⊢; omega

theorem widen_iterate (hf : ∀ s : Places, s.length = size → (f s).length = size) (n : Nat) {s : Places}
    (h : s.length = size) (hn : size ≤ n + s.count true) :
    widen f (iterate (widen f) n s) = iterate (widen f) n s := by
  induction n generalizing s with
  | zero =>
    by_cases he : widen f s = s
    · exact he
    · have h₁ := count_widen (by rw [h, hf s h]) he
      have h₂ := List.count_le_length (a := true) (l := s.union (f s))
      rw [Places.length_union (by rw [h, hf s h])] at h₂
      omega
  | succ n ih =>
    rw [iterate_succ]
    by_cases he : widen f s = s
    · rw [he, iterate_of_fixed he, he]
    · have h₁ := count_widen (by rw [h, hf s h]) he
      exact ih (length_widen hf h) (by unfold widen; omega)

theorem has_iterate_all (hf : ∀ s : Places, s.length = size → (f s).length = size)
    (hR : ∀ s : Places, s.length = size → ∀ j, (f s).Has j ↔ ∃ i, s.Has i ∧ R i j) {s : Places}
    (h : s.length = size) (j : Nat) :
    (iterate (widen f) size s).Has j ↔ ∃ i m, s.Has i ∧ Steps R m i j := by
  have hlen := length_iterate (fun s hs => length_widen hf hs) size h
  have hfix := widen_iterate hf size h (Nat.le_add_right _ _)
  have hclosed : ∀ m i k, (iterate (widen f) size s).Has i → Steps R m i k →
      (iterate (widen f) size s).Has k := by
    intro m
    induction m with
    | zero => intro i k hi hs; cases hs; exact hi
    | succ m ih =>
      intro i k hi hs
      cases hs with
      | step hr hs =>
        refine ih _ _ ?_ hs
        rw [← hfix]
        exact (has_widen hf hR hlen _).2 (.inr ⟨i, hi, hr⟩)
  constructor
  · intro hj
    obtain ⟨i, m, -, hi, hs⟩ := (has_iterate_widen hf hR size h j).1 hj
    exact ⟨i, m, hi, hs⟩
  · rintro ⟨i, m, hi, hs⟩
    exact hclosed m i j ((has_iterate_widen hf hR size h i).2 ⟨i, 0, Nat.zero_le _, hi, .none i⟩) hs

end Loop

theorem length_image {text : List Nat} (e : Expr) {s : Places} (h : s.length = text.length + 1) :
    (image text e s).length = text.length + 1 := by
  induction e generalizing s with
  | empty => exact h
  | atom a => exact length_advance h
  | look l => exact length_stay h
  | seq a b iha ihb =>
    simp only [image]
    split
    · exact iha h
    · exact ihb (iha h)
  | alt a b iha ihb =>
    simp only [image]
    rw [Places.length_union (by rw [iha h, ihb h]), iha h]
  | loop a least most ih =>
    exact length_iterate (fun s hs => length_widen (fun s => ih) hs) _
      (length_iterate (fun s => ih) least h)

theorem has_image {text : List Nat} (e : Expr) {s : Places} (h : s.length = text.length + 1) (j : Nat) :
    (image text e s).Has j ↔ ∃ i, s.Has i ∧ Spans text e i j := by
  induction e generalizing s j with
  | empty => simp [image, Spans]
  | atom a => exact has_advance j
  | look l => exact has_stay h j
  | seq a b iha ihb =>
    have hlen := length_image a h
    have hseq : (image text b (image text a s)).Has j ↔ ∃ i, s.Has i ∧ Spans text (seq a b) i j := by
      rw [ihb hlen]
      constructor
      · rintro ⟨k, hk, hb⟩
        obtain ⟨i, hi, ha⟩ := (iha h k).1 hk
        exact ⟨i, hi, k, ha, hb⟩
      · rintro ⟨i, hi, k, ha, hb⟩
        exact ⟨k, (iha h k).2 ⟨i, hi, ha⟩, hb⟩
    simp only [image]
    split
    · rename_i hnone
      have hno := Places.none_iff.1 hnone
      constructor
      · intro hj; exact absurd hj (hno j)
      · rintro ⟨i, hi, k, ha, -⟩
        exact absurd ((iha h k).2 ⟨i, hi, ha⟩) (hno k)
    · exact hseq
  | alt a b iha ihb =>
    simp only [image, Spans]
    rw [Places.has_union (by rw [length_image a h, length_image b h]), iha h, ihb h]
    constructor
    · rintro (⟨i, hi, ha⟩ | ⟨i, hi, hb⟩)
      · exact ⟨i, hi, .inl ha⟩
      · exact ⟨i, hi, .inr hb⟩
    · rintro ⟨i, hi, ha | hb⟩
      · exact .inl ⟨i, hi, ha⟩
      · exact .inr ⟨i, hi, hb⟩
  | loop a least most ih =>
    have hf : ∀ s : Places, s.length = text.length + 1 → (image text a s).length = text.length + 1 :=
      fun s => length_image a
    have hR : ∀ s : Places, s.length = text.length + 1 → ∀ j,
        (image text a s).Has j ↔ ∃ i, s.Has i ∧ Spans text a i j := fun s hs j => ih hs j
    have hbegun := length_iterate hf least h
    simp only [image, Spans]
    cases most with
    | some m =>
      dsimp only
      rw [show (fun s => Places.union s (image text a s)) = widen (image text a) from rfl,
        has_iterate_widen hf hR _ hbegun]
      constructor
      · rintro ⟨k, n, hn, hk, hs⟩
        obtain ⟨i, hi, hs'⟩ := (has_iterate hf hR least h k).1 hk
        exact ⟨i, hi, least + n, by omega, by intro m' hm; cases hm; omega, hs'.append hs⟩
      · rintro ⟨i, hi, n, hn, hm, hs⟩
        obtain ⟨k, hs₁, hs₂⟩ := Steps.split (n := least) (m := n - least) (by rwa [show least + (n - least) = n by omega])
        have := hm m rfl
        exact ⟨k, n - least, by omega, (has_iterate hf hR least h k).2 ⟨i, hi, hs₁⟩, hs₂⟩
    | none =>
      dsimp only
      rw [show (fun s => Places.union s (image text a s)) = widen (image text a) from rfl,
        has_iterate_all hf hR hbegun]
      constructor
      · rintro ⟨k, n, hk, hs⟩
        obtain ⟨i, hi, hs'⟩ := (has_iterate hf hR least h k).1 hk
        exact ⟨i, hi, least + n, by omega, by simp, hs'.append hs⟩
      · rintro ⟨i, hi, n, hn, -, hs⟩
        obtain ⟨k, hs₁, hs₂⟩ := Steps.split (n := least) (m := n - least) (by rwa [show least + (n - least) = n by omega])
        exact ⟨k, n - least, (has_iterate hf hR least h k).2 ⟨i, hi, hs₁⟩, hs₂⟩

theorem found_iff {text : List Nat} {e : Expr} :
    e.found text = true ↔ ∃ i j, i ≤ text.length ∧ Spans text e i j := by
  have hlen : (List.replicate (text.length + 1) true).length = text.length + 1 := by simp
  have hhas : ∀ i, Places.Has (List.replicate (text.length + 1) true) i ↔ i ≤ text.length := by
    intro i
    simp only [Places.Has, List.getElem?_replicate, Option.ite_none_right_eq_some, and_true]
    exact Nat.lt_succ_iff
  constructor
  · intro h
    obtain ⟨b, hb, hb'⟩ := List.any_eq_true.1 h
    obtain ⟨j, hj, rfl⟩ := List.getElem_of_mem hb
    obtain ⟨i, hi, hs⟩ := (has_image e hlen j).1 (by
      simp only [Places.Has, List.getElem?_eq_getElem hj]
      simpa using hb')
    exact ⟨i, j, (hhas i).1 hi, hs⟩
  · rintro ⟨i, j, hi, hs⟩
    have hj := (has_image e hlen j).2 ⟨i, (hhas i).2 hi, hs⟩
    exact List.any_eq_true.2 ⟨true, List.mem_of_getElem? hj, rfl⟩

theorem accepts_iff {text : List Nat} {e : Expr} :
    e.accepts text = true ↔ Spans text e 0 text.length := by
  have hlen : (true :: List.replicate text.length false).length = text.length + 1 := by simp
  have hhas : ∀ i, Places.Has (true :: List.replicate text.length false) i ↔ i = 0 := by
    intro i
    cases i with
    | zero => simp [Places.Has]
    | succ i => simp [Places.Has, List.getElem?_replicate]
  have hlast : (image text e (true :: List.replicate text.length false)).getLast? =
      (image text e (true :: List.replicate text.length false))[text.length]? := by
    rw [List.getLast?_eq_getElem?, length_image e hlen]; simp
  simp only [accepts, hlast, beq_iff_eq]
  rw [show ((image text e (true :: List.replicate text.length false))[text.length]? = some true) ↔ _ from
    has_image e hlen text.length]
  constructor
  · rintro ⟨i, hi, hs⟩
    rwa [(hhas i).1 hi] at hs
  · intro hs
    exact ⟨0, (hhas 0).2 rfl, hs⟩

end Expr

end Exclusion
