import Exclusion.Proofs.Expr.Denotation
import Exclusion.Proofs.Rule.Closing
import Exclusion.Proofs.Rule.Language

/-! # How bracket classes are read

The members of a class go together to ranges, to single characters, and to differences where two hyphens
meet. So the text of a class that a line closes is read as one class, unless the ends of a range are in
descending order.
-/

namespace Exclusion.Rule

open Exclusion.Expr

namespace Member

/-- Two members around a hyphen, or two hyphens that meet, or a member for itself. -/
inductive Part where
  | single (m : Member)
  | range (low high : Member)
  | difference
  deriving DecidableEq, Repr

def parts : List Member → List Part
  | [] => []
  | plain '-' :: plain '-' :: ms => .difference :: parts ms
  | m :: plain '-' :: plain '-' :: ms => .single m :: .difference :: parts ms
  | low :: plain '-' :: high :: ms => .range low high :: parts ms
  | m :: ms => .single m :: parts ms

/-- What a part adds to the class that is being read. -/
def Part.apply (st : ClassState) : Part → Except Fault ClassState
  | single m => .ok { st with items := ⟨.single m.char.toNat, 0⟩ :: st.items }
  | range low high =>
    (Class.rangeSet low.char high.char).map fun a => { st with items := ⟨a, 0⟩ :: st.items }
  | difference =>
    let (left, stack) := Class.complete .initial (Class.gather st.items) st.stack
    .ok ⟨[], .operator .difference left :: stack⟩

/-- The text of members up to the bracket that closes them, and what follows. -/
def closing (ms : List Member) (rest : List Char) : List Char := ms.flatMap text ++ ']' :: rest

@[simp] theorem closing_nil (rest : List Char) : closing [] rest = ']' :: rest := rfl

@[simp] theorem closing_cons (m : Member) (ms : List Member) (rest : List Char) :
    closing (m :: ms) rest = m.text ++ closing ms rest := by
  simp [closing]

@[simp] theorem text_hyphen : (plain '-').text = ['-'] := by decide

variable {m low high : Member} {ms : List Member} {st : ClassState} {rest : List Char}

theorem text_cases (h : m ≠ plain '\\') :
    (m.text = [m.char] ∧ m.char ∉ ['[', ']', '\\', '&', '~'] ∧ ∀ c ∈ ['-', '^'], m.char = c → m = plain c) ∨
      (m.text = ['\\', m.char] ∧ Escape.isPlain m.char = true) := by
  cases m with
  | plain c =>
    change ((if c ∈ ['[', ']', '&', '~'] then ['\\', c] else [c]) = _ ∧ _) ∨
      ((if c ∈ ['[', ']', '&', '~'] then ['\\', c] else [c]) = _ ∧ _)
    split
    · rename_i hc
      exact .inr ⟨rfl, isPlain_of_isMeta (List.all_eq_true.mp (by decide) c hc)⟩
    · rename_i hc
      refine .inl ⟨rfl, ?_, fun d _ hd => congrArg plain hd⟩
      have hne : c ≠ '\\' := fun he => h (congrArg plain he)
      simp_all [char]
  | quoted c =>
    change ((if isMeta c then ['\\', c] else [c]) = _ ∧ _) ∨ ((if isMeta c then ['\\', c] else [c]) = _ ∧ _)
    split
    · rename_i hc; exact .inr ⟨rfl, isPlain_of_isMeta hc⟩
    · rename_i hc
      have hnot {d : Char} (hd : isMeta d = true) : c ≠ d := fun he => hc (he ▸ hd)
      refine .inl ⟨rfl, ?_, ?_⟩
      · simp only [char, List.mem_cons, List.not_mem_nil, or_false, not_or]
        exact ⟨hnot rfl, hnot rfl, hnot rfl, hnot rfl, hnot rfl⟩
      · intro d hd he
        exact absurd he (hnot (List.all_eq_true.mp (by decide) d hd))

theorem head_text (h : m ≠ plain '\\') : ∃ c t, m.text = c :: t ∧ c ∉ ['[', ']', '&', '~'] ∧
    ∀ d ∈ ['-', '^'], c = d → m = plain d := by
  rcases text_cases h with ⟨ht, hc, hd⟩ | ⟨ht, -⟩
  · exact ⟨_, _, ht, by simp_all, hd⟩
  · exact ⟨_, _, ht, by decide, fun d hd he => absurd hd (he ▸ by decide)⟩

theorem readMember_text (h : m ≠ plain '\\') (rest : List Char) :
    Class.readMember .initial (m.text ++ rest) = .ok (.literal m.char, rest) := by
  rcases text_cases h with ⟨ht, hc, -⟩ | ⟨ht, hp⟩
  · have hne : m.char ≠ '\\' := fun he => hc (by simp [he])
    rw [ht]
    exact Class.readMember.eq_3 _ _ _ hne
  · rw [ht]
    simp only [List.cons_append, List.nil_append, Class.readMember, Escape.read, Escape.readFrom, hp, if_true]

theorem head?_text_append (h : m ≠ plain '\\') (hm : m ≠ plain '-') (rest : List Char) :
    (m.text ++ rest).head? ≠ some '-' ∧ (m.text ++ rest).head? ≠ some ']' := by
  obtain ⟨c, t, ht, hc, hd⟩ := head_text h
  rw [ht, List.cons_append, List.head?_cons]
  exact ⟨fun he => hm (hd '-' (by simp) (Option.some.inj he)), fun he => hc (by simp [Option.some.inj he])⟩

/-- Only two hyphens that meet begin an operator. -/
theorem operator?_text (h : m ≠ plain '\\') (hm : m = plain '-' → rest.head? ≠ some '-') :
    Class.operator? (m.text ++ rest) = none := by
  obtain ⟨c, t, ht, hc, hd⟩ := head_text h
  rw [ht, List.cons_append]
  unfold Class.operator?
  split
  · simp_all
  · rename_i r heq
    obtain ⟨rfl, hr⟩ := List.cons.inj heq
    obtain rfl := hd '-' (by simp) rfl
    obtain rfl : [] = t := by simpa [text] using ht
    exact absurd (congrArg List.head? hr) (hm rfl)
  · simp_all
  · rfl

section Steps

open Class

theorem readItem_single (h : m ≠ plain '\\') (hr : rest.head? ≠ some '-') :
    readItem .initial (m.text ++ rest) = .ok (.single m.char.toNat, rest) := by
  simp only [readItem, readMember_text h, skip_initial, bind, Except.bind]
  split
  · simp at hr
  · rfl

theorem readItem_before_hyphen (h : m ≠ plain '\\') (hr : rest.head? = some ']' ∨ rest.head? = some '-') :
    readItem .initial (m.text ++ '-' :: rest) = .ok (.single m.char.toNat, '-' :: rest) := by
  have hp : (peek .initial rest == some ']' || peek .initial rest == some '-') = true := by
    change (rest.head? == some ']' || rest.head? == some '-') = true
    simpa using hr
  simp only [readItem, readMember_text h, skip_initial, bind, Except.bind, hp, if_true]
  rfl

theorem readItem_range (hl : low ≠ plain '\\') (hh : high ≠ plain '\\') (hne : high ≠ plain '-') :
    readItem .initial (low.text ++ '-' :: (high.text ++ rest)) =
      (rangeSet low.char high.char).map (·, rest) := by
  obtain ⟨h₁, h₂⟩ := head?_text_append hh hne rest
  have hp : (peek .initial (high.text ++ rest) == some ']' || peek .initial (high.text ++ rest) == some '-') =
      false := by
    change ((high.text ++ rest).head? == some ']' || (high.text ++ rest).head? == some '-') = false
    rw [beq_false_of_ne h₁, beq_false_of_ne h₂]; rfl
  have hchar (c : Char) : memberChar .initial (.literal c) = .ok c := rfl
  simp only [readItem, readMember_text hl, readMember_text hh, skip_initial, bind, Except.bind, hp, hchar,
    Bool.false_eq_true, if_false]
  cases rangeSet low.char high.char <;> rfl

theorem run_text {s : List Char} (h : m ≠ plain '\\') (hm : m = plain '-' → s.head? ≠ some '-') :
    Class.run .initial st (m.text ++ s) = (readItem .initial (m.text ++ s)).bind fun (a, after) =>
      Class.run .initial { st with items := ⟨a, 0⟩ :: st.items } after := by
  have hop := operator?_text h hm
  obtain ⟨c, t, ht, hc, -⟩ := head_text h
  rw [ht, List.cons_append] at hop ⊢
  exact run_readItem (fun he => hc (by simp [he])) (fun he => hc (by simp [he])) hop

theorem run_single {s : List Char} (h : m ≠ plain '\\') (hs : s.head? ≠ some '-') :
    Class.run .initial st (m.text ++ s) =
      (Part.single m).apply st >>= fun st => Class.run .initial st s := by
  rw [run_text h fun _ => hs, readItem_single h hs]; rfl

theorem run_before_hyphen {s : List Char} (h : m ≠ plain '\\') (hm : m ≠ plain '-')
    (hs : s.head? = some ']' ∨ s.head? = some '-') :
    Class.run .initial st (m.text ++ '-' :: s) =
      (Part.single m).apply st >>= fun st => Class.run .initial st ('-' :: s) := by
  rw [run_text h fun he => absurd he hm, readItem_before_hyphen h hs]; rfl

theorem run_range {s : List Char} (hl : low ≠ plain '\\') (hlow : low ≠ plain '-') (hh : high ≠ plain '\\')
    (hhigh : high ≠ plain '-') : Class.run .initial st (low.text ++ '-' :: (high.text ++ s)) =
      (Part.range low high).apply st >>= fun st => Class.run .initial st s := by
  rw [run_text hl fun he => absurd he hlow, readItem_range hl hh hhigh, Part.apply]
  cases rangeSet low.char high.char <;> rfl

theorem run_difference (s : List Char) : Class.run .initial st ('-' :: '-' :: s) =
    Part.difference.apply st >>= fun st => Class.run .initial st s :=
  run_operator (by decide) (by decide) rfl

theorem closing_head {c : Char} (hc : c ∈ ['-', '^']) (h : plain '\\' ∉ ms) (hm : ms.head? ≠ some (plain c)) :
    (closing ms rest).head? ≠ some c := by
  cases ms with
  | nil => rintro ⟨⟩; exact absurd hc (by decide)
  | cons m ms =>
    rw [closing_cons]
    obtain ⟨d, t, ht, -, hd⟩ := head_text fun he => h (he ▸ List.mem_cons_self)
    rw [ht]
    exact fun he => hm (congrArg some (hd c hc (Option.some.inj he)))

/-- Reading the text of members is putting their parts together. -/
theorem run_closing (h : plain '\\' ∉ ms) (st : ClassState) : Class.run .initial st (closing ms rest) =
    (parts ms).foldlM Part.apply st >>= fun st => Class.run .initial st (']' :: rest) := by
  fun_induction parts ms generalizing st with
  | case1 => rfl
  | case2 ms ih =>
    simp only [List.mem_cons, not_or] at h
    simp only [closing_cons, text_hyphen, List.cons_append, List.nil_append, List.foldlM_cons, bind_assoc]
    rw [run_difference]
    exact bind_congr fun st => ih h.2.2 st
  | case3 m ms hm ih =>
    simp only [List.mem_cons, not_or] at h
    simp only [closing_cons, text_hyphen, List.cons_append, List.nil_append, List.foldlM_cons, bind_assoc]
    rw [run_before_hyphen (Ne.symm h.1) hm (.inr rfl)]
    refine bind_congr fun st => ?_
    rw [run_difference]
    exact bind_congr fun st => ih h.2.2.2 st
  | case4 low high ms hlow hhigh ih =>
    simp only [List.mem_cons, not_or] at h
    simp only [closing_cons, text_hyphen, List.cons_append, List.nil_append, List.foldlM_cons, bind_assoc]
    rw [run_range (Ne.symm h.1) hlow (Ne.symm h.2.2.1) hhigh]
    exact bind_congr fun st => ih h.2.2.2 st
  | case5 m ms h₁ h₂ h₃ ih =>
    simp only [List.mem_cons, not_or] at h
    simp only [closing_cons, List.foldlM_cons, bind_assoc]
    by_cases hhead : ms.head? = some (plain '-')
    · obtain ⟨ms, rfl⟩ := List.head?_eq_some_iff.mp hhead
      cases ms with
      | nil =>
        simp only [closing_cons, text_hyphen, List.cons_append, List.nil_append]
        rw [run_before_hyphen (Ne.symm h.1) (fun he => h₁ _ he rfl) (.inl rfl)]
        exact bind_congr fun st => ih h.2 st
      | cons high ms => exact absurd rfl (h₃ _ _)
    · rw [run_single (Ne.symm h.1) (closing_head (by simp) h.2 hhead)]
      exact bind_congr fun st => ih h.2 st

/-- Nothing but one class is open, and the operators in it have taken `n` hyphens. -/
structure Within (complemented : Bool) (n : Nat) (st : ClassState) : Prop where
  items : ∀ a ∈ st.items, a.depth = 0
  stack : st.stack = [.opened complemented []] ∨ ∃ op left,
    st.stack = [.operator op left, .opened complemented []] ∧ 2 ≤ n ∧ 2 * left.depth ≤ n

variable {complemented : Bool} {n : Nat}

theorem gather_depth {items : List Nested} (h : ∀ a ∈ items, a.depth = 0) : (gather items).depth ≤ 1 := by
  unfold gather
  split
  · exact Nat.zero_le _
  · rename_i a hr
    have ha : a ∈ items := by rw [← List.mem_reverse, hr]; exact List.mem_singleton_self a
    rw [h a ha]; exact Nat.zero_le 1
  · have hmax : (items.reverse.map (·.depth)).foldl max 0 ≤ 0 := by
      refine Item.foldl_max_le_iff.mpr ⟨Nat.le_refl 0, fun k hk => ?_⟩
      obtain ⟨a, ha, rfl⟩ := List.mem_map.mp hk
      exact Nat.le_of_eq (h a (List.mem_reverse.mp ha))
    change 1 + (items.reverse.map (·.depth)).foldl max 0 ≤ 1
    omega

theorem complete_operator {op : SetOperator} {left : Nested}
    (h : st.stack = [.operator op left, .opened complemented []]) :
    Class.complete .initial (gather st.items) st.stack =
      (⟨op.apply left.set (gather st.items).set, 1 + max left.depth (gather st.items).depth⟩,
        [.opened complemented []]) := by
  rw [h]; rfl

theorem run_close_of_complete {inner : Nested}
    (h : Class.complete .initial (gather st.items) st.stack = (inner, [.opened complemented []]))
    (rest : List Char) : Class.run .initial st (']' :: rest) =
      .ok (⟨if complemented then .compl inner.set else inner.set, 1 + inner.depth⟩, rest) := by
  refine run_close ?_
  rw [Class.close, h]
  cases complemented <;> rfl

theorem Within.complete (h : Within complemented n st) : ∃ inner,
    Class.complete .initial (gather st.items) st.stack = (inner, [.opened complemented []]) ∧
      2 * inner.depth ≤ n + 2 := by
  have hg := gather_depth h.items
  rcases h.stack with hs | ⟨op, left, hs, hn, hl⟩
  · exact ⟨_, by rw [hs]; rfl, by omega⟩
  · exact ⟨_, complete_operator hs, by dsimp only; omega⟩

theorem Within.close (h : Within complemented n st) : ∃ d : Nested, 2 * d.depth ≤ n + 4 ∧
    ∀ rest, Class.run .initial st (']' :: rest) = .ok (d, rest) := by
  obtain ⟨inner, hc, hd⟩ := h.complete
  exact ⟨_, by dsimp only; omega, run_close_of_complete hc⟩

theorem Within.push (h : Within complemented n st) (a : Charset) :
    Within complemented n { st with items := ⟨a, 0⟩ :: st.items } :=
  ⟨List.forall_mem_cons.mpr ⟨rfl, h.items⟩, h.stack⟩

theorem Within.difference (h : Within complemented n st) :
    ∃ next, Part.difference.apply st = .ok next ∧ Within complemented (n + 2) next := by
  obtain ⟨inner, hc, hd⟩ := h.complete
  refine ⟨⟨[], [.operator .difference inner, .opened complemented []]⟩, by rw [Part.apply, hc], nofun, ?_⟩
  exact .inr ⟨_, inner, rfl, Nat.le_add_left 2 n, hd⟩

def Assembles (complemented : Bool) (n : Nat) (ps : List Part) (st : ClassState) : Prop :=
  (∃ next, ps.foldlM Part.apply st = .ok next ∧ Within complemented n next) ∨
    ∃ low high, .range low high ∈ ps ∧ high.char < low.char ∧
      ps.foldlM Part.apply st = .error .descendingRange

theorem Assembles.cons {p : Part} {ps : List Part} {next : ClassState} (hp : p.apply st = .ok next)
    (h : Assembles complemented n ps next) : Assembles complemented n (p :: ps) st := by
  rw [Assembles, List.foldlM_cons, hp]
  refine h.imp id ?_
  rintro ⟨low, high, hm, hlt, he⟩
  exact ⟨low, high, List.mem_cons_of_mem _ hm, hlt, he⟩

theorem Within.assembles (h : Within complemented n st) (ps : List Part) :
    Assembles complemented (n + 2 * ps.count .difference) ps st := by
  induction ps generalizing st n with
  | nil => exact .inl ⟨st, rfl, h⟩
  | cons p ps ih =>
    cases p with
    | single m =>
      rw [List.count_cons_of_ne (by simp)]
      exact .cons rfl (ih (h.push _))
    | difference =>
      obtain ⟨next, hp, hn⟩ := h.difference
      rw [List.count_cons_self, Nat.mul_add, Nat.add_comm _ (2 * 1), ← Nat.add_assoc]
      exact .cons hp (ih hn)
    | range low high =>
      rw [List.count_cons_of_ne (by simp)]
      by_cases hlt : high.char < low.char
      · refine .inr ⟨low, high, List.mem_cons_self, hlt, ?_⟩
        rw [List.foldlM_cons, Part.apply, rangeSet, if_pos hlt]; rfl
      · refine .cons ?_ (ih (h.push (.range low.char.toNat high.char.toNat)))
        rw [Part.apply, rangeSet, if_neg hlt]; rfl

end Steps

theorem count_difference_parts (ms : List Member) :
    2 * (parts ms).count .difference ≤ ms.count (plain '-') := by
  fun_induction parts ms <;> grind

theorem infix_of_range (h : .range low high ∈ parts ms) : [low, plain '-', high] <:+: ms := by
  fun_induction parts ms with
  | case1 => cases h
  | case2 ms ih =>
    exact (ih (by simpa using h)).trans (List.suffix_append [plain '-', plain '-'] ms).isInfix
  | case3 m ms _ ih =>
    exact (ih (by simpa using h)).trans (List.suffix_append [m, plain '-', plain '-'] ms).isInfix
  | case4 l r ms _ _ ih =>
    rcases List.mem_cons.mp h with he | hm
    · cases he; exact (List.prefix_append [low, plain '-', high] ms).isInfix
    · exact (ih hm).trans (List.suffix_append [l, plain '-', r] ms).isInfix
  | case5 m ms _ _ _ ih =>
    exact (ih (by simpa using h)).trans (List.suffix_cons m ms).isInfix

theorem hyphens_closing (h : plain '\\' ∉ ms) (rest : List Char) :
    Class.hyphens .initial (closing ms rest) =
      ((ms.takeWhile (· == plain '-')).map fun _ => ⟨.single '-'.toNat, 0⟩,
        closing (ms.dropWhile (· == plain '-')) rest) := by
  have stop {ms : List Member} (h : plain '\\' ∉ ms) (hm : ms.head? ≠ some (plain '-')) :
      Class.hyphens .initial (closing ms rest) = ([], closing ms rest) := by
    rw [Class.hyphens]
    exact fun r he => closing_head (by simp) h hm (congrArg List.head? he)
  induction ms with
  | nil => exact stop h (by simp)
  | cons m ms ih =>
    rw [List.mem_cons, not_or] at h
    by_cases hm : m = plain '-'
    · subst hm
      rw [closing_cons, text_hyphen, List.singleton_append, Class.hyphens, skip_initial, ih h.2,
        List.takeWhile_cons_of_pos rfl, List.dropWhile_cons_of_pos rfl]
      rfl
    · rw [stop (by simp [h]) (by simpa using hm)]
      simp [hm]

end Member

namespace Bracket

open Member

/-- Between its brackets a class has members, and none of them is a backslash that the line leaves open. A
circumflex in first place would be a sign. -/
structure Sound (b : Bracket) : Prop where
  filled : b.members ≠ []
  escaped : .plain '\\' ∉ b.members
  unsigned : b.complemented = false → b.members.head? ≠ some (.plain '^')

def Reversed (b : Bracket) : Prop :=
  ∃ low high, [low, .plain '-', high] <:+: b.members ∧ high.char < low.char

def hyphens (b : Bracket) : Nat := b.members.count (.plain '-')

theorem Written.sound {neg : List Char} {ms : List Member} (h : Written neg ms) : (Bracket.mk (!neg.isEmpty) ms).Sound := by
  refine ⟨h.filled, h.escaped, fun hneg => ?_⟩
  rcases h.sign with rfl | rfl | ⟨-, -, h₂⟩
  · cases hneg
  · cases hneg
  · exact h₂

theorem sound_of_close? {s slice after : List Char} (h : close? s = some (slice, after)) :
    (ofSlice slice).Sound := by
  obtain ⟨neg, ms, hw, rfl, -⟩ := close?_eq_some_iff.mp h
  rw [hw.ofSlice]
  exact hw.sound

section Read

variable {b : Bracket}

def inner (b : Bracket) (rest : List Char) : List Char :=
  (if b.complemented then ['^'] else []) ++ closing b.members rest

theorem text_append (b : Bracket) (rest : List Char) : b.text ++ rest = '[' :: b.inner rest := by
  simp [text, inner, closing]

theorem complementSign_inner (h : b.Sound) (rest : List Char) :
    Class.complementSign .initial (b.inner rest) = (b.complemented, closing b.members rest) := by
  unfold Class.complementSign inner
  cases hb : b.complemented with
  | true => rfl
  | false =>
    have hhead : (closing b.members rest).head? ≠ some '^' :=
      closing_head (by simp) h.escaped (h.unsigned hb)
    simp only [Bool.false_eq_true, if_false, List.nil_append, skip_initial]
    split
    · rename_i r heq; exact absurd (congrArg List.head? heq) hhead
    · rfl

theorem firstMembers_closing (h : b.Sound) (rest : List Char) :
    Class.firstMembers .initial (closing b.members rest) =
      ((b.members.takeWhile (· == plain '-')).map fun _ => ⟨.single '-'.toNat, 0⟩,
        closing (b.members.dropWhile (· == plain '-')) rest) := by
  unfold Class.firstMembers
  rw [hyphens_closing h.escaped]
  split
  · -- The first member is not written as a closing bracket.
    rename_i r heq
    obtain ⟨m, ms, hms⟩ := List.exists_cons_of_ne_nil h.filled
    obtain ⟨ht, hd⟩ := Prod.mk.inj heq
    have hm : m ≠ plain '-' := by
      rintro rfl
      rw [hms] at ht; simp at ht
    rw [hms, List.dropWhile_cons_of_neg (by simpa using hm), closing_cons] at hd
    have hesc : m ≠ plain '\\' := fun he => h.escaped (hms ▸ he ▸ List.mem_cons_self)
    exact absurd (congrArg List.head? hd) (head?_text_append hesc hm _).2
  · rfl

def opened (b : Bracket) : ClassState :=
  ⟨(b.members.takeWhile (· == plain '-')).map fun _ => ⟨.single '-'.toNat, 0⟩, [.opened b.complemented []]⟩

def unread (b : Bracket) : List Member := b.members.dropWhile (· == plain '-')

theorem within_opened (b : Bracket) : Within b.complemented 0 b.opened := by
  refine ⟨fun a ha => ?_, .inl rfl⟩
  obtain ⟨m, -, rfl⟩ := List.mem_map.mp ha
  rfl

theorem unread_suffix (b : Bracket) : b.unread <:+ b.members := List.dropWhile_suffix _

theorem read_inner (h : b.Sound) (rest : List Char) : Class.read .initial (b.inner rest) =
    (parts b.unread).foldlM Part.apply b.opened >>= fun st => Class.run .initial st (']' :: rest) := by
  rw [Class.read, Class.openClass, complementSign_inner h]
  simp only [firstMembers_closing h]
  exact run_closing (fun hm => h.escaped (b.unread_suffix.subset hm)) b.opened

/-- Whatever follows, the text of the class is read as this one. -/
def ReadAs (b : Bracket) (n : Nested) : Prop :=
  ∀ rest, Class.read .initial (b.inner rest) = .ok (n, rest)

/-- The text of a class is read as one class that does not lie deep, unless a range of it has its ends in
descending order. -/
theorem read_cases (h : b.Sound) : (∃ n : Nested, b.ReadAs n ∧ 2 * n.depth ≤ b.hyphens + 4) ∨
    b.Reversed ∧ ∀ rest, Class.read .initial (b.inner rest) = .error .descendingRange := by
  rcases b.within_opened.assembles (parts b.unread) with ⟨next, hf, hnext⟩ | ⟨low, high, hm, hlt, hf⟩
  · obtain ⟨n, hn, hclose⟩ := hnext.close
    have hcount := count_difference_parts b.unread
    have hle : b.unread.count (plain '-') ≤ b.hyphens := b.unread_suffix.sublist.count_le _
    exact .inl ⟨n, fun rest => by rw [read_inner h, hf]; exact hclose rest, by omega⟩
  · exact .inr ⟨⟨low, high, (infix_of_range hm).trans b.unread_suffix.isInfix, hlt⟩, fun rest => by
      rw [read_inner h, hf]; rfl⟩

theorem text_tail_append (b : Bracket) (rest : List Char) : b.text.tail ++ rest = b.inner rest :=
  (List.cons.inj (text_append b rest)).2

theorem ReadAs.spells {n : Nested} (h : b.ReadAs n) : Spells b.text [⟨.atom n.set, n.depth, true⟩] := by
  refine Spells.of_step (c := '[') (t := b.text.tail) (by decide) fun st rest hf _ => ?_
  rw [text_tail_append]
  simp only [step, hf, h rest]
  rfl

def Holds (b : Bracket) (c : Char) : Prop := ∃ n : Nested, b.ReadAs n ∧ n.set.mem c.toNat = true

theorem ReadAs.holds {n : Nested} (h : b.ReadAs n) {c : Char} : b.Holds c ↔ n.set.mem c.toNat = true := by
  refine ⟨fun ⟨n', h', hc⟩ => ?_, fun hc => ⟨n, h, hc⟩⟩
  obtain ⟨rfl, -⟩ := Prod.mk.inj (Except.ok.inj ((h []).symm.trans (h' [])))
  exact hc

theorem ReadAs.denotes {n : Nested} (h : b.ReadAs n) {d : Nat} (hd : n.depth ≤ d) :
    Denotes d b.text fun w => ∃ c, w = [c] ∧ b.Holds c := by
  refine .of_item h.spells hd trivial fun w => ?_
  simp only [Reads, h.holds]
  constructor
  · rintro ⟨c, hw, hc⟩
    obtain ⟨c, rfl, rfl⟩ := List.map_eq_singleton_iff.mp hw
    exact ⟨c, rfl, hc⟩
  · rintro ⟨c, rfl, hc⟩; exact ⟨_, rfl, hc⟩

theorem refuses_text {f : Fault} (h : ∀ rest, Class.read .initial (b.inner rest) = .error f) :
    Refuses f b.text := by
  refine ⟨by simp [text], fun st rest hf => ?_⟩
  rw [text_append]
  refine run_step_error hf ?_
  simp only [step, hf, h]
  rfl

/-- The text of a class denotes its characters, or is refused for a range in descending order. -/
theorem denotes_or_refuses (h : b.Sound) :
    (∀ d, b.hyphens + 3 ≤ 2 * d → Denotes d b.text fun w => ∃ c, w = [c] ∧ b.Holds c) ∨
      b.Reversed ∧ Refuses .descendingRange b.text := by
  rcases read_cases h with ⟨n, hn, hdepth⟩ | ⟨hrev, hread⟩
  · exact .inl fun d hd => hn.denotes (by omega)
  · exact .inr ⟨hrev, refuses_text hread⟩

end Read

end Bracket

end Exclusion.Rule
