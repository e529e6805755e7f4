import Exclusion.Proofs.Rule.Depth

/-! # Which characters a class selects

A line lists the characters of a class from left to right, where a hyphen between two members lists all from
the one to the other. The rule of a line that consists of one class finds just these, unless two hyphens meet:
the expression then takes what follows them away from what precedes.
-/

namespace Exclusion.Rule

open Exclusion.Expr
open Form Piece

namespace Member

/-- Whether members list a character, read from left to right: a hyphen between two of them lists all
characters from the one to the other, and any other member lists itself. -/
def lists (c : Char) : List Member → Bool
  | low :: plain '-' :: high :: ms => (low.char ≤ c && c ≤ high.char) || lists c ms
  | m :: ms => c == m.char || lists c ms
  | [] => false

def Part.holds (c : Char) : Part → Bool
  | single m => c == m.char
  | range low high => low.char ≤ c && c ≤ high.char
  | difference => false

/-- What parts hold together: what stands before the first difference, less what stands behind it. -/
def keeps (c : Char) (ps : List Part) : Bool :=
  (ps.takeWhile (· != .difference)).any (·.holds c) && !(ps.dropWhile (· != .difference)).any (·.holds c)

variable {c : Char} {p : Part} {ps : List Part} {ms : List Member}

theorem keeps_of_not_mem (h : .difference ∉ ps) : keeps c ps = ps.any (·.holds c) := by
  have hall : ∀ p ∈ ps, (p != .difference) = true := fun p hp => bne_iff_ne.mpr fun he => h (he ▸ hp)
  rw [keeps, List.takeWhile_eq_self_iff.mpr hall, List.dropWhile_eq_nil_iff.mpr hall]
  simp

/-- As long as no two hyphens meet, the parts hold what the members list. -/
theorem holds_parts (h : ¬ [plain '-', plain '-'] <:+: ms) :
    .difference ∉ parts ms ∧ (parts ms).any (·.holds c) = lists c ms := by
  fun_induction parts ms with
  | case1 => exact ⟨List.not_mem_nil, rfl⟩
  | case2 ms => exact absurd (List.prefix_append [plain '-', plain '-'] ms).isInfix h
  | case3 m ms => exact absurd (List.infix_append [m] [plain '-', plain '-'] ms) h
  | case4 low high ms _ _ ih =>
    obtain ⟨hd, ha⟩ := ih fun hi => h (hi.trans (List.suffix_append [low, plain '-', high] ms).isInfix)
    exact ⟨by simpa using hd, by rw [List.any_cons, ha, lists]; rfl⟩
  | case5 m ms h₁ h₂ h₃ ih =>
    obtain ⟨hd, ha⟩ := ih fun hi => h (hi.trans (List.suffix_cons m ms).isInfix)
    refine ⟨by simpa using hd, ?_⟩
    rw [List.any_cons, ha, lists.eq_2 _ _ _ h₃]; rfl

section Held

variable {st next : ClassState} {items : List Nested} {left : Nested} {complemented : Bool}

def held (st : ClassState) (c : Char) : Bool :=
  (Class.complete .initial (Class.gather st.items) st.stack).1.set.mem c.toNat

theorem mem_gather (items : List Nested) (n : Nat) :
    (Class.gather items).set.mem n = items.any (·.set.mem n) := by
  rw [← List.any_reverse]
  unfold Class.gather
  split
  · rename_i heq; rw [heq]; rfl
  · rename_i heq; simp [heq]
  · rw [Charset.mem_unions, List.any_map]; rfl

theorem held_opened : held ⟨items, [.opened complemented []]⟩ c = items.any (·.set.mem c.toNat) :=
  mem_gather items c.toNat

theorem held_operator : held ⟨items, [.operator .difference left, .opened complemented []]⟩ c =
    (left.set.mem c.toNat && !items.any (·.set.mem c.toNat)) :=
  mem_gather items c.toNat ▸ rfl

theorem exists_item_of_apply (hne : p ≠ .difference) (h : p.apply st = .ok next) : ∃ a : Charset,
    next = ⟨⟨a, 0⟩ :: st.items, st.stack⟩ ∧ ∀ c : Char, a.mem c.toNat = p.holds c := by
  cases p with
  | single m =>
    cases h
    refine ⟨_, rfl, fun c => ?_⟩
    rw [Charset.mem_single, Part.holds, beq_eq_decide]
    exact decide_eq_decide.mpr Char.toNat_inj
  | range low high =>
    rw [Part.apply, Class.rangeSet] at h
    split at h <;> cases h
    exact ⟨_, rfl, fun c => Charset.mem_range low.char.toNat high.char.toNat c.toNat⟩
  | difference => exact absurd rfl hne

theorem held_of_difference
    (h : Class.complete .initial (Class.gather st.items) st.stack = (left, [.opened complemented []]))
    (hp : Part.difference.apply st = .ok next) :
    next = ⟨[], [.operator .difference left, .opened complemented []]⟩ ∧ held next c = held st c := by
  rw [Part.apply, h] at hp
  cases hp
  refine ⟨rfl, ?_⟩
  rw [held_operator, held, h]
  exact Bool.and_true _

theorem held_of_apply (hp : p.apply ⟨items, [.operator .difference left, .opened complemented []]⟩ = .ok next) :
    ∃ items' left', next = ⟨items', [.operator .difference left', .opened complemented []]⟩ ∧
      held next c =
        (held ⟨items, [.operator .difference left, .opened complemented []]⟩ c && !p.holds c) := by
  by_cases hd : p = .difference
  · subst hd
    obtain ⟨hs, hc⟩ := held_of_difference (c := c) (complete_operator rfl) hp
    exact ⟨_, _, hs, by simp [hc, Part.holds]⟩
  · obtain ⟨a, rfl, ha⟩ := exists_item_of_apply hd hp
    refine ⟨_, left, rfl, ?_⟩
    rw [held_operator, held_operator, List.any_cons, ha]
    cases left.set.mem c.toNat <;> simp [Bool.and_comm]

theorem held_behind_difference {ps : List Part}
    (h : ps.foldlM Part.apply ⟨items, [.operator .difference left, .opened complemented []]⟩ = .ok next) :
    held next c = (held ⟨items, [.operator .difference left, .opened complemented []]⟩ c &&
      !ps.any (·.holds c)) := by
  induction ps generalizing items left with
  | nil => cases h; simp
  | cons p ps ih =>
    rw [List.foldlM_cons] at h
    obtain ⟨mid, hp, hps⟩ := bind_eq_ok.mp h
    obtain ⟨items', left', rfl, hm⟩ := held_of_apply (c := c) hp
    rw [ih hps, hm]
    simp [Bool.and_assoc]

/-- Parts add up until a difference, behind which they are taken away. -/
theorem held_of_parts {ps : List Part} (h : ps.foldlM Part.apply ⟨items, [.opened complemented []]⟩ = .ok next) :
    held next c = ((held ⟨items, [.opened complemented []]⟩ c ||
      (ps.takeWhile (· != .difference)).any (·.holds c)) &&
        !(ps.dropWhile (· != .difference)).any (·.holds c)) := by
  induction ps generalizing items with
  | nil => cases h; simp
  | cons p ps ih =>
    rw [List.foldlM_cons] at h
    obtain ⟨mid, hp, hps⟩ := bind_eq_ok.mp h
    by_cases hd : p = .difference
    · subst hd
      obtain ⟨rfl, hc⟩ := held_of_difference (c := c) rfl hp
      rw [held_behind_difference hps, hc]
      simp [Part.holds]
    · obtain ⟨a, rfl, ha⟩ := exists_item_of_apply hd hp
      rw [ih hps, held_opened, held_opened, List.any_cons, ha]
      simp [hd, Bool.or_assoc, Bool.or_left_comm]

end Held

end Member

namespace Bracket

open Member

variable {b : Bracket} {c : Char}

/-- Whether a class selects a character as the line means it. -/
def selects (b : Bracket) (c : Char) : Bool := b.complemented != lists c b.members

/-- Whether the expression of a class finds a character. Hyphens in first place are always members. -/
def finds (b : Bracket) (c : Char) : Bool :=
  b.complemented != keeps c ((b.members.takeWhile (· == plain '-')).map .single ++ parts b.unread)

theorem holds_hyphens (b : Bracket) (c : Char) :
    ((b.members.takeWhile (· == plain '-')).map Part.single).any (·.holds c) = held b.opened c := by
  rw [opened, held_opened, List.any_map, List.any_map, Bool.eq_iff_iff, List.any_eq_true, List.any_eq_true]
  refine exists_congr fun m => and_congr_right fun hm => ?_
  obtain rfl : m = plain '-' := by simpa using List.mem_takeWhile_imp hm
  simp [Part.holds, Member.char, ← Char.toNat_inj]

/-- What the text of a class is read as. -/
theorem ReadAs.mem {n : Nested} (hn : b.ReadAs n) (h : b.Sound) : n.set.mem c.toNat = b.finds c := by
  have hread := hn []
  rw [read_inner h] at hread
  obtain ⟨next, hf, hclose⟩ := bind_eq_ok.mp hread
  rcases b.within_opened.assembles (parts b.unread) with ⟨next', hf', hw⟩ | ⟨-, -, -, -, hf'⟩
  · obtain rfl : next' = next := Except.ok.inj (hf'.symm.trans hf)
    obtain ⟨inner, hc, -⟩ := hw.complete
    rw [run_close_of_complete hc] at hclose
    obtain ⟨rfl, -⟩ := Prod.mk.inj (Except.ok.inj hclose)
    have hheld : inner.set.mem c.toNat = held next' c := by rw [held, hc]
    have hall : ∀ p ∈ (b.members.takeWhile (· == plain '-')).map Part.single, (p != .difference) = true := by
      simp
    rw [finds, keeps, List.takeWhile_append_of_pos hall, List.dropWhile_append_of_pos hall, List.any_append,
      holds_hyphens, opened, ← held_of_parts hf, ← hheld]
    cases b.complemented <;> simp [Charset.mem]
  · cases hf'.symm.trans hf

theorem finds_eq_selects (h : ¬ [plain '-', plain '-'] <:+: b.members) : b.finds c = b.selects c := by
  obtain ⟨complemented, ms⟩ := b
  rw [finds, selects]
  congr 1
  cases ms with
  | nil => rfl
  | cons m ms =>
    by_cases hm : m = plain '-'
    · subst hm
      have hne : ∀ m tl, ms = m :: tl → m ≠ plain '-' := by
        rintro m tl rfl rfl
        exact h (List.prefix_append [plain '-', plain '-'] tl).isInfix
      obtain ⟨hd, ha⟩ := holds_parts (c := c) fun hi => h (hi.trans (List.suffix_cons (plain '-') ms).isInfix)
      have hsplit : ms.takeWhile (· == plain '-') = [] ∧ ms.dropWhile (· == plain '-') = ms := by
        cases ms with
        | nil => exact ⟨rfl, rfl⟩
        | cons m tl => simpa using hne m tl rfl
      rw [unread, List.takeWhile_cons_of_pos rfl, List.dropWhile_cons_of_pos rfl, hsplit.1, hsplit.2]
      have hd' : .difference ∉ [Part.single (plain '-')] ++ parts ms := by simpa using hd
      rw [List.map_singleton, keeps_of_not_mem hd', List.any_append, ha,
        lists.eq_2 _ _ _ fun high tl he => hne _ _ he rfl, List.any_cons, List.any_nil,
        Bool.or_false]
      rfl
    · obtain ⟨hd, ha⟩ := holds_parts (c := c) h
      have hu : unread ⟨complemented, m :: ms⟩ = m :: ms := List.dropWhile_cons_of_neg (by simpa using hm)
      rw [hu, List.takeWhile_cons_of_neg (by simpa using hm), List.map_nil, List.nil_append,
        keeps_of_not_mem hd, ha]

end Bracket

section Line

variable {slice v : List Char} {c : Char}

def classLine (slice : List Char) : List Char := '[' :: (slice ++ [']'])

theorem trim_class (slice : List Char) : Form.trim (classLine slice) = classLine slice :=
  trim_of_ends (by decide) (by decide) (by decide)

theorem ofPattern_class (first : Bool) (h : Bracket.close? (slice ++ [']']) = some (slice, [])) :
    ofPattern first (classLine slice) = [bracket (.ofSlice slice)] := by
  rw [classLine, ofPattern_closed h, ofPattern]

theorem piecesOf_class (h : Bracket.close? (slice ++ [']']) = some (slice, [])) :
    piecesOf (classLine slice) = [bracket (.ofSlice slice)] ∨
      isAnchored (classLine slice) = true ∧ piecesOf (classLine slice) = [literal '/', bracket (.ofSlice slice)] := by
  have hp : piecesOf (classLine slice) = ofPattern true (dropDeepSlash (insertSlash (classLine slice))) := by
    rw [piecesOf, trim_class]; rfl
  rw [hp]
  rcases insertSlash_cases (classLine slice) with hi | ⟨-, hi⟩
  · rw [hi]
    exact .inl (ofPattern_class true h)
  · have hslash : '/' ∈ classLine slice := Decidable.byContradiction fun hm => by
      rw [insertSlash_of_not_mem hm] at hi
      cases hi
    refine .inr ⟨?_, ?_⟩
    · have hlast : (classLine slice).getLast? ≠ some '/' := by
        rw [classLine, ← List.cons_append, List.getLast?_concat]; decide
      rw [isAnchored, trim_class, dropEndSlash, if_neg hlast]
      exact decide_eq_true hslash
    · rw [hi]
      change ofPattern true ('/' :: '[' :: (slice ++ [']'])) = _
      rw [ofPattern, ← classLine, ofPattern_class false h]
      all_goals simp

theorem textOf_class (h : Bracket.close? (slice ++ [']']) = some (slice, [])) : textOf (classLine slice) =
    head (isAnchored (classLine slice)) ++ (Bracket.ofSlice slice).text ++ tail false := by
  have hdirectory : isDirectory (classLine slice) = false := by
    rw [isDirectory, trim_class, classLine, ← List.cons_append, List.getLast?_concat]; decide
  have hdrop (b : Bracket) : dropStartSlash b.text = b.text := rfl
  rw [textOf, hdirectory, body_eq, ← piecesOf, assemble]
  congr 2
  rcases piecesOf_class h with hp | ⟨ha, hp⟩
  · rw [hp, List.flatMap_singleton]
    exact ite_eq_right_iff.mpr fun _ => hdrop _
  · have hslash : (literal '/').text = ['/'] := by decide
    rw [hp, if_pos ha, List.flatMap_cons, hslash, List.flatMap_singleton]
    rfl

theorem bodyAccepts_class (h : Bracket.close? (slice ++ [']']) = some (slice, [])) :
    BodyAccepts (isAnchored (classLine slice)) (piecesOf (classLine slice)) v ↔
      ∃ c, v = [c] ∧ (Bracket.ofSlice slice).Holds c := by
  rcases piecesOf_class h with hp | ⟨ha, hp⟩
  · rw [hp]
    cases isAnchored (classLine slice) <;> exact acceptsAll_singleton
  · rw [hp, ha]
    constructor
    · rintro ⟨-, w, hw, rfl, hb⟩
      obtain rfl : v = w := (List.cons.inj hw).2
      exact acceptsAll_singleton.mp hb
    · intro hv
      exact ⟨['/'], v, rfl, rfl, acceptsAll_singleton.mpr hv⟩

theorem accepted_class_iff (h : Bracket.close? (slice ++ [']']) = some (slice, [])) :
    Accepted (classLine slice) [c] ↔ (Bracket.ofSlice slice).Holds c := by
  constructor
  · rintro ⟨u, v, t, he, -, hv, -⟩
    obtain ⟨d, rfl, hd⟩ := (bodyAccepts_class h).mp hv
    have hu : u = [] := by
      cases u with
      | nil => rfl
      | cons => simp at he
    rw [hu] at he
    obtain rfl : c = d := (List.cons.inj he).1
    exact hd
  · intro hc
    exact ⟨[], [c], [], rfl, .inl rfl, (bodyAccepts_class h).mpr ⟨c, rfl, hc⟩, .inl rfl⟩

theorem exists_readAs_of_compile {b : Bracket} {anchored directory : Bool} {e : Expr} (hb : b.Sound)
    (h : Expr.compile (head anchored ++ b.text ++ tail directory) = .ok e) : ∃ n, b.ReadAs n := by
  rcases Bracket.read_cases hb with ⟨n, hn, -⟩ | ⟨-, hread⟩
  · exact ⟨n, hn⟩
  · have href := refuses_between (Bracket.refuses_text hread) anchored directory
    rw [Expr.compile, Expr.parse, href.read] at h
    cases h

theorem kept_class (slice : List Char) : Kept (classLine slice) := by
  constructor <;> rw [trim_class] <;> simp [classLine, unsigned]

/-- The rule of a class finds the characters that its expression holds, which are those that the line lists
as long as no two hyphens meet. -/
theorem matchesPath_class {line : String} {found : Option Rule} (hline : line.toList = classLine slice)
    (hclose : Bracket.close? (slice ++ [']']) = some (slice, [])) (h : Rule.ofLine line = .ok found) :
    ∃ r, found = some r ∧ ∀ c : Char,
      r.matchesPath (String.singleton c) = (Bracket.ofSlice slice).finds c ∧
        (¬ [.plain '-', .plain '-'] <:+: (Bracket.ofSlice slice).members →
          r.matchesPath (String.singleton c) = (Bracket.ofSlice slice).selects c) := by
  obtain ⟨r, rfl⟩ : ∃ r, found = some r := by
    rcases (hline ▸ kept_class slice : Kept line.toList).ofLine_cases with ⟨r, hr⟩ | ⟨x, -, hx, -⟩
    · exact ⟨r, Except.ok.inj (h.symm.trans hr)⟩
    · cases h.symm.trans hx
  have hb := Bracket.sound_of_close? hclose
  have hcompile := compile_of_ofLine h
  rw [hline, textOf_class hclose] at hcompile
  obtain ⟨n, hn⟩ := exists_readAs_of_compile hb hcompile
  refine ⟨r, rfl, fun c => ?_⟩
  have hfinds : r.matchesPath (String.singleton c) = (Bracket.ofSlice slice).finds c := by
    rw [Bool.eq_iff_iff, matchesPath_iff h, hline, String.toList_singleton, accepted_class_iff hclose,
      hn.holds, hn.mem hb]
  exact ⟨hfinds, fun hne => hfinds.trans (Bracket.finds_eq_selects hne)⟩

/-- A closing bracket in first place, a range, and a quoted hyphen. -/
theorem matchesPath_class_of_range : ∃ r, Rule.ofLine "[]a-c\\-]" = .ok (some r) ∧
    ∀ c : Char, r.matchesPath (String.singleton c) = (c == ']' || ('a' ≤ c && c ≤ 'c' || c == '-')) := by
  obtain ⟨r, hr, -⟩ := exists_of_any_ofLine? "[]a-c\\-]" (fun _ => true) (by decide +kernel)
  have hline : "[]a-c\\-]".toList = classLine "]a-c\\-".toList := by decide
  obtain ⟨r', hr', hm⟩ := matchesPath_class hline (by decide) hr
  cases hr'
  refine ⟨r, hr, fun c => ((hm c).2 (by decide)).trans ?_⟩
  have hs : Bracket.ofSlice "]a-c\\-".toList =
      ⟨false, [.plain ']', .plain 'a', .plain '-', .plain 'c', .quoted '-']⟩ := by decide
  rw [hs]
  simp only [Bracket.selects, Bool.false_bne, Member.lists, Member.char, Bool.or_false, List.cons.injEq,
    Member.plain.injEq, Char.reduceEq, false_and, imp_self, implies_true]
  rfl

/-- Where two hyphens meet, the characters between the ends of a range are not found. -/
theorem matchesPath_not_class : ∃ r, Rule.ofLine "[+--]" = .ok (some r) ∧
    (Bracket.ofSlice "+--".toList).selects ',' = true ∧ r.matchesPath (String.singleton ',') = false := by
  obtain ⟨r, hr, hp⟩ := exists_of_any_ofLine? "[+--]" (fun r => !r.matchesPath (String.singleton ','))
    (by decide +kernel)
  exact ⟨r, hr, by decide, by simpa using hp⟩

end Line

end Exclusion.Rule
