import Exclusion.Proofs.Expr.Language
import Exclusion.Proofs.Expr.Spelling

/-! # Texts that denote languages

A text denotes a set of character sequences if the items that it spells read just these. Denotations
follow the way in which a text is composed, and between `^` and `$` a text finds a string exactly if
it denotes the whole of it.
-/

namespace Exclusion.Expr

/-- The items of the text, none deeper than `d`, read exactly the sequences of `L`. -/
def Denotes (d : Nat) (t : List Char) (L : List Char → Prop) : Prop :=
  ∃ items, Spells t items ∧ (∀ item ∈ items, item.depth ≤ d ∧ item.expr.LookFree) ∧
    ∀ w : List Char, ReadsAll (items.map (·.expr)) (w.map Char.toNat) ↔ L w

theorem map_toNat_injective {u v : List Char} (h : u.map Char.toNat = v.map Char.toNat) : u = v :=
  List.map_inj_right (fun _ _ => Char.toNat_inj.mp) |>.mp h

theorem mem_compl_single {c d : Char} :
    (Charset.compl (.single c.toNat)).mem d.toNat = true ↔ d ≠ c := by
  simp [Charset.mem, Char.toNat_inj]

theorem isPlain_of_isMeta {c : Char} (h : isMeta c = true) : Escape.isPlain c = true := by
  simp only [isMeta, decide_eq_true_eq] at h
  have hall : ['\\', '.', '+', '*', '?', '(', ')', '|', '[', ']', '\x7b', '\x7d', '^', '$', '#', '&', '-',
      '~'].all Escape.isPlain = true := by decide
  exact List.all_eq_true.mp hall c h

theorem isMeta_of_starters : ∀ c ∈ Spells.starters, isMeta c = true := by
  have hall : Spells.starters.all isMeta = true := by decide
  exact List.all_eq_true.mp hall

namespace Spells

theorem quoteChar (c : Char) : Spells (Expr.quoteChar c) [.char c] := by
  unfold Expr.quoteChar
  split
  · rename_i h; exact .quoted (isPlain_of_isMeta h)
  · rename_i h; exact .char fun hs => h (isMeta_of_starters c hs)

theorem quote (t : List Char) : Spells (Expr.quote t) (t.map Item.char) := by
  induction t with
  | nil => exact .nil
  | cons c t ih => rw [quote_cons]; exact (quoteChar c).append ih

end Spells

namespace Denotes

variable {d d' : Nat} {t u : List Char} {L M : List Char → Prop}

theorem congr (h : Denotes d t L) (hLM : ∀ w, L w ↔ M w) : Denotes d t M := by
  obtain ⟨items, hs, hi, hr⟩ := h
  exact ⟨items, hs, hi, fun w => (hr w).trans (hLM w)⟩

theorem mono (h : Denotes d t L) (hd : d ≤ d') : Denotes d' t L := by
  obtain ⟨items, hs, hi, hr⟩ := h
  exact ⟨items, hs, fun item hm => ⟨Nat.le_trans (hi item hm).1 hd, (hi item hm).2⟩, hr⟩

theorem nil : Denotes d [] (· = []) :=
  ⟨[], .nil, by simp, fun w => by simp [ReadsAll]⟩

theorem append (h : Denotes d t L) (h' : Denotes d u M) :
    Denotes d (t ++ u) (fun w => ∃ a b, w = a ++ b ∧ L a ∧ M b) := by
  obtain ⟨is, hs, hi, hr⟩ := h
  obtain ⟨js, hs', hi', hr'⟩ := h'
  refine ⟨is ++ js, hs.append hs', ?_, fun w => ?_⟩
  · intro item hm
    rcases List.mem_append.mp hm with hm | hm
    · exact hi item hm
    · exact hi' item hm
  · rw [List.map_append, readsAll_append]
    constructor
    · rintro ⟨a, b, hab, ha, hb⟩
      obtain ⟨x, y, rfl, rfl, rfl⟩ := List.map_eq_append_iff.mp hab
      exact ⟨x, y, rfl, (hr x).mp ha, (hr' y).mp hb⟩
    · rintro ⟨a, b, rfl, ha, hb⟩
      exact ⟨_, _, List.map_append, (hr a).mpr ha, (hr' b).mpr hb⟩

theorem of_item {item : Item} (hs : Spells t [item]) (hd : item.depth ≤ d) (hl : item.expr.LookFree)
    (hr : ∀ w : List Char, item.expr.Reads (w.map Char.toNat) ↔ L w) : Denotes d t L :=
  ⟨[item], hs, by simpa using ⟨hd, hl⟩, fun w => readsAll_singleton.trans (hr w)⟩

theorem reads_char {c : Char} {w : List Char} : (Item.char c).expr.Reads (w.map Char.toNat) ↔ w = [c] := by
  simp only [Item.char, Item.set, Item.leaf, Reads, Charset.mem_single, decide_eq_true_eq]
  constructor
  · rintro ⟨n, hw, rfl⟩; exact map_toNat_injective hw
  · rintro rfl; exact ⟨c.toNat, rfl, rfl⟩

theorem char {c : Char} (h : c ∉ Spells.starters) : Denotes d [c] (· = [c]) :=
  of_item (.char h) (Nat.zero_le d) trivial fun _ => reads_char

theorem quoted {c : Char} (h : Escape.isPlain c = true) : Denotes d ['\\', c] (· = [c]) :=
  of_item (.quoted h) (Nat.zero_le d) trivial fun _ => reads_char

theorem quoteChar (c : Char) : Denotes d (Expr.quoteChar c) (· = [c]) :=
  of_item (.quoteChar c) (Nat.zero_le d) trivial fun _ => reads_char

theorem quote (t : List Char) : Denotes d (Expr.quote t) (· = t) := by
  induction t with
  | nil => exact .nil
  | cons c t ih =>
    rw [quote_cons]
    refine ((quoteChar c).append ih).congr fun w => ?_
    constructor
    · rintro ⟨-, -, rfl, rfl, rfl⟩; rfl
    · rintro rfl; exact ⟨[c], t, rfl, rfl, rfl⟩

theorem reads_repeated {c : Char} {k least : Nat} {w : List Char} :
    ((Item.except c k).repeated least).expr.Reads (w.map Char.toNat) ↔ least ≤ w.length ∧ c ∉ w := by
  simp only [Item.repeated, Item.except, reads_loop_atom, List.length_map]
  constructor
  · rintro ⟨hl, hm⟩
    exact ⟨hl, fun hc => mem_compl_single.mp (hm _ (List.mem_map_of_mem hc)) rfl⟩
  · rintro ⟨hl, hc⟩
    refine ⟨hl, fun n hn => ?_⟩
    obtain ⟨b, hb, rfl⟩ := List.mem_map.mp hn
    exact mem_compl_single.mpr fun he => hc (he ▸ hb)

theorem dotStar : Denotes 1 ['.', '*'] ('\n' ∉ ·) :=
  of_item (Spells.dot.star rfl) (Nat.le_refl 1) trivial fun w => by simp [reads_repeated]

theorem dotPlus : Denotes 1 ['.', '+'] (fun w => w ≠ [] ∧ '\n' ∉ w) :=
  of_item (Spells.dot.plus rfl) (Nat.le_refl 1) trivial fun w => by
    rw [reads_repeated, Nat.one_le_iff_ne_zero, ne_eq, List.length_eq_zero_iff]

theorem notSlash : Denotes 1 ['[', '^', '/', ']'] (fun w => ∃ c, w = [c] ∧ c ≠ '/') :=
  of_item Spells.notSlash (Nat.le_refl 1) trivial fun w => by
    simp only [Item.except, Reads]
    constructor
    · rintro ⟨n, hw, hn⟩
      obtain ⟨c, rfl, rfl⟩ := List.map_eq_singleton_iff.mp hw
      exact ⟨c, rfl, mem_compl_single.mp hn⟩
    · rintro ⟨c, rfl, hc⟩; exact ⟨_, rfl, mem_compl_single.mpr hc⟩

theorem notSlashStar : Denotes 2 ['[', '^', '/', ']', '*'] ('/' ∉ ·) :=
  of_item (Spells.notSlash.star rfl) (Nat.le_refl 2) trivial fun w => by simp [reads_repeated]

theorem group (h : Denotes d t L) (h' : Denotes d u M) :
    Denotes (d + 3) (['(', '?', ':'] ++ t ++ '|' :: u ++ [')']) (fun w => L w ∨ M w) := by
  obtain ⟨is, hs, hi, hr⟩ := h
  obtain ⟨js, hs', hi', hr'⟩ := h'
  have lookFree {items : List Item} (h : ∀ item ∈ items, item.depth ≤ d ∧ item.expr.LookFree) :
      (seqs (items.map (·.expr))).LookFree := by
    refine lookFree_seqs fun e he => ?_
    obtain ⟨item, hm, rfl⟩ := List.mem_map.mp he
    exact (h item hm).2
  refine of_item (hs.group hs')
    (Item.group_depth (fun item hm => (hi item hm).1) fun item hm => (hi' item hm).1) ?_ fun w => ?_
  · rw [Item.group_expr]; exact ⟨lookFree hi, lookFree hi'⟩
  · rw [Item.group_expr]; simp only [Reads, reads_seqs, hr, hr']

theorem refuses {f : Fault} (h : Denotes d t L) (hu : Refuses f u) : Refuses f (t ++ u) := by
  obtain ⟨items, hs, -, -⟩ := h
  exact hs.append_refuses hu

/-- A text between `^` and `$` is read to an expression that finds the strings of its language. -/
theorem read_between_ends (h : Denotes d t L) : ∃ item, Expr.read ('^' :: t ++ ['$']) = .ok item ∧
    item.depth ≤ d + 1 ∧ ∀ s : String, item.expr.matchesText s = true ↔ L s.toList := by
  obtain ⟨items, hs, hi, hr⟩ := h
  have hall := (Spells.textStart.append hs).append Spells.textEnd
  refine ⟨_, hall.read, Item.sequence_depth ?_, fun s => ?_⟩
  · simp only [List.mem_append, List.mem_singleton]
    rintro item ((rfl | hm) | rfl)
    · exact Nat.zero_le d
    · exact (hi item hm).1
    · exact Nat.zero_le d
  · rw [← hr, matchesText, units, Item.sequence_expr]
    simp only [List.map_append, List.map_cons, List.map_nil, List.cons_append, List.nil_append]
    refine found_between_ends fun e he => ?_
    obtain ⟨item, hm, rfl⟩ := List.mem_map.mp he
    exact (hi item hm).2

end Denotes

end Exclusion.Expr
