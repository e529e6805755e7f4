import Exclusion.Proofs.Rule.Bracket

/-! # The paths of a rule

The expression of a pattern finds a path exactly if the pieces accept what lies between a beginning and an
end that the head and the tail allow, unless one of its classes is refused. Only classes can make the text
nest deep, so that without them no limit of the expression syntax shows.
-/

namespace Exclusion.Rule

open Exclusion.Expr (Denotes Refuses)

namespace Piece

/-- The parts of a path that a piece accepts, classes included. -/
def Accepts : Piece → List Char → Prop
  | bracket b, w => ∃ c, w = [c] ∧ b.Holds c
  | p, w => p.Reads w

def AcceptsAll : List Piece → List Char → Prop
  | [], w => w = []
  | p :: ps, w => ∃ u v, w = u ++ v ∧ p.Accepts u ∧ AcceptsAll ps v

/-- What pieces accept below the root: a slash with which they begin is taken as read. -/
def AcceptsBelow (ps : List Piece) (w : List Char) : Prop :=
  AcceptsAll ps (if ps.head?.any beginsSlash then '/' :: w else w)

def Sound : Piece → Prop
  | bracket b => b.Sound
  | p => p.WellRead

structure Shallow (d : Nat) (ps : List Piece) : Prop where
  pieces : 6 ≤ d
  brackets : ∀ b, bracket b ∈ ps → b.hyphens + 3 ≤ 2 * d

def Reversed (ps : List Piece) : Prop := ∃ b, bracket b ∈ ps ∧ b.Reversed

variable {p : Piece} {ps : List Piece} {d : Nat}

theorem acceptsAll_singleton {w : List Char} : AcceptsAll [p] w ↔ p.Accepts w := by
  constructor
  · rintro ⟨u, -, rfl, hu, rfl⟩; simpa using hu
  · intro h; exact ⟨w, [], by simp, h, rfl⟩

theorem acceptsAll_append {qs : List Piece} {w : List Char} :
    AcceptsAll (ps ++ qs) w ↔ ∃ u v, w = u ++ v ∧ AcceptsAll ps u ∧ AcceptsAll qs v := by
  induction ps generalizing w with
  | nil =>
    constructor
    · intro h; exact ⟨[], w, rfl, rfl, h⟩
    · rintro ⟨-, v, rfl, rfl, h⟩; exact h
  | cons p ps ih =>
    simp only [List.cons_append, AcceptsAll, ih]
    constructor
    · rintro ⟨u, -, rfl, hu, v, t, rfl, hv, ht⟩
      exact ⟨u ++ v, t, by simp, ⟨u, v, rfl, hu, hv⟩, ht⟩
    · rintro ⟨-, t, rfl, ⟨u, v, rfl, hu, hv⟩, ht⟩
      exact ⟨u, v ++ t, by simp, hu, v, t, rfl, hv, ht⟩

theorem ofPattern_sound (first : Bool) (s : List Char) : ∀ p ∈ ofPattern first s, p.Sound := by
  fun_induction ofPattern first s
  case case9 rest slice after h ih =>
    exact List.forall_mem_cons.mpr ⟨Bracket.sound_of_close? h, ih⟩
  case case11 c rest hlast hquote _ _ _ _ _ ih =>
    have hc := ne_backslash hlast hquote
    simp_all [Sound, WellRead]
  all_goals simp_all [Sound, WellRead]

theorem Shallow.tail (h : Shallow d (p :: ps)) : Shallow d ps :=
  ⟨h.pieces, fun b hb => h.brackets b (List.mem_cons_of_mem _ hb)⟩

theorem exists_shallow (ps : List Piece) : ∃ d, Shallow d ps := by
  induction ps with
  | nil => exact ⟨6, Nat.le_refl 6, nofun⟩
  | cons p ps ih =>
    obtain ⟨d, hd, hb⟩ := ih
    cases p with
    | bracket b =>
      refine ⟨d + (b.hyphens + 3), by omega, fun b' hb' => ?_⟩
      rcases List.mem_cons.mp hb' with he | hb'
      · cases he; omega
      · have := hb b' hb'; omega
    | _ => exact ⟨d, hd, fun b hm => hb b (by simpa using hm)⟩

theorem denotes_or_refuses (h : p.Sound) :
    (∀ ps, Shallow d (p :: ps) → Denotes d p.text p.Accepts) ∨
      ∃ b, p = bracket b ∧ b.Reversed ∧ Refuses .descendingRange p.text := by
  cases p with
  | bracket b =>
    refine (Bracket.denotes_or_refuses h).imp (fun hd ps hs => ?_) fun ⟨hrev, href⟩ => ⟨b, rfl, hrev, href⟩
    exact hd d (hs.brackets b List.mem_cons_self)
  | _ =>
    refine .inl fun ps hs => Denotes.mono (denotes ?_) hs.pieces
    exact h

theorem denotes_all_or_refuses (hd : Shallow d ps) (h : ∀ p ∈ ps, p.Sound) :
    Denotes d (ps.flatMap text) (AcceptsAll ps) ∨
      Reversed ps ∧ Refuses .descendingRange (ps.flatMap text) := by
  induction ps with
  | nil => exact .inl .nil
  | cons p ps ih =>
    rw [List.flatMap_cons]
    rcases denotes_or_refuses (h p List.mem_cons_self) with hp | ⟨b, rfl, hrev, href⟩
    · rcases ih hd.tail fun q hq => h q (List.mem_cons_of_mem _ hq) with hps | ⟨⟨b, hb, hrev⟩, href⟩
      · exact .inl ((hp ps hd).append hps)
      · exact .inr ⟨⟨b, List.mem_cons_of_mem _ hb, hrev⟩, (hp ps hd).refuses href⟩
    · exact .inr ⟨⟨b, List.mem_cons_self, hrev⟩, href.append _⟩

theorem acceptsAll_iff_readsAll (h : ∀ p ∈ ps, p.WellRead) {w : List Char} :
    AcceptsAll ps w ↔ ReadsAll ps w := by
  induction ps generalizing w with
  | nil => rfl
  | cons p ps ih =>
    have hp : p.Accepts = p.Reads := by
      cases p with
      | bracket b => exact (h _ List.mem_cons_self).elim
      | _ => rfl
    simp only [AcceptsAll, ReadsAll, hp, ih fun q hq => h q (List.mem_cons_of_mem _ hq)]

theorem accepts_of_beginsSlash (h : p.beginsSlash = true) : p.Accepts = p.Reads := by
  cases p with
  | bracket b => cases h
  | _ => rfl

theorem denotes_below_or_refuses (hd : Shallow d ps) (h : ∀ p ∈ ps, p.Sound) :
    Denotes d (Form.dropStartSlash (ps.flatMap text)) (AcceptsBelow ps) ∨
      Reversed ps ∧ Refuses .descendingRange (Form.dropStartSlash (ps.flatMap text)) := by
  cases ps with
  | nil => exact .inl .nil
  | cons p ps =>
    cases hp : p.beginsSlash with
    | true =>
      obtain ⟨t, L, ht, hden, hr⟩ := denotes_behind_slash hp
      have hdrop : Form.dropStartSlash ((p :: ps).flatMap text) = t ++ ps.flatMap text := by
        rw [List.flatMap_cons, ht]; rfl
      rw [hdrop]
      replace hden := hden.mono hd.pieces
      rcases denotes_all_or_refuses hd.tail fun q hq => h q (List.mem_cons_of_mem _ hq) with
        hps | ⟨⟨b, hb, hrev⟩, href⟩
      · refine .inl ((hden.append hps).congr fun w => ?_)
        simp only [AcceptsBelow, List.head?_cons, Option.any_some, hp, if_true, AcceptsAll,
          accepts_of_beginsSlash hp, hr]
        constructor
        · rintro ⟨u, v, rfl, hu, hv⟩; exact ⟨'/' :: u, v, rfl, ⟨u, rfl, hu⟩, hv⟩
        · rintro ⟨-, v, hw, ⟨u, rfl, hu⟩, hv⟩
          exact ⟨u, v, by simpa using hw, hu, hv⟩
      · exact .inr ⟨⟨b, List.mem_cons_of_mem _ hb, hrev⟩, hden.refuses href⟩
    | false =>
      obtain ⟨c, t, ht, hc⟩ := head?_text hp
      have hdrop : Form.dropStartSlash ((p :: ps).flatMap text) = (p :: ps).flatMap text := by
        rw [List.flatMap_cons, ht]; unfold Form.dropStartSlash; split
        · rename_i heq; exact absurd (List.cons.inj heq).1 hc
        · rfl
      rw [hdrop]
      refine (denotes_all_or_refuses hd h).imp_left fun hden => hden.congr fun w => ?_
      simp [AcceptsBelow, hp]

end Piece

namespace Form

open Piece

def BodyAccepts (anchored : Bool) (ps : List Piece) (w : List Char) : Prop :=
  if anchored then AcceptsBelow ps w else AcceptsAll ps w

theorem denotes_body_or_refuses {pattern : List Char} {d : Nat} (hd : Shallow d (pieces pattern))
    (anchored : Bool) :
    Denotes d (if anchored then dropStartSlash (body pattern) else body pattern)
        (BodyAccepts anchored (pieces pattern)) ∨
      Reversed (pieces pattern) ∧
        Refuses .descendingRange (if anchored then dropStartSlash (body pattern) else body pattern) := by
  have hs : ∀ p ∈ pieces pattern, p.Sound := ofPattern_sound true _
  cases anchored with
  | true => exact denotes_below_or_refuses hd hs
  | false => exact denotes_all_or_refuses hd hs

theorem refuses_between {t : List Char} {f : Expr.Fault} (h : Refuses f t) (anchored directory : Bool) :
    Refuses f (head anchored ++ t ++ tail directory) := by
  obtain ⟨hd, hhead, hdenotes⟩ := denotes_head anchored
  obtain ⟨tl, htail, -⟩ := denotes_tail directory
  have htext : head anchored ++ t ++ tail directory = ['^'] ++ (hd ++ (t ++ tl)) ++ ['$'] := by
    rw [hhead, htail]; simp
  rw [htext]
  exact (Expr.Spells.textStart.append_refuses (hdenotes.refuses (h.append tl))).append ['$']

/-- The text of a form is read to an expression that finds the paths of a head, what the pieces accept,
and a tail, and lies as deep as its classes make it. Or a class is refused. -/
theorem read_assemble {pattern : List Char} {d : Nat} (hd : Shallow d (pieces pattern))
    (anchored directory : Bool) :
    (∃ item, Expr.read (assemble anchored directory (body pattern)) = .ok item ∧ item.depth ≤ d + 1 ∧
        ∀ s : String, item.expr.matchesText s = true ↔ ∃ u v t, s.toList = u ++ (v ++ t) ∧
          HeadReads anchored u ∧ BodyAccepts anchored (pieces pattern) v ∧ TailReads directory t) ∨
      Reversed (pieces pattern) ∧
        Expr.read (assemble anchored directory (body pattern)) = .error .descendingRange := by
  obtain ⟨hd', hhead, hdenotes⟩ := denotes_head anchored
  obtain ⟨tl, htail, tdenotes⟩ := denotes_tail directory
  have htext (t : List Char) : head anchored ++ t ++ tail directory = '^' :: (hd' ++ (t ++ tl)) ++ ['$'] := by
    rw [hhead, htail]; simp
  rw [assemble]
  rcases denotes_body_or_refuses hd anchored with hb | ⟨hrev, href⟩
  · rw [htext]
    obtain ⟨item, hread, hdepth, hm⟩ := ((hdenotes.mono hd.pieces).append
      (hb.append (tdenotes.mono hd.pieces))).read_between_ends
    refine .inl ⟨item, hread, hdepth, fun s => (hm s).trans ?_⟩
    constructor
    · rintro ⟨u, -, hs, hu, v, t, rfl, hv, ht⟩; exact ⟨u, v, t, hs, hu, hv, ht⟩
    · rintro ⟨u, v, t, hs, hu, hv, ht⟩; exact ⟨u, _, hs, hu, v, t, rfl, hv, ht⟩
  · exact .inr ⟨hrev, (refuses_between href anchored directory).read⟩

/-- Without brackets, the expression of a form compiles but for its size, and finds the paths that consist of a
head, what the pieces read, and a tail. -/
theorem parse_assemble {pattern : List Char} (h : '[' ∉ pattern) (anchored directory : Bool) :
    ∃ e, Expr.parse (assemble anchored directory (body pattern)) = .ok e ∧
      ∀ s : String, e.matchesText s = true ↔ ∃ u v t, s.toList = u ++ (v ++ t) ∧
        HeadReads anchored u ∧ BodyReads anchored (pieces pattern) v ∧ TailReads directory t := by
  have hw := pieces_wellRead h
  have hnone {b : Bracket} : .bracket b ∉ pieces pattern := fun hb => hw _ hb
  have hbody (v : List Char) :
      BodyAccepts anchored (pieces pattern) v ↔ BodyReads anchored (pieces pattern) v := by
    cases anchored <;> exact acceptsAll_iff_readsAll hw
  rcases read_assemble ⟨Nat.le_refl 6, fun b hb => absurd hb hnone⟩ anchored directory with
    ⟨item, hread, hdepth, hm⟩ | ⟨⟨b, hb, -⟩, -⟩
  · have hmax : ¬ Expr.maxDepth < item.depth := Nat.not_lt.mpr (Nat.le_trans hdepth (by decide))
    refine ⟨item.expr, ?_, fun s => by simp only [hm, hbody]⟩
    simp only [Expr.parse, hread, bind, Except.bind]
    rw [if_neg hmax]; rfl
  · exact absurd hb hnone

end Form

end Exclusion.Rule
