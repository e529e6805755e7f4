import Exclusion.Rule.Bracket
import Mathlib.Data.List.Basic

/-! # Where bracket classes end

A line writes a class as a sign, if any, and members, of which only the first may be a closing bracket
without a backslash. A class ends behind such members, and they are what is read from it.
-/

namespace Exclusion.Rule

def Member.source : Member → List Char
  | plain c => [c]
  | quoted c => ['\\', c]

namespace Bracket

open Member

variable {neg slice s after : List Char} {ms : List Member}

theorem readMembers_source (h : .plain '\\' ∉ ms) : readMembers (ms.flatMap source) = ms := by
  induction ms with
  | nil => rfl
  | cons m ms ih =>
    rw [List.mem_cons, not_or] at h
    cases m with
    | plain c =>
      have hc : c ≠ '\\' := fun he => h.1 (congrArg Member.plain he.symm)
      change readMembers (c :: ms.flatMap source) = _
      rw [readMembers.eq_3 _ _ (fun _ _ he => absurd he hc) fun he => absurd he hc, ih h.2]
    | quoted c => exact congrArg (Member.quoted c :: ·) (ih h.2)

theorem scan_source (h : .plain '\\' ∉ ms) (h' : .plain ']' ∉ ms) (after : List Char) :
    scan (ms.flatMap source ++ ']' :: after) = some (ms.flatMap source, after) := by
  induction ms with
  | nil => rfl
  | cons m ms ih =>
    rw [List.mem_cons, not_or] at h h'
    cases m with
    | plain c =>
      have hc : c ≠ '\\' := fun he => h.1 (congrArg Member.plain he.symm)
      have hc' : c ≠ ']' := fun he => h'.1 (congrArg Member.plain he.symm)
      change scan (c :: (ms.flatMap source ++ ']' :: after)) = some (c :: ms.flatMap source, after)
      rw [scan.eq_5 _ _ hc' (fun _ _ he => absurd he hc) fun he => absurd he hc, ih h.2 h'.2]; rfl
    | quoted c =>
      change (scan (ms.flatMap source ++ ']' :: after)).map _ = _
      rw [ih h.2 h'.2]; rfl

theorem exists_members_of_scan (h : scan s = some (slice, after)) : ∃ ms : List Member,
    .plain '\\' ∉ ms ∧ .plain ']' ∉ ms ∧ slice = ms.flatMap source ∧ s = slice ++ ']' :: after := by
  fun_induction scan s generalizing slice after with
  | case1 => cases h
  | case2 rest => cases h; exact ⟨[], by simp⟩
  | case3 c rest ih =>
    obtain ⟨⟨u, v⟩, hu, he⟩ := Option.map_eq_some_iff.mp h
    cases he
    obtain ⟨ms, h₁, h₂, rfl, rfl⟩ := ih hu
    exact ⟨.quoted c :: ms, by simp [h₁], by simp [h₂], rfl, rfl⟩
  | case4 => cases h
  | case5 c rest hclose hquote hlast ih =>
    obtain ⟨⟨u, v⟩, hu, he⟩ := Option.map_eq_some_iff.mp h
    cases he
    have hc : c ≠ '\\' := fun he => by
      cases rest with
      | nil => exact hlast he rfl
      | cons d rest => exact hquote d rest he rfl
    obtain ⟨ms, h₁, h₂, rfl, rfl⟩ := ih hu
    exact ⟨.plain c :: ms, by simp [h₁, Ne.symm hc], by simp [h₂, Ne.symm hclose], rfl, rfl⟩

/-- The sign and the members of a class as a line may write it: a closing bracket is a member only in first
place, and what could be taken for a sign stands behind one. -/
structure Written (neg : List Char) (ms : List Member) : Prop where
  sign : neg = ['!'] ∨ neg = ['^'] ∨ neg = [] ∧ ms.head? ≠ some (.plain '!') ∧ ms.head? ≠ some (.plain '^')
  filled : ms ≠ []
  escaped : .plain '\\' ∉ ms
  closed : .plain ']' ∉ ms.tail

theorem Written.sign_append (h : Written neg ms) (rest : List Char) :
    Bracket.sign (neg ++ (ms.flatMap source ++ rest)) = (neg, ms.flatMap source ++ rest) := by
  rcases h.sign with rfl | rfl | ⟨rfl, h₁, h₂⟩
  · rfl
  · rfl
  · cases ms with
    | nil => exact absurd rfl h.filled
    | cons m ms =>
      cases m with
      | plain c =>
        have hc : c ≠ '!' := fun he => h₁ (by rw [he]; rfl)
        have hc' : c ≠ '^' := fun he => h₂ (by rw [he]; rfl)
        exact Bracket.sign.eq_3 _ (fun _ he => hc (List.cons.inj he).1) fun _ he => hc' (List.cons.inj he).1
      | quoted c => rfl

theorem Written.ofSlice (h : Written neg ms) :
    Bracket.ofSlice (neg ++ ms.flatMap source) = ⟨!neg.isEmpty, ms⟩ := by
  have hs := h.sign_append []
  rw [List.append_nil] at hs
  simp only [Bracket.ofSlice, hs, readMembers_source h.escaped]

theorem sign_cases (s : List Char) : (sign s).1 = ['!'] ∨ (sign s).1 = ['^'] ∨
    (sign s).1 = [] ∧ s.head? ≠ some '!' ∧ s.head? ≠ some '^' := by
  fun_cases sign s with
  | case1 rest => exact .inl rfl
  | case2 rest => exact .inr (.inl rfl)
  | case3 _ h₁ h₂ =>
    refine .inr (.inr ⟨?_, fun hs => ?_, fun hs => ?_⟩)
    · rfl
    · obtain ⟨rest, rfl⟩ := List.head?_eq_some_iff.mp hs; exact h₁ rest rfl
    · obtain ⟨rest, rfl⟩ := List.head?_eq_some_iff.mp hs; exact h₂ rest rfl

theorem firstClose_source (h : .plain ']' ∉ ms.tail) (h' : .plain '\\' ∉ ms) (hne : ms ≠ []) (after : List Char) :
    ∃ slice, scan (firstClose (ms.flatMap source ++ ']' :: after)).2 = some (slice, after) ∧
      (firstClose (ms.flatMap source ++ ']' :: after)).1 ++ slice = ms.flatMap source := by
  obtain ⟨m, ms, rfl⟩ := List.exists_cons_of_ne_nil hne
  rw [List.mem_cons, not_or] at h'
  by_cases hm : m = .plain ']'
  · subst hm
    exact ⟨ms.flatMap source, scan_source h'.2 h after, rfl⟩
  · have hs := scan_source (by simp [h'] : .plain '\\' ∉ m :: ms) (by simpa [Ne.symm hm] using h) after
    have hf : firstClose ((m :: ms).flatMap source ++ ']' :: after) =
        ([], (m :: ms).flatMap source ++ ']' :: after) := by
      cases m with
      | plain c =>
        exact firstClose.eq_2 _ fun _ he => hm (congrArg Member.plain (List.cons.inj he).1)
      | quoted c => rfl
    rw [hf]
    exact ⟨_, hs, rfl⟩

theorem exists_members_of_firstClose (h : scan (firstClose s).2 = some (slice, after)) :
    ∃ ms : List Member, ms ≠ [] ∧ .plain '\\' ∉ ms ∧ .plain ']' ∉ ms.tail ∧
      (firstClose s).1 ++ slice = ms.flatMap source ∧ s = ms.flatMap source ++ ']' :: after := by
  obtain ⟨ms, h₁, h₂, rfl, hs⟩ := exists_members_of_scan h
  fun_cases firstClose s with
  | case1 rest =>
    obtain rfl : rest = ms.flatMap source ++ ']' :: after := hs
    exact ⟨.plain ']' :: ms, nofun, by simp [h₁], h₂, rfl, rfl⟩
  | case2 _ hfirst =>
    rw [firstClose.eq_2 s hfirst] at hs
    refine ⟨ms, ?_, h₁, fun hm => h₂ (List.mem_of_mem_tail hm), rfl, hs⟩
    rintro rfl
    exact hfirst _ hs

/-- Where a class ends: behind members as a line may write them, whatever follows. -/
theorem close?_eq_some_iff : close? s = some (slice, after) ↔
    ∃ neg ms, Written neg ms ∧ slice = neg ++ ms.flatMap source ∧ s = slice ++ ']' :: after := by
  have hclose (s : List Char) : close? s = (scan (firstClose (sign s).2).2).map fun found =>
      ((sign s).1 ++ (firstClose (sign s).2).1 ++ found.1, found.2) := rfl
  constructor
  · intro h
    rw [hclose] at h
    obtain ⟨⟨u, v⟩, hu, he⟩ := Option.map_eq_some_iff.mp h
    obtain ⟨rfl, rfl⟩ := Prod.mk.inj he
    obtain ⟨ms, hne, hesc, hclosed, hms, hs⟩ := exists_members_of_firstClose hu
    have htext : s = (sign s).1 ++ (ms.flatMap source ++ ']' :: v) := by rw [← hs, Bracket.sign_append]
    have hhead {c : Char} (hneg : (sign s).1 = []) (hm : ms.head? = some (.plain c)) : s.head? = some c := by
      obtain ⟨tl, rfl⟩ := List.head?_eq_some_iff.mp hm
      rw [htext, hneg]; rfl
    refine ⟨(sign s).1, ms, ⟨?_, hne, hesc, hclosed⟩, ?_, ?_⟩
    · refine (sign_cases s).imp_right (Or.imp_right fun ⟨hneg, hs₁, hs₂⟩ => ⟨hneg, ?_, ?_⟩)
      · exact fun hm => hs₁ (hhead hneg hm)
      · exact fun hm => hs₂ (hhead hneg hm)
    · rw [List.append_assoc, hms]
    · rw [List.append_assoc _ _ u, hms, List.append_assoc]; exact htext
  · rintro ⟨neg, ms, h, rfl, rfl⟩
    obtain ⟨u, hu, he⟩ := firstClose_source h.closed h.escaped h.filled after
    rw [hclose, List.append_assoc, h.sign_append, hu, Option.map_some]
    simp only [List.append_assoc, he]

end Bracket

end Exclusion.Rule
