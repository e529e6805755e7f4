import Exclusion.Proofs.Rule.Language

/-! # Segments and components

A pattern without brackets is a list of segments between slashes, and a path is a list of components.
A segment `**` stands for any number of components and every other segment for one. The pieces of a
pattern read the components that its segments cover.
-/

namespace Exclusion.Rule

def join (parts : List (List Char)) : List Char := ['/'].intercalate parts

def slashed (cs : List (List Char)) : List Char := cs.flatMap ('/' :: ·)

/-- A component is neither empty nor broken by a slash or a new line. -/
def IsComponent (c : List Char) : Prop := c ≠ [] ∧ '/' ∉ c ∧ '\n' ∉ c

/-- A slash stands behind a backslash that is not itself behind one. -/
def quotesSlash : List Char → Bool
  | '\\' :: c :: rest => c == '/' || quotesSlash rest
  | _ :: rest => quotesSlash rest
  | [] => false

namespace Segment

def deep : List Char := ['*', '*']

/-- A segment matches a component: `*` stands for any run, `?` for any character, a backslash quotes the
character behind it, and every other character stands for itself, as does a backslash at the end. -/
def Matches : List Char → List Char → Prop
  | [], w => w = []
  | ['\\'], w => w = ['\\']
  | '\\' :: c :: s, w => ∃ v, w = c :: v ∧ Matches s v
  | '*' :: s, w => ∃ u v, w = u ++ v ∧ Matches s v
  | '?' :: s, w => ∃ c v, w = c :: v ∧ Matches s v
  | c :: s, w => ∃ v, w = c :: v ∧ Matches s v

/-- The segments stand for exactly these components. The last of them, `**`, stands for one at least. -/
def Covers : List (List Char) → List (List Char) → Prop
  | [], cs => cs = []
  | s :: rest, cs =>
    if s = deep then
      if rest = [] then cs ≠ [] else ∃ xs ys, cs = xs ++ ys ∧ Covers rest ys
    else ∃ c ys, cs = c :: ys ∧ Matches s c ∧ Covers rest ys

end Segment

section Paths

variable {cs xs ys : List (List Char)} {u v : List Char}

@[simp] theorem slashed_nil : slashed [] = [] := rfl

@[simp] theorem slashed_cons (c : List Char) (cs : List (List Char)) :
    slashed (c :: cs) = '/' :: c ++ slashed cs := by
  simp [slashed]

@[simp] theorem slashed_append (xs ys : List (List Char)) :
    slashed (xs ++ ys) = slashed xs ++ slashed ys := by
  simp [slashed]

theorem join_cons (c : List Char) (cs : List (List Char)) : join (c :: cs) = c ++ slashed cs := by
  induction cs generalizing c with
  | nil => simp [join]
  | cons d cs ih =>
    simp only [join] at ih ⊢
    rw [List.intercalate_cons_cons, ih]
    simp

theorem slash_join (h : cs ≠ []) : '/' :: join cs = slashed cs := by
  cases cs with
  | nil => exact absurd rfl h
  | cons c cs => simp [join_cons]

theorem join_append (h : xs ≠ []) : join (xs ++ ys) = join xs ++ slashed ys := by
  cases xs with
  | nil => exact absurd rfl h
  | cons c xs => simp [join_cons]

@[simp] theorem join_singleton (c : List Char) : join [c] = c := by
  simp [join_cons]

theorem exists_of_slash_not_mem_join (h : cs ≠ []) (hs : '/' ∉ join cs) : ∃ c, cs = [c] := by
  obtain ⟨c, cs, rfl⟩ := List.exists_cons_of_ne_nil h
  cases cs with
  | nil => exact ⟨c, rfl⟩
  | cons d cs => exact absurd (by simp [join_cons]) hs

theorem newline_not_mem_slashed (h : ∀ c ∈ cs, '\n' ∉ c) : '\n' ∉ slashed cs := by
  simp only [slashed, List.mem_flatMap, not_exists, not_and]
  intro c hc hn
  exact h c hc ((List.mem_cons.mp hn).resolve_left (by decide))

theorem append_eq_append_of_not_slash {a b u v : List Char} (ha : '/' ∉ a) (hb : '/' ∉ b)
    (hu : u = [] ∨ u.head? = some '/') (hv : v = [] ∨ v.head? = some '/') (h : a ++ u = b ++ v) :
    a = b ∧ u = v := by
  induction a generalizing b with
  | nil =>
    cases b with
    | nil => exact ⟨rfl, h⟩
    | cons c b =>
      rcases hu with rfl | hu
      · simp at h
      · rw [List.nil_append] at h
        rw [h] at hu
        simp at hu
        exact absurd (by simp [hu]) hb
  | cons c a ih =>
    cases b with
    | nil =>
      rcases hv with rfl | hv
      · simp at h
      · rw [List.nil_append] at h
        rw [← h] at hv
        simp at hv
        exact absurd (by simp [hv]) ha
    | cons d b =>
      simp only [List.cons_append, List.cons.injEq] at h
      obtain ⟨rfl, h⟩ := h
      obtain ⟨rfl, rfl⟩ := ih (fun hm => ha (List.mem_cons_of_mem _ hm))
        (fun hm => hb (List.mem_cons_of_mem _ hm)) h
      exact ⟨rfl, rfl⟩

theorem slashed_head (cs : List (List Char)) : slashed cs = [] ∨ (slashed cs).head? = some '/' := by
  cases cs with
  | nil => exact .inl rfl
  | cons c cs => exact .inr rfl

/-- Components split where a slash stands, and nowhere else. -/
theorem slashed_eq_append_slash (h : ∀ c ∈ cs, '/' ∉ c) :
    slashed cs = u ++ '/' :: v ↔ ∃ xs ys, cs = xs ++ ys ∧ u = slashed xs ∧ '/' :: v = slashed ys := by
  constructor
  · intro he
    induction cs generalizing u with
    | nil => simp at he
    | cons c cs ih =>
      cases u with
      | nil => exact ⟨[], c :: cs, rfl, rfl, he.symm⟩
      | cons d u =>
        simp only [slashed_cons, List.cons_append, List.cons.injEq] at he
        obtain ⟨rfl, he⟩ := he
        obtain ⟨a, rfl, ha⟩ | ⟨a, rfl, ha⟩ := List.append_eq_append_iff.mp he
        · obtain ⟨xs, ys, rfl, rfl, hv⟩ := ih (fun b hb => h b (List.mem_cons_of_mem _ hb)) ha
          exact ⟨c :: xs, ys, rfl, by simp, hv⟩
        · cases a with
          | nil =>
            simp only [List.nil_append, List.append_nil] at ha h ⊢
            exact ⟨[u], cs, rfl, by simp, ha⟩
          | cons b a =>
            simp only [List.cons_append, List.cons.injEq] at ha
            exact absurd (by simp [← ha.1]) (h _ List.mem_cons_self)
  · rintro ⟨xs, ys, rfl, rfl, hv⟩; rw [slashed_append, hv]

end Paths

end Exclusion.Rule
