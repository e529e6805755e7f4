import Exclusion.Proofs.Glob.Quoted

/-! # Nested choices

Choices of one branch each, one inside the other. Each one is a level of nesting, so that only so many of them
can be compiled.
-/

namespace Exclusion.Glob

/-- So many choices around the character `a`. -/
def nested : Nat → Token
  | 0 => .literal 'a'
  | k + 1 => .choice [[nested k]]

def braces (k : Nat) : List Char := List.replicate k '\x7b' ++ 'a' :: List.replicate k '\x7d'

theorem braces_succ (k : Nat) : braces (k + 1) = '\x7b' :: (braces k ++ ['\x7d']) := by
  rw [braces, braces, List.replicate_succ, List.replicate_succ', List.cons_append, List.append_assoc,
    List.cons_append]

/-- The braces are read to the choices, from any state and whatever follows. -/
theorem run_braces (k : Nat) (st : State) (before : Option Char) (rest : List Char) :
    ∃ before', run st before (braces k ++ rest) = run (st.push (nested k)) before' rest := by
  induction k generalizing st before rest with
  | zero => exact ⟨some 'a', run_step rfl⟩
  | succ k ih =>
    obtain ⟨before', hinner⟩ := ih st.openChoice (some '\x7b') ('\x7d' :: rest)
    refine ⟨some '\x7d', ?_⟩
    rw [braces_succ, List.cons_append, List.append_assoc, run_step (c := '\x7b') rfl, List.singleton_append, hinner]
    exact run_step rfl

theorem read_braces (k : Nat) : read (braces k) = .ok [nested k] := by
  obtain ⟨before, h⟩ := run_braces k .initial none []
  rw [List.append_nil] at h
  rw [read, h, run]; rfl

theorem isBlank_nested (k : Nat) : (nested k).isBlank = false := by
  induction k with
  | zero => rfl
  | succ k ih => rw [nested, Token.isBlank, allBlank, isBlank, ih]; rfl

theorem bulk_nested (k : Nat) : (nested k).bulk = ⟨1, k, 32⟩ := by
  induction k with
  | zero => rfl
  | succ k ih =>
    have hblank : isBlank [nested k] = false := by rw [isBlank, isBlank_nested]; rfl
    rw [nested, Token.bulk, branchesBulk, hblank, if_neg Bool.false_ne_true, branchesBulk, bulkOf, bulkOf, ih]
    simp [Bulk.add, Bulk.empty, Bulk.single, Bulk.group, Bulk.nesting]

theorem fits_nested (k : Nat) : (wholeBulk [nested k]).fits = true ↔ k < Expr.maxDepth := by
  have hwhole : wholeBulk [nested k] = ⟨4, k, 96⟩ := by
    have hbulk : bulkOf .frame [nested k] = ⟨4, k, 96⟩ := by
      rw [bulkOf, bulkOf, bulk_nested]
      simp [Bulk.add, Bulk.frame]
    cases k <;> exact hbulk
  have hweight : 96 ≤ Expr.maxWeight := by decide
  rw [hwhole, Bulk.fits_iff, and_iff_left hweight]
  exact Iff.rfl

end Exclusion.Glob
