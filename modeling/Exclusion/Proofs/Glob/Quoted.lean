import Exclusion.Glob.Matcher
import Exclusion.Proofs.Expr.Language

/-! # Quoted texts as globs

Behind a backslash no character means anything to a glob, and all others that do are quoted. So a quoted text is
read to the characters of the text, and matches it alone.
-/

namespace Exclusion.Glob

section Reading

variable {st next : State} {before before' : Option Char} {c : Char} {rest after : List Char}

theorem run_step (h : step st before c rest = .ok (next, before', after)) :
    run st before (c :: rest) = run next before' after := by
  rw [run]
  split
  · rename_i he; cases h.symm.trans he
  · rename_i he; cases h.symm.trans he; rfl

theorem step_quoted (st : State) (before : Option Char) (c : Char) (rest : List Char) :
    step st before '\\' (c :: rest) = .ok (st.push (.literal c), some c, rest) := rfl

theorem step_literal (hc : isMeta c = false) (ho : st.outer = []) :
    step st before c rest = .ok (st.push (.literal c), some c, rest) := by
  simp only [isMeta, List.mem_cons, List.not_mem_nil, or_false, decide_eq_false_iff_not, not_or] at hc
  by_cases hcomma : c = ','
  · subst hcomma
    have hst : st.comma = st.push (.literal ',') := by simp [State.comma, State.inChoice, ho]
    rw [← hst]; rfl
  · unfold step
    split
    case h_8 => rfl
    all_goals simp_all

/-- Each quoted character is pushed as itself. -/
theorem run_quote (raw : List Char) (ho : st.outer = []) :
    run st before (quote raw) = .ok (st.branch.reverse ++ raw.map .literal) := by
  induction raw generalizing st before with
  | nil =>
    have hend : run st before [] = st.finish := by rw [run]
    simp [quote, hend, State.finish, State.inChoice, ho]
  | cons c raw ih =>
    have hnext : run (st.push (.literal c)) (some c) (quote raw) =
        .ok (st.branch.reverse ++ (c :: raw).map .literal) := by
      have hpush : (st.push (.literal c)).outer = [] := ho
      rw [ih hpush]
      simp [State.push]
    rw [quote, List.flatMap_cons, ← quote]
    cases hc : isMeta c with
    | true => exact (run_step (step_quoted st before c _)).trans hnext
    | false => exact (run_step (step_literal hc ho)).trans hnext

theorem read_quote (raw : List Char) : read (quote raw) = .ok (raw.map .literal) := run_quote raw rfl

end Reading

section Limits

theorem Bulk.fits_iff (b : Bulk) : b.fits = true ↔ b.nesting ≤ Expr.maxDepth ∧ b.weight ≤ Expr.maxWeight := by
  rw [fits, Bool.and_eq_true, decide_eq_true_eq, decide_eq_true_eq]

theorem pathBytes_eq_map (path : String) :
    pathBytes path = (path.toList.flatMap String.utf8EncodeChar).map UInt8.toNat := by
  rw [pathBytes, List.map_flatMap]; rfl

theorem length_pathBytes (path : String) : (pathBytes path).length = path.utf8ByteSize := by
  have henc : path.toList.utf8Encode = path.toByteArray := String.utf8Encode_toList
  rw [pathBytes_eq_map, List.length_map, ← List.size_toByteArray, ← List.utf8Encode, henc, String.size_toByteArray]

theorem bulkOf_literals (b : Bulk) (raw : List Char) : bulkOf b (raw.map .literal) =
    ⟨b.parts + (raw.flatMap charBytes).length, b.depth, b.weight + 32 * (raw.flatMap charBytes).length⟩ := by
  induction raw generalizing b with
  | nil => rfl
  | cons c raw ih =>
    rw [List.map_cons, bulkOf, ih, List.flatMap_cons, List.length_append]
    simp only [Bulk.add, Token.bulk, Bulk.mk.injEq]
    omega

theorem wholeBulk_literals (raw : List Char) : wholeBulk (raw.map .literal) = bulkOf .frame (raw.map .literal) := by
  match raw with
  | [] => rfl
  | [_] => rfl
  | _ :: _ :: _ => rfl

theorem wholeExpr_literals (raw : List Char) : wholeExpr (raw.map .literal) = exprOf (raw.map .literal) := by
  match raw with
  | [] => rfl
  | [_] => rfl
  | _ :: _ :: _ => rfl

theorem fits_literals (raw : String) : (wholeBulk (raw.toList.map .literal)).fits = true ↔
    32 * raw.utf8ByteSize + 64 ≤ Expr.maxWeight := by
  rw [wholeBulk_literals, bulkOf_literals, ← length_pathBytes, ← pathBytes, Bulk.fits_iff, Nat.add_comm (32 * _)]
  refine and_iff_right ?_
  rw [Bulk.nesting]
  split <;> simp [Bulk.frame, Expr.maxDepth]

end Limits

section Matching

open Exclusion.Expr

theorem readsAll_single {units w : List Nat} :
    ReadsAll (units.map fun n => .atom (.single n)) w ↔ w = units := by
  induction units generalizing w with
  | nil => rfl
  | cons n units ih =>
    simp only [List.map_cons, ReadsAll, ih, Reads, Charset.mem_single, decide_eq_true_eq]
    constructor
    · rintro ⟨-, -, rfl, ⟨-, rfl, rfl⟩, rfl⟩; rfl
    · rintro rfl; exact ⟨[n], units, rfl, ⟨n, rfl, rfl⟩, rfl⟩

theorem reads_literals {raw : List Char} {w : List Nat} :
    (exprOf (raw.map .literal)).Reads w ↔ w = raw.flatMap charBytes := by
  induction raw generalizing w with
  | nil => rw [List.map_nil, exprOf, List.flatMap_nil]; rfl
  | cons c raw ih =>
    rw [List.map_cons, exprOf, Token.expr, List.flatMap_cons]
    simp only [Reads, reads_seqs, readsAll_single, ih]
    constructor
    · rintro ⟨-, -, rfl, rfl, rfl⟩; rfl
    · rintro rfl; exact ⟨_, _, rfl, rfl, rfl⟩

theorem lookFree_literals (raw : List Char) : (exprOf (raw.map .literal)).LookFree := by
  induction raw with
  | nil => rw [List.map_nil, exprOf]; trivial
  | cons c raw ih =>
    rw [List.map_cons, exprOf, Token.expr]
    refine ⟨lookFree_seqs fun e he => ?_, ih⟩
    obtain ⟨n, -, rfl⟩ := List.mem_map.mp he
    trivial

theorem pathBytes_injective : Function.Injective pathBytes := by
  intro p q h
  rw [pathBytes_eq_map, pathBytes_eq_map, List.map_inj_right fun _ _ => UInt8.toNat_inj.mp] at h
  have henc : p.toList.utf8Encode = q.toList.utf8Encode := congrArg List.toByteArray h
  rwa [String.utf8Encode_toList, String.utf8Encode_toList, String.toByteArray_inj] at henc

/-- The literals of a text accept that text alone. -/
theorem accepts_literals (raw path : String) :
    (exprOf (raw.toList.map .literal)).accepts (pathBytes path) = true ↔ path = raw := by
  rw [accepts_iff_reads (lookFree_literals _), reads_literals]
  exact pathBytes_injective.eq_iff

end Matching

end Exclusion.Glob
