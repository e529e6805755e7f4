import Exclusion.Proofs.Filter.Compilation
import Exclusion.Proofs.Glob.Nesting

/-! # Lenient compiling

Lenient compiling sorts the entries: it keeps those that compile and reports why each of the others does not.
Strict compiling comes to the same matcher if there is nothing to report, and else fails with the first report.
What is left out has no other effect, so that the matcher is also the one of the remaining entries. A glob that
is too large to be compiled is neither kept nor reported: the program ends there.
-/

namespace Exclusion.GlobMatcher

open Build

/-- The entries sorted into those that compile alone and the failures of the others, each in order. -/
inductive Sorts : List (String × List Char) → List GlobEntry → List Failure → Prop
  | nil : Sorts [] [] []
  | kept {source : String} {glob : List Char} {g : GlobEntry} {ts : List (String × List Char)}
      {gs : List GlobEntry} {xs : List Failure} : GlobEntry.compile source glob = .ok g → g.source = source →
      Sorts ts gs xs → Sorts ((source, glob) :: ts) (g :: gs) xs
  | refused {source : String} {glob : List Char} {f : Glob.Fault} {ts : List (String × List Char)}
      {gs : List GlobEntry} {xs : List Failure} :
      GlobEntry.compile source glob = .error (.compile .glob source (.glob f)) →
      Sorts ts gs xs → Sorts ((source, glob) :: ts) gs (.compile .glob source (.glob f) :: xs)

def compiles (t : String × List Char) : Bool := (GlobEntry.compile t.1 t.2).isOk

/-- The options without the entries that do not compile. -/
def remaining (o : GlobOptions) : GlobOptions where
  patterns := o.patterns.filter fun p => compiles (p, p.toList)
  raw := o.raw.filter fun r => compiles (r, Glob.quote r.toList)
  concurrent := o.concurrent

section Sorting

variable {ts : List (String × List Char)} {gs : List GlobEntry} {xs : List Failure}

/-- The entries can be sorted up to the first one at which the program ends. -/
theorem sorts_or_aborts (ts : List (String × List Char)) :
    ((∀ t ∈ ts, ¬ GlobEntry.Aborts t.1 t.2) ∧ ∃ gs xs, Sorts ts gs xs) ∨
      ∃ before source glob after gs xs, ts = before ++ (source, glob) :: after ∧ Sorts before gs xs ∧
        GlobEntry.Aborts source glob := by
  induction ts with
  | nil => exact .inl ⟨nofun, [], [], .nil⟩
  | cons t ts ih =>
    obtain ⟨source, glob⟩ := t
    by_cases ha : GlobEntry.Aborts source glob
    · exact .inr ⟨[], source, glob, ts, [], [], rfl, .nil, ha⟩
    · -- Otherwise the entry is kept or refused, whatever becomes of the others.
      have hcons {us gs xs} (h : Sorts us gs xs) : ∃ gs' xs', Sorts ((source, glob) :: us) gs' xs' := by
        cases hc : GlobEntry.compile source glob with
        | ok g => exact ⟨_, _, .kept hc (GlobEntry.source_of_compile hc).1 h⟩
        | error x =>
          rcases GlobEntry.failure_of_compile hc with ⟨f, rfl⟩ | rfl
          · exact ⟨_, _, .refused hc h⟩
          · exact absurd (GlobEntry.compile_eq_aborted.mp hc) ha
      rcases ih with ⟨hnone, gs, xs, h⟩ | ⟨before, source', glob', after, gs, xs, rfl, h, ha'⟩
      · exact .inl ⟨List.forall_mem_cons.mpr ⟨ha, hnone⟩, hcons h⟩
      · obtain ⟨gs', xs', h'⟩ := hcons h
        exact .inr ⟨_, source', glob', after, gs', xs', rfl, h', ha'⟩

theorem Sorts.length (h : Sorts ts gs xs) : gs.length + xs.length = ts.length := by
  induction h with
  | nil => rfl
  | kept _ _ _ ih => simp only [List.length_cons]; omega
  | refused _ _ ih => simp only [List.length_cons]; omega

theorem Sorts.entries_eq (h : Sorts ts gs xs) : gs = ts.filterMap entry? := by
  induction h with
  | nil => rfl
  | kept hc _ _ ih => rw [List.filterMap_cons_some (entry?_eq_some.mpr hc), ← ih]
  | refused hc _ ih =>
    rw [List.filterMap_cons_none, ih]
    unfold entry?
    rw [hc]; rfl

theorem Sorts.mapM_append (h : Sorts ts gs xs) (more : List (String × List Char)) :
    (ts ++ more).mapM (fun (source, glob) => GlobEntry.compile source glob) =
      xs.head?.elim ((more.mapM fun (source, glob) => GlobEntry.compile source glob).map (gs ++ ·)) .error := by
  induction h with
  | nil => cases hm : more.mapM fun (source, glob) => GlobEntry.compile source glob <;> simp [hm, Except.map]
  | @kept source glob g ts gs xs hc _ _ ih =>
    rw [List.cons_append, List.mapM_cons]
    simp only [hc, ih]
    cases xs with
    | nil => cases more.mapM fun (source, glob) => GlobEntry.compile source glob <;> rfl
    | cons x xs => rfl
  | refused hc _ _ =>
    rw [List.cons_append, List.mapM_cons]
    simp only [hc]
    rfl

theorem Sorts.mapM (h : Sorts ts gs xs) :
    ts.mapM (fun (source, glob) => GlobEntry.compile source glob) = xs.head?.elim (.ok gs) .error := by
  have hnil : (pure [] : Except Failure (List GlobEntry)) = .ok [] := rfl
  have hmap := h.mapM_append []
  rw [List.append_nil, List.mapM_nil, hnil, Except.map, List.append_nil] at hmap
  exact hmap

/-- Behind entries that can be sorted, lenient compiling goes on. -/
theorem Sorts.run_append (h : Sorts ts gs xs) (more : List (String × List Char)) (log : Log) :
    (compileEach (ts ++ more)).run log =
      ((((compileEach more).run (log ++ xs.map skipped)).1).map fun r => (gs ++ r.1, xs ++ r.2),
        ((compileEach more).run (log ++ xs.map skipped)).2) := by
  induction h generalizing log with
  | nil =>
    rw [List.map_nil, List.append_nil, List.nil_append]
    refine Prod.ext ?_ rfl
    cases ((compileEach more).run log).1 <;> rfl
  | kept hc _ _ ih =>
    rw [List.cons_append, compileEach_kept hc, run_bind, ih]
    cases ((compileEach more).run _).1 <;> rfl
  | refused hc _ ih =>
    rw [List.cons_append, compileEach_refused hc, run_bind_ok (run_skipped _ log), run_bind, ih, List.map_cons,
      List.append_assoc, List.singleton_append]
    cases ((compileEach more).run _).1 <;> rfl

theorem Sorts.run_compileEach (h : Sorts ts gs xs) (log : Log) :
    (compileEach ts).run log = (.ok (gs, xs), log ++ xs.map skipped) := by
  have hnil (log : Log) : (compileEach []).run log = (.ok ([], []), log) := rfl
  have heach := h.run_append [] log
  rw [hnil, List.append_nil] at heach
  rw [heach, Except.map, List.append_nil, List.append_nil]

theorem Sorts.filter (h : Sorts ts gs xs) : Sorts (ts.filter compiles) gs [] := by
  induction h with
  | nil => exact .nil
  | kept hc hs _ ih =>
    rw [List.filter_cons_of_pos (by rw [compiles, hc]; rfl)]
    exact .kept hc hs ih
  | refused hc _ ih =>
    rw [List.filter_cons_of_neg (by rw [compiles, hc]; exact Bool.false_ne_true)]
    exact ih

end Sorting

variable {o : GlobOptions} {gs : List GlobEntry} {xs : List Failure}

theorem texts_remaining (o : GlobOptions) :
    (remaining o).texts = o.texts.filter compiles := by
  rw [GlobOptions.texts, GlobOptions.texts, List.filter_append, List.filter_map, List.filter_map]
  rfl

theorem Sorts.settles (h : Sorts o.texts gs xs) :
    (compile o).Settles (xs.head?.elim (.ok ⟨gs, o.concurrent⟩) .error) := by
  have hs := compile_settles o
  rw [ofOptions, h.mapM] at hs
  cases xs with
  | nil => exact hs
  | cons x xs => exact hs

theorem Sorts.run_compileLenient (h : Sorts o.texts gs xs) (log : Log) : (compileLenient o).run log =
    (.ok (⟨gs, o.concurrent⟩, xs), log ++ xs.map skipped ++ [finished ⟨gs, o.concurrent⟩]) := by
  rw [compileLenient, run_bind_ok (h.run_compileEach log)]
  rfl

section Ending

variable {before after : List (String × List Char)} {source : String} {glob : List Char}

theorem settles_of_aborts (ho : o.texts = before ++ (source, glob) :: after) (h : Sorts before gs xs)
    (ha : GlobEntry.Aborts source glob) : (compile o).Settles (.error (xs.head?.getD (.aborted source))) := by
  have hs := compile_settles o
  rw [ofOptions, ho, h.mapM_append, List.mapM_cons] at hs
  simp only [GlobEntry.compile_eq_aborted.mpr ha] at hs
  cases xs with
  | nil => exact hs
  | cons x xs => exact hs

theorem run_compileLenient_of_aborts (ho : o.texts = before ++ (source, glob) :: after) (h : Sorts before gs xs)
    (ha : GlobEntry.Aborts source glob) (log : Log) :
    (compileLenient o).run log = (.error (.aborted source), log ++ xs.map skipped) := by
  rw [compileLenient, ho, run_bind, h.run_append,
    compileEach_aborted (GlobEntry.compile_eq_aborted.mpr ha)]
  rfl

end Ending

theorem entries_of_compileLenient {log : Log} {m : GlobMatcher}
    (h : ((compileLenient o).run log).1 = .ok (m, xs)) : m = ⟨o.texts.filterMap entry?, o.concurrent⟩ := by
  rcases sorts_or_aborts o.texts with ⟨-, gs, xs', hsorts⟩ | ⟨before, source, glob, after, gs, xs', ho, hsorts, ha⟩
  · cases (congrArg Prod.fst (hsorts.run_compileLenient log)).symm.trans h
    rw [hsorts.entries_eq]
  · cases (congrArg Prod.fst (run_compileLenient_of_aborts ho hsorts ha log)).symm.trans h

theorem aborts_braces {k : Nat} (h : Expr.maxDepth ≤ k) :
    GlobEntry.Aborts (String.ofList (Glob.braces k)) (String.ofList (Glob.braces k)).toList := by
  refine ⟨by simp [Glob.braces], [Glob.nested k], ?_, ?_⟩
  · rw [String.toList_ofList, Glob.read_braces]
  · rw [← Bool.not_eq_true, Glob.fits_nested]
    exact Nat.not_lt.mpr h

end Exclusion.GlobMatcher
