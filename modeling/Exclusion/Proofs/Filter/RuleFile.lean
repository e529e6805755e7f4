import Exclusion.Proofs.Expr.Joint
import Exclusion.Proofs.Filter.Returns

/-! # Rule lines in a file

It makes no difference whether lines are given as patterns or stand in a file, whichever way its lines end and
whether or not the last one is ended. The file is split into the same lines but for carriage returns, and at most
two blank lines behind them.
-/

namespace Exclusion.RuleMatcher

/-- The text of a file of lines, with an ending between them and, if it is closed, one behind the last. -/
def written (ending : String) (closed : Bool) (lines : List String) : String :=
  ending.intercalate lines ++ if closed then ending else ""

def endings : List String := ["\n", "\r\n"]

structure Same (m m' : RuleMatcher) : Prop where
  positive : m.positive.Same m'.positive
  negative : m.negative.Same m'.negative

theorem Same.counts {m m' : RuleMatcher} (h : m.Same m') : m.counts = m'.counts := by
  rw [RuleMatcher.counts, RuleMatcher.counts, ← RuleGroup.length_sources, ← RuleGroup.length_sources,
    ← RuleGroup.length_sources, ← RuleGroup.length_sources, h.positive.sources.length_eq,
    h.negative.sources.length_eq]

section Splitting

variable {line rest returns : List Char} {closed : Bool} {lines : List String}

/-- What splitting does with a character, given the piece it stands in front of and the pieces behind. -/
def splitStep (c : Char) : List Char × List String → List Char × List String := fun (current, done) =>
  if c == '\n' then ([], String.ofList current :: done) else (c :: current, done)

theorem foldr_splitStep (s : List Char) : ∃ pieces,
    s.splitOn '\n' = (s.foldr splitStep ([], [])).1 :: pieces ∧
      (s.foldr splitStep ([], [])).2 = pieces.map String.ofList := by
  induction s with
  | nil => exact ⟨[], rfl, rfl⟩
  | cons c s ih =>
    obtain ⟨pieces, hsplit, hdone⟩ := ih
    rw [List.splitOn_cons_eq_if_modifyHead, List.foldr_cons, splitStep, hsplit, hdone]
    cases hc : c == '\n' with
    | true => exact ⟨_, rfl, rfl⟩
    | false => exact ⟨pieces, rfl, rfl⟩

theorem splitLines_eq (text : String) : splitLines text = (text.toList.splitOn '\n').map String.ofList := by
  obtain ⟨pieces, hsplit, hdone⟩ := foldr_splitStep text.toList
  rw [hsplit, List.map_cons, ← hdone]
  rfl

theorem splitOn_line (h : '\n' ∉ line) : (line ++ '\n' :: rest).splitOn '\n' = line :: rest.splitOn '\n' := by
  refine List.splitOnP_append_cons_of_forall_mem (fun c hc => beq_false_of_ne ?_) '\n' rfl rest
  rintro rfl; exact h hc

theorem splitOn_ended (h : '\n' ∉ line) (hr : ∀ c ∈ returns, c = '\r') :
    (line ++ (returns ++ '\n' :: rest)).splitOn '\n' = (line ++ returns) :: rest.splitOn '\n' := by
  rw [← List.append_assoc, splitOn_line]
  rw [List.mem_append, not_or]
  exact ⟨h, fun hm => absurd (hr _ hm) (by decide)⟩

theorem sameLine_append (l : String) (hr : ∀ c ∈ returns, c = '\r') :
    SameLine l (String.ofList (l.toList ++ returns)) := by
  induction returns using List.reverseRecOn with
  | nil => rw [List.append_nil, String.ofList_toList]; rfl
  | append_singleton returns c ih =>
    obtain rfl : c = '\r' := hr c (by simp)
    refine (ih fun c hc => hr c (List.mem_append_left _ hc)).trans ?_
    simp [← List.append_assoc]

/-- Characters that split into lines, but for carriage returns, and blank lines. -/
def Yields (s : List Char) (lines : List String) : Prop :=
  ∃ ls blanks, (s.splitOn '\n').map String.ofList = ls ++ blanks ∧ List.Forall₂ SameLine ls lines ∧
    ∀ l ∈ blanks, Rule.ofLine l = .ok none

theorem ofLine_returns (hr : ∀ c ∈ returns, c = '\r') : Rule.ofLine (String.ofList returns) = .ok none := by
  have hblank : Rule.ofLine "" = .ok none := rfl
  have hsame := Rule.ofLine_same (sameLine_append "" hr)
  rw [hblank, String.toList_empty, List.nil_append] at hsame
  generalize Rule.ofLine (String.ofList returns) = x at hsame ⊢
  cases hsame with
  | ok h => cases h; rfl

theorem yields_nil : Yields [] [] :=
  ⟨[], [""], rfl, .nil, by simp only [List.mem_singleton, forall_eq]; rfl⟩

theorem yields_ending (hr : ∀ c ∈ returns, c = '\r') : Yields (returns ++ ['\n']) [] := by
  refine ⟨[], [String.ofList returns, ""], ?_, .nil, ?_⟩
  · have hsplit := @splitOn_ended [] [] returns List.not_mem_nil hr
    rw [List.nil_append, List.nil_append] at hsplit
    rw [hsplit]; rfl
  · simp only [List.mem_cons, List.not_mem_nil, or_false, forall_eq_or_imp, forall_eq]
    exact ⟨ofLine_returns hr, rfl⟩

theorem yields_last {l : String} (h : '\n' ∉ l.toList) : Yields l.toList [l] := by
  refine ⟨[l], [], ?_, .cons (.refl l) .nil, by simp⟩
  rw [List.splitOn_eq_singleton h, List.map_singleton, String.ofList_toList]; rfl

theorem Yields.ended {l : String} (h : Yields rest lines) (hl : '\n' ∉ l.toList) (hr : ∀ c ∈ returns, c = '\r') :
    Yields (l.toList ++ (returns ++ '\n' :: rest)) (l :: lines) := by
  obtain ⟨ls, blanks, hsplit, hls, hblanks⟩ := h
  refine ⟨String.ofList (l.toList ++ returns) :: ls, blanks, ?_, .cons (sameLine_append l hr).symm hls, hblanks⟩
  rw [splitOn_ended hl hr, List.map_cons, hsplit, List.cons_append]

/-- A file is split into its lines, but for carriage returns, and blank lines. -/
theorem yields_written {ending : String} (he : ending ∈ endings) (closed : Bool)
    (h : ∀ l ∈ lines, '\n' ∉ l.toList) : Yields (written ending closed lines).toList lines := by
  obtain ⟨returns, hending, hr⟩ : ∃ returns, ending.toList = returns ++ ['\n'] ∧ ∀ c ∈ returns, c = '\r' := by
    simp only [endings, List.mem_cons, List.not_mem_nil, or_false] at he
    rcases he with rfl | rfl
    · exact ⟨[], rfl, nofun⟩
    · exact ⟨['\r'], rfl, by simp⟩
  have hwritten : (written ending closed lines).toList =
      List.intercalate (returns ++ ['\n']) (lines.map String.toList) ++
        if closed then returns ++ ['\n'] else [] := by
    rw [written, String.toList_append, String.toList_intercalate, hending]
    cases closed
    · rfl
    · rw [if_pos rfl, if_pos rfl, hending]
  rw [hwritten]
  clear hwritten
  -- What is behind the last line is blank, whether an ending stands there or not.
  induction lines with
  | nil =>
    cases closed with
    | false => exact yields_nil
    | true => exact yields_ending hr
  | cons l lines ih =>
    obtain ⟨hl, hlines⟩ := List.forall_mem_cons.mp h
    cases lines with
    | nil =>
      rw [List.map_singleton, List.intercalate_singleton]
      cases closed with
      | false => rw [if_neg Bool.false_ne_true, List.append_nil]; exact yields_last hl
      | true => exact yields_nil.ended hl hr
    | cons l' lines =>
      rw [List.map_cons, List.map_cons, List.intercalate_cons_cons]
      simpa using (ih hlines).ended hl hr

end Splitting

section Compiling

variable {ls ls' : List String} {files files' : Files} {file : String}

theorem rules_same (h : List.Forall₂ SameLine ls ls') :
    Resemble SameFailure (List.Forall₂ Rule.Same) (rules ls) (rules ls') :=
  (resemble_mapM h fun _ _ => Rule.ofLine_same).map fun _ _ hrs =>
    List.rel_filterMap (fun _ _ hr => hr) hrs

theorem rules_append_blanks {blanks : List String} (h : ∀ l ∈ blanks, Rule.ofLine l = .ok none) :
    rules (ls ++ blanks) = rules ls := by
  have hblanks : blanks.mapM Rule.ofLine = .ok (blanks.map fun _ => none) :=
    mapM_eq_ok.mpr (List.forall₂_map_right_iff.mpr (List.forall₂_same.mpr h))
  unfold rules
  rw [List.mapM_append, hblanks]
  cases ls.mapM Rule.ofLine with
  | ok rs => simp [Except.map, bind, Except.bind, pure, Except.pure]
  | error x => rfl

theorem ofLines_same (h : List.Forall₂ SameLine ls ls') (concurrent : Bool) :
    Resemble SameFailure Same (ofLines ls concurrent) (ofLines ls' concurrent) := by
  refine (rules_same h).bind fun rs rs' hrs => ?_
  have hpositive : List.Forall₂ Rule.Same (rs.filter (! ·.negated)) (rs'.filter (! ·.negated)) :=
    List.rel_filter (fun r r' hr => by simp only [hr.negated]) hrs
  have hnegative : List.Forall₂ Rule.Same (rs.filter (·.negated)) (rs'.filter (·.negated)) :=
    List.rel_filter (fun r r' hr => by simp only [hr.negated]) hrs
  refine (RuleGroup.ofRules_same hpositive concurrent).bind fun p p' hp => ?_
  exact (RuleGroup.ofRules_same hnegative concurrent).bind fun n n' hn => .ok ⟨hp, hn⟩

theorem readText_of_read {text : String} (h : files.read file = .ok text.toUTF8) :
    files.readText file = .ok text := by
  have hvalid : String.fromUTF8? text.toUTF8 = some text := dif_pos text.isValidUTF8
  rw [Files.readText, h]
  simp only [hvalid]

/-- Lines in a file behind other lines compile exactly if all of them do as patterns. Then there are as many rules that
exclude and that release, and whatever happens meanwhile the matchers fail alike or give the same answer, with the
same line but for carriage returns at its end. -/
theorem compile_file_same {first lines : List String} {ending : String} (he : ending ∈ endings) {closed : Bool}
    (hlines : ∀ l ∈ lines, '\n' ∉ l.toList) (hne : first ++ lines ≠ [])
    (hread : files.read file = .ok (written ending closed lines).toUTF8) (concurrent : Bool) (log log' : Log) :
    Resemble SameFailure
      (fun m m' => m.counts = m'.counts ∧ ∀ (path : String) (s : Scope) (w : World),
        Outcomes Verdict.SameAnswer ((m.evaluate path s).run w).1 ((m'.evaluate path s).run w).1)
      ((compile files ⟨first, some file, concurrent⟩).run log).1
      ((compile files' ⟨first ++ lines, none, concurrent⟩).run log').1 := by
  obtain ⟨ls, blanks, hsplit, hls, hblanks⟩ := yields_written he closed hlines
  have hfile : RuleMatcher.lines files ⟨first, some file, concurrent⟩ = .ok (first ++ ls ++ blanks) := by
    simp only [RuleMatcher.lines, readText_of_read hread, Except.map, splitLines_eq, hsplit, List.append_assoc]
  have hsame : List.Forall₂ SameLine (first ++ ls) (first ++ lines) :=
    List.rel_append (List.forall₂_same.mpr fun l _ => .refl l) hls
  have hinFile : ofOptions files ⟨first, some file, concurrent⟩ = ofLines (first ++ ls) concurrent := by
    rw [ofOptions, if_neg (by simp), hfile]
    simp only [ofLines, rules_append_blanks hblanks, bind, Except.bind]
  have hinline : ofOptions files' ⟨first ++ lines, none, concurrent⟩ = ofLines (first ++ lines) concurrent := by
    rw [ofOptions, if_neg (by simpa using hne)]; rfl
  rw [compile_settles, compile_settles, hinFile, hinline]
  refine (ofLines_same hsame concurrent).mono fun m m' hm => ⟨hm.counts, fun path s w => ?_⟩
  exact evaluate_same hm.positive hm.negative path s w

/-- Files that end their lines with returns, and do not end the last one. -/
theorem compile_file_same_of_returns :
    let files : Files := ⟨[(["rules"], "!b.rs\r\n# c\r\n*.rs".toUTF8)], []⟩
    Resemble SameFailure
      (fun m m' => m.counts = m'.counts ∧ ∀ (path : String) (s : Scope) (w : World),
        Outcomes Verdict.SameAnswer ((m.evaluate path s).run w).1 ((m'.evaluate path s).run w).1)
      ((compile files ⟨["a.rs"], some "rules", true⟩).run []).1
      ((compile .empty ⟨["a.rs", "!b.rs", "# c", "*.rs"], none, true⟩).run []).1 := by
  intro files
  have hread : files.read "rules" = .ok (written "\r\n" false ["!b.rs", "# c", "*.rs"]).toUTF8 := rfl
  exact compile_file_same (by decide) (by decide) (by decide) hread true [] []

end Compiling

end Exclusion.RuleMatcher
