import Exclusion.Proofs.Expr.Joint
import Exclusion.Proofs.Filter.Answers
import Exclusion.Proofs.Filter.Leniency

/-! # Raw texts

Raw texts are quoted before they are compiled as globs. Unless one is empty or too long they compile, and exclude
the paths that are one of them, each of which is named as it was given. The program ends at one that is too long.
-/

namespace Exclusion

namespace GlobEntry

def ofRaw (raw : String) : GlobEntry := ⟨raw, Glob.exprOf (raw.toList.map .literal)⟩

/-- A text of this length can be compiled. -/
def FitsRaw (raw : String) : Prop := 32 * raw.utf8ByteSize + 64 ≤ Expr.maxWeight

instance : DecidablePred FitsRaw := fun _ => inferInstanceAs (Decidable (_ ≤ _))

theorem compile_quote {raw : String} (h : raw ≠ "") (hfits : FitsRaw raw) :
    GlobEntry.compile raw (Glob.quote raw.toList) = .ok (ofRaw raw) := by
  rw [GlobEntry.compile, if_neg (by simpa using h), Glob.read_quote]
  simp only [Glob.compile?, if_pos ((Glob.fits_literals raw).mpr hfits), Glob.wholeExpr_literals, ofRaw]

theorem aborts_quote {raw : String} (h : raw ≠ "") (hlong : ¬ FitsRaw raw) :
    Aborts raw (Glob.quote raw.toList) :=
  ⟨h, _, Glob.read_quote _, Bool.eq_false_iff.mpr fun hfits => hlong ((Glob.fits_literals raw).mp hfits)⟩

theorem matchesPath_ofRaw (raw path : String) : (ofRaw raw).matchesPath path = true ↔ path = raw :=
  Glob.accepts_literals raw path

end GlobEntry

namespace GlobMatcher

open GlobEntry

variable {raw : List String} {path : String} {v : Verdict}

def ofRaw (raw : List String) (concurrent : Bool) : GlobMatcher := ⟨raw.map GlobEntry.ofRaw, concurrent⟩

theorem texts_raw (raw : List String) (concurrent : Bool) :
    GlobOptions.texts ⟨[], raw, concurrent⟩ = raw.map fun r => (r, Glob.quote r.toList) := by
  rw [GlobOptions.texts, List.map_nil, List.nil_append]

theorem sorts_raw (h : ∀ r ∈ raw, r ≠ "") (hfits : ∀ r ∈ raw, FitsRaw r) :
    Sorts (raw.map fun r => (r, Glob.quote r.toList)) (raw.map GlobEntry.ofRaw) [] := by
  induction raw with
  | nil => exact .nil
  | cons r raw ih =>
    obtain ⟨hr, h⟩ := List.forall_mem_cons.mp h
    obtain ⟨hrfits, hfits⟩ := List.forall_mem_cons.mp hfits
    exact .kept (compile_quote hr hrfits) rfl (ih h hfits)

/-- Whichever of several equal texts is found, the path is what it names. -/
theorem eq_of_allows_ofRaw {concurrent : Bool} (h : (ofRaw raw concurrent).Allows path v) :
    v = if path ∈ raw then .matched .glob path else .unmatched := by
  rcases h with ⟨g, hg, hm, rfl⟩ | ⟨hall, rfl⟩
  · obtain ⟨r, hr, rfl⟩ := List.mem_map.mp hg
    obtain rfl := (matchesPath_ofRaw r path).mp hm
    rw [if_pos hr]; rfl
  · refine (if_neg fun hp => ?_).symm
    have hmiss := hall _ (List.mem_map_of_mem hp)
    rw [(matchesPath_ofRaw path path).mpr rfl] at hmiss
    cases hmiss

theorem utf8ByteSize_replicate (n : Nat) : (String.ofList (List.replicate n 'a')).utf8ByteSize = n := by
  rw [← Glob.length_pathBytes, Glob.pathBytes, String.toList_ofList]
  induction n with
  | zero => rfl
  | succ n ih => rw [List.replicate_succ, List.flatMap_cons, List.length_append, ih, Nat.add_comm]; rfl

end GlobMatcher

end Exclusion
