import Exclusion.Document.Read
import Mathlib.Data.List.Sort

/-! # The keys of a document

However a document is written, its keys are read in ascending order and each of them once. So what it says about
some of its keys says everything about them.
-/

namespace Exclusion.Document

def Ascending {α : Type} (es : List (String × α)) : Prop := es.Pairwise fun a b => a.1 < b.1

namespace Ascending

variable {α : Type} {es es' : List (String × α)} {key : String} {a : α}

instance : Std.Irrefl fun a b : String × α => a.1 < b.1 := ⟨fun a => String.lt_irrefl a.1⟩

instance : Std.Antisymm fun a b : String × α => a.1 < b.1 := ⟨fun _ _ h h' => absurd h' (String.lt_asymm h)⟩

theorem keys (h : Ascending es) : (es.map (·.1)).Pairwise (· < ·) := List.pairwise_map.mpr h

theorem filter (h : Ascending es) (p : String × α → Bool) : Ascending (es.filter p) := List.Pairwise.filter p h

theorem mem_iff_lookup (h : Ascending es) : (key, a) ∈ es ↔ es.lookup key = some a := by
  rw [List.lookup_eq_some_iff]
  constructor
  · intro hmem
    obtain ⟨before, after, rfl⟩ := List.append_of_mem hmem
    refine ⟨before, after, rfl, fun e he => bne_iff_ne.mpr ?_⟩
    have hlt : e.1 < key := (List.pairwise_append.mp h).2.2 e he _ List.mem_cons_self
    exact fun heq => String.lt_irrefl _ (heq ▸ hlt)
  · rintro ⟨before, after, rfl, -⟩
    exact List.mem_append_right _ List.mem_cons_self

/-- Under keys that lead to the same in both, the same entries stand in the same order. -/
theorem filter_eq {keys : List String} (h : Ascending es) (h' : Ascending es')
    (agree : ∀ key ∈ keys, es.lookup key = es'.lookup key) :
    es.filter (·.1 ∈ keys) = es'.filter (·.1 ∈ keys) := by
  refine List.Pairwise.eq_of_mem_iff (h.filter _) (h'.filter _) fun ⟨key, a⟩ => ?_
  rw [List.mem_filter, List.mem_filter, h.mem_iff_lookup, h'.mem_iff_lookup]
  refine and_congr_left fun hkey => ?_
  rw [agree key (of_decide_eq_true hkey)]

end Ascending

namespace Entries

variable {key : String} {node : Node} {es next : Entries} {made origin : Origin} {path : List String}

theorem mem_put {e : String × Node} (h : e ∈ put key node es) : e = (key, node) ∨ e ∈ es := by
  fun_induction put key node es with
  | case1 => exact .inl (List.mem_singleton.mp h)
  | case2 n rest => exact (List.mem_cons.mp h).imp_right (List.mem_cons_of_mem _)
  | case3 k n rest _ _ => exact List.mem_cons.mp h
  | case4 k n rest _ _ ih =>
    rcases List.mem_cons.mp h with rfl | h
    · exact .inr List.mem_cons_self
    · exact (ih h).imp_right (List.mem_cons_of_mem _)

theorem ascending_put (h : Ascending es) : Ascending (put key node es) := by
  fun_induction put key node es with
  | case1 => exact List.pairwise_singleton _ _
  | case2 n rest => exact List.pairwise_cons.mpr (List.pairwise_cons.mp h)
  | case3 k n rest _ hlt =>
    refine List.pairwise_cons.mpr ⟨fun e he => ?_, h⟩
    rcases List.mem_cons.mp he with rfl | he
    · exact hlt
    · exact String.lt_trans hlt ((List.pairwise_cons.mp h).1 e he)
  | case4 k n rest hne hnlt ih =>
    obtain ⟨hfirst, hrest⟩ := List.pairwise_cons.mp h
    have hlt : k < key := Classical.byContradiction fun hge =>
      hne (String.le_antisymm (String.not_lt.mp hge) (String.not_lt.mp hnlt))
    refine List.pairwise_cons.mpr ⟨fun e he => ?_, ih hrest⟩
    rcases mem_put he with rfl | he
    · exact hlt
    · exact hfirst e he

section Change

variable {f : Origin → Entries → Option Entries}

theorem exists_put_of_change {rest : List String} (h : change made f origin es (key :: rest) = some next) :
    ∃ node, next = put key node es := by
  have hput {found : Option Node} (h : (found >>= fun node => pure (put key node es)) = some next) :
      ∃ node, next = put key node es := by
    obtain ⟨node, -, hput⟩ := Option.bind_eq_some_iff.mp h
    cases hput
    exact ⟨node, rfl⟩
  rw [change] at h
  split at h
  case h_5 => split at h <;> exact hput h
  all_goals exact hput h

def Keeps (f : Origin → Entries → Option Entries) : Prop :=
  ∀ origin es next, Ascending es → f origin es = some next → Ascending next

theorem keeps_change (hf : Keeps f) (path : List String) :
    Keeps fun origin es => change made f origin es path := by
  intro origin es next hes h
  cases path with
  | nil => exact hf origin es next hes h
  | cons key rest =>
    obtain ⟨node, rfl⟩ := exists_put_of_change h
    exact ascending_put hes

end Change

theorem keeps_addValue (path : List String) (key : String) (v : Value) :
    Keeps fun origin es => addValue path key v origin es := by
  refine keeps_change (fun origin es next hes h => ?_) path
  split at h
  · cases h
  · cases h
    exact ascending_put hes

theorem keeps_stateTable (key : String) : Keeps fun _ es => stateTable key es := by
  intro origin es next hes h
  simp only [stateTable] at h
  split at h
  · cases h; exact ascending_put hes
  · cases h; exact ascending_put hes
  · cases h

theorem keeps_addTable (key : String) : Keeps fun _ es => addTable key es := by
  intro origin es next hes h
  simp only [addTable] at h
  split at h
  · cases h; exact ascending_put hes
  · cases h; exact ascending_put hes
  · cases h

theorem keeps_addEntry (path : List String) (v : Value) : Keeps fun origin es => addEntry origin es path v := by
  intro origin es next hes h
  obtain ⟨key, -, hadd⟩ := Option.bind_eq_some_iff.mp h
  exact keeps_addValue path.dropLast key v origin es next hes hadd

end Entries

open Entries

namespace Draft

variable {d next : Draft}

theorem ascending_follow {s : Statement} (hd : Ascending d.entries) (h : d.follow s = some next) :
    Ascending next.entries := by
  cases s with
  | table path =>
    obtain ⟨key, -, h⟩ := Option.bind_eq_some_iff.mp h
    obtain ⟨es, hes, h⟩ := Option.bind_eq_some_iff.mp h
    cases h
    exact keeps_change (keeps_stateTable key) path.dropLast .stated _ _ hd hes
  | element path =>
    obtain ⟨key, -, h⟩ := Option.bind_eq_some_iff.mp h
    obtain ⟨es, hes, h⟩ := Option.bind_eq_some_iff.mp h
    cases h
    exact keeps_change (keeps_addTable key) path.dropLast .stated _ _ hd hes
  | entry path v =>
    obtain ⟨es, hes, h⟩ := Option.bind_eq_some_iff.mp h
    cases h
    exact keeps_change (keeps_addEntry path v) d.header .stated _ _ hd hes

theorem ascending_foldlM {parts : List Statement} (hd : Ascending d.entries)
    (h : parts.foldlM follow d = some next) : Ascending next.entries := by
  induction parts generalizing d with
  | nil => cases h; exact hd
  | cons s parts ih =>
    rw [List.foldlM_cons] at h
    obtain ⟨d', hs, h⟩ := Option.bind_eq_some_iff.mp h
    exact ih (ascending_follow hd hs) h

end Draft

theorem entryValues_eq_map (es : Entries) : entryValues es = es.map fun e => (e.1, e.2.toValue) := by
  induction es with
  | nil => rfl
  | cons e es ih =>
    rw [entryValues, ih]
    rfl

theorem ascending_entryValues {es : Entries} (h : Ascending es) : Ascending (entryValues es) := by
  rw [entryValues_eq_map]
  exact List.pairwise_map.mpr h

/-- A document has each of its keys once, in ascending order. -/
theorem ascending_of_ofText? {text : String} {entries : List (String × Value)} (h : ofText? text = some entries) :
    Ascending entries := by
  obtain ⟨parts, -, h⟩ := Option.bind_eq_some_iff.mp h
  obtain ⟨d, hd, h⟩ := Option.bind_eq_some_iff.mp h
  cases h
  exact ascending_entryValues (Draft.ascending_foldlM (d := ⟨[], []⟩) .nil hd)

end Exclusion.Document
