import Exclusion.Configuration
import Exclusion.Proofs.Document.Ascending
import Exclusion.Proofs.Evaluation.Building

/-! # Unknown keys at the top of a configuration

A record refuses every key that is none of its fields, and says of all else that it refuses under which field it
lies. At the top of a configuration other keys are taken out first. Each of them is reported, in ascending order,
and none has a part in what the configuration comes to.
-/

namespace Exclusion

open Document

namespace Document.Decoder

variable {σ : Type} {fields : List (Field σ)} {s s' : σ} {key : String} {v : Value} {m : Mismatch}
  {entries : List (String × Value)}

/-- The mismatch lies under one of the fields. -/
def LiesUnder (names : List String) (m : Mismatch) : Prop := ∃ key ∈ names, m.path.head? = some key

theorem mem_of_setField_ok (h : setField fields s key v = .ok s') : key ∈ fields.map (·.name) := by
  unfold setField at h
  split at h
  · rename_i f hf
    have hname := List.find?_some hf
    exact List.mem_map.mpr ⟨f, List.mem_of_find?_eq_some hf, beq_iff_eq.mp hname⟩
  · cases h

theorem liesUnder_of_setField_error (hkey : key ∈ fields.map (·.name)) (h : setField fields s key v = .error m) :
    LiesUnder (fields.map (·.name)) m := by
  unfold setField at h
  split at h
  · rename_i f _
    cases hset : f.set s v with
    | ok s' => rw [hset] at h; cases h
    | error m' =>
      rw [hset] at h
      cases h
      exact ⟨key, hkey, rfl⟩
  · rename_i hnone
    obtain ⟨f, hf, rfl⟩ := List.mem_map.mp hkey
    exact absurd (List.find?_eq_none.mp hnone f hf) (by simp)

theorem mem_of_foldlM_ok (h : entries.foldlM (fun s (key, v) => setField fields s key v) s = .ok s') :
    ∀ e ∈ entries, e.1 ∈ fields.map (·.name) := by
  induction entries generalizing s with
  | nil => exact nofun
  | cons e entries ih =>
    rw [List.foldlM_cons] at h
    obtain ⟨next, he, h⟩ := bind_eq_ok.mp h
    exact List.forall_mem_cons.mpr ⟨mem_of_setField_ok he, ih h⟩

theorem liesUnder_of_foldlM_error (hkeys : ∀ e ∈ entries, e.1 ∈ fields.map (·.name))
    (h : entries.foldlM (fun s (key, v) => setField fields s key v) s = .error m) :
    LiesUnder (fields.map (·.name)) m := by
  induction entries generalizing s with
  | nil => cases h
  | cons e entries ih =>
    obtain ⟨he, hrest⟩ := List.forall_mem_cons.mp hkeys
    rw [List.foldlM_cons] at h
    rcases bind_eq_error.mp h with h | ⟨next, -, h⟩
    · exact liesUnder_of_setField_error he h
    · exact ih hrest h

end Document.Decoder

open Document.Decoder

namespace FilterOptions

variable {text text' path : String} {entries entries' : List (String × Value)}

theorem names_eq_knownKeys : fields.map (·.name) = knownKeys := rfl

def unknownKeys (entries : List (String × Value)) : List String :=
  (entries.filter fun e => e.1 ∉ knownKeys).map (·.1)

theorem mem_unknownKeys {key : String} :
    key ∈ unknownKeys entries ↔ key ∉ knownKeys ∧ (entries.lookup key).isSome := by
  rw [unknownKeys, List.mem_map, List.lookup_isSome_iff]
  constructor
  · rintro ⟨e, he, rfl⟩
    obtain ⟨hmem, hkey⟩ := List.mem_filter.mp he
    exact ⟨of_decide_eq_true hkey, e, hmem, beq_self_eq_true e.1⟩
  · rintro ⟨hkey, e, hmem, heq⟩
    obtain rfl := beq_iff_eq.mp heq
    exact ⟨e, List.mem_filter.mpr ⟨hmem, decide_eq_true hkey⟩, rfl⟩

def unrecognized (path key : String) : Event :=
  ⟨.warn, path ++ ": unrecognized field `" ++ key ++ "`, ignoring", []⟩

/-- What the entries come to, read without those that are reported. -/
def ofKnown (path : String) (entries : List (String × Value)) : Except Failure FilterOptions :=
  (decode (.table (entries.filter fun e => e.1 ∈ knownKeys))).mapError fun m => .config (some path) (.mismatch m)

theorem run_warnUnknown (path key : String) (log : Log) :
    (warnUnknown path key).run log = (.ok (), log ++ [unrecognized path key]) := rfl

theorem run_warnings (path : String) (entries : List (String × Value)) (log : Log) :
    (entries.forM fun e => warnUnknown path e.1).run log = (.ok (), log ++ entries.map (unrecognized path ·.1)) := by
  induction entries generalizing log with
  | nil => rw [List.map_nil, List.append_nil]; rfl
  | cons e entries ih =>
    rw [List.forM, Build.run_bind_ok (run_warnUnknown path e.1 log), ih, List.append_assoc]
    rfl

/-- Unknown keys are reported before the others are read. -/
theorem run_ofEntries (path : String) (entries : List (String × Value)) (log : Log) :
    (ofEntries path entries).run log =
      (ofKnown path entries, log ++ (unknownKeys entries).map (unrecognized path)) := by
  have hsplit : entries.partition (fun e => e.1 ∈ knownKeys) =
      (entries.filter fun e => e.1 ∈ knownKeys, entries.filter fun e => e.1 ∉ knownKeys) := by
    simp [List.partition_eq_filter_filter, Function.comp_def]
  rw [ofEntries, hsplit]
  dsimp only
  rw [Build.run_bind_ok (run_warnings path _ log), ofKnown, unknownKeys, List.map_map]
  cases decode (.table (entries.filter fun e => e.1 ∈ knownKeys)) <;> rfl

theorem run_ofText (h : Document.ofText? text = some entries) (path : String) (log : Log) :
    (ofText path text).run log = (ofKnown path entries, log ++ (unknownKeys entries).map (unrecognized path)) := by
  delta ofText
  rw [h]
  exact run_ofEntries path entries log

/-- Whatever does not match lies under a known key, so no field is unknown at the top. -/
theorem liesUnder_of_ofKnown_error {e : Failure} (h : ofKnown path entries = .error e) :
    ∃ m, e = .config (some path) (.mismatch m) ∧ LiesUnder knownKeys m := by
  unfold ofKnown at h
  cases hdecode : decode (.table (entries.filter fun e => e.1 ∈ knownKeys)) with
  | ok o => rw [hdecode] at h; cases h
  | error m =>
    rw [hdecode] at h
    cases h
    have hkeys : ∀ e ∈ entries.filter (fun e => e.1 ∈ knownKeys), e.1 ∈ fields.map (·.name) :=
      fun e he => names_eq_knownKeys ▸ of_decide_eq_true (List.mem_filter.mp he).2
    exact ⟨m, rfl, names_eq_knownKeys ▸ liesUnder_of_foldlM_error hkeys hdecode⟩

/-- Of the entries at the top only those under known keys count. The others are reported, each once and in
ascending order, whatever the configuration comes to. What does not match lies under a known key, although no
configuration with another key would match as it stands. -/
theorem ofText_unknown_keys (h : Document.ofText? text = some entries) (h' : Document.ofText? text' = some entries')
    (agree : ∀ key ∈ knownKeys, entries.lookup key = entries'.lookup key) (path : String) (log log' : Log) :
    ((ofText path text).run log).1 = ((ofText path text').run log').1 ∧
    ((ofText path text).run log).2 = log ++ (unknownKeys entries).map (unrecognized path) ∧
    (unknownKeys entries).Pairwise (· < ·) ∧
    (∀ key, key ∈ unknownKeys entries ↔ key ∉ knownKeys ∧ (entries.lookup key).isSome) ∧
    (∀ e, ((ofText path text).run log).1 = .error e →
      ∃ m, e = .config (some path) (.mismatch m) ∧ LiesUnder knownKeys m) ∧
    ∀ o, decode (.table entries) = .ok o → unknownKeys entries = [] := by
  have hknown : ofKnown path entries = ofKnown path entries' := by
    rw [ofKnown, ofKnown, (ascending_of_ofText? h).filter_eq (ascending_of_ofText? h') agree]
  rw [run_ofText h, run_ofText h']
  refine ⟨hknown, rfl, ((ascending_of_ofText? h).filter _).keys, fun _ => mem_unknownKeys,
    fun e he => liesUnder_of_ofKnown_error he, fun o ho => ?_⟩
  have hall : ∀ e ∈ entries, e.1 ∈ knownKeys := names_eq_knownKeys ▸ mem_of_foldlM_ok ho
  rw [unknownKeys, List.filter_eq_nil_iff.mpr fun e he => by simpa using hall e he, List.map_nil]

/-- Two configurations with the same faulty setting, each with two keys that mean nothing. -/
theorem ofText_unknown_keys_of_faulty :
    Document.ofText? "zoo = 1\ntimeout = 3\nant = [2]\n" =
      some [("ant", .array [.integer 2]), ("timeout", .integer 3), ("zoo", .integer 1)] ∧
    Document.ofText? "timeout = 3\n[Regex]\nliteral = 4\n[\"\"]" =
      some [("", .table []), ("Regex", .table [("literal", .integer 4)]), ("timeout", .integer 3)] ∧
    ((ofText "c" "zoo = 1\ntimeout = 3\nant = [2]\n").run []).1 =
      ((ofText "c" "timeout = 3\n[Regex]\nliteral = 4\n[\"\"]").run []).1 ∧
    ((ofText "c" "zoo = 1\ntimeout = 3\nant = [2]\n").run []).2 =
      [⟨.warn, "c: unrecognized field `ant`, ignoring", []⟩, ⟨.warn, "c: unrecognized field `zoo`, ignoring", []⟩] ∧
    ((ofText "c" "timeout = 3\n[Regex]\nliteral = 4\n[\"\"]").run []).2 =
      [⟨.warn, "c: unrecognized field ``, ignoring", []⟩, ⟨.warn, "c: unrecognized field `Regex`, ignoring", []⟩] := by
  have h : Document.ofText? "zoo = 1\ntimeout = 3\nant = [2]\n" =
      some [("ant", .array [.integer 2]), ("timeout", .integer 3), ("zoo", .integer 1)] := by
    decide +kernel
  have h' : Document.ofText? "timeout = 3\n[Regex]\nliteral = 4\n[\"\"]" =
      some [("", .table []), ("Regex", .table [("literal", .integer 4)]), ("timeout", .integer 3)] := by
    decide +kernel
  have agree : ∀ key ∈ knownKeys,
      List.lookup key [("ant", Value.array [.integer 2]), ("timeout", .integer 3), ("zoo", .integer 1)] =
      List.lookup key [("", .table []), ("Regex", .table [("literal", .integer 4)]), ("timeout", .integer 3)] := by
    decide +kernel
  obtain ⟨houtcome, hlog, -⟩ := ofText_unknown_keys h h' agree "c" [] []
  obtain ⟨-, hlog', -⟩ := ofText_unknown_keys h' h (fun key hkey => (agree key hkey).symm) "c" [] []
  exact ⟨h, h', houtcome, hlog, hlog'⟩

end FilterOptions

end Exclusion
