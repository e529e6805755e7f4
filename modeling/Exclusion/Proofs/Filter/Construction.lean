import Exclusion.Proofs.Filter.Compilation
import Mathlib.Data.List.Nodup

/-! # Building a filter from options

A filter is built exactly if its order is valid and leaves out no configured dialect, some dialect is
configured, and each section compiles on its own. Its matchers then stand in the order. Otherwise the first
of these to fail says why.
-/

namespace Exclusion

/-- Known dialects, each of them once. -/
structure ValidOrder (ds : List Dialect) : Prop where
  known : .unknown ∉ ds
  nodup : ds.Nodup

namespace FilterOptions

inductive Offence (before : List Dialect) : Dialect → Failure → Prop
  | unknown : Offence before .unknown (.config none .unknownInOrder)
  | repeated {d : Dialect} (hd : d ≠ .unknown) (h : d ∈ before) :
    Offence before d (.config none (.repeatedInOrder d))

def wanted (o : FilterOptions) : List Dialect := o.order.getD [.regex, .glob, .gitignore]

def configured (o : FilterOptions) : Dialect → Bool
  | .regex => o.regex.isSome
  | .glob => o.glob.isSome
  | .gitignore => o.gitignore.isSome
  | .unknown => false

/-- What the section of a dialect comes to on its own, with its own strategy or that of all sections. -/
inductive SectionYields (files : Files) (o : FilterOptions) : Dialect → Except Failure Matcher → Prop
  | regex {s : RegexOptions} {x : Except Failure ExprMatcher} (hs : o.regex = some s)
    (h : (ExprMatcher.compile { s with concurrent := s.concurrent || o.concurrent }).Settles x) :
    SectionYields files o .regex (x.map .regex)
  | glob {s : GlobOptions} {x : Except Failure GlobMatcher} (hs : o.glob = some s)
    (h : (GlobMatcher.compile { s with concurrent := s.concurrent || o.concurrent }).Settles x) :
    SectionYields files o .glob (x.map .glob)
  | gitignore {s : GitIgnoreOptions} {x : Except Failure RuleMatcher} (hs : o.gitignore = some s)
    (h : (RuleMatcher.compile files { s with concurrent := s.concurrent || o.concurrent }).Settles x) :
    SectionYields files o .gitignore (x.map .gitignore)

/-- All that a filter needs. -/
structure Buildable (files : Files) (o : FilterOptions) : Prop where
  valid : ValidOrder o.wanted
  placed : ∀ d, o.configured d → d ∈ o.wanted
  filled : ∃ d, o.configured d
  compiles : ∀ d, o.configured d → ∃ m, o.SectionYields files d (.ok m)

def leftOut (o : FilterOptions) : List Dialect :=
  [.regex, .glob, .gitignore].filter fun d => o.configured d && d ∉ o.wanted

/-- Why no filter is built: each reason counts only if none of those before it does. -/
inductive FailsWith (files : Files) (o : FilterOptions) : Failure → Prop
  | order {before after : List Dialect} {d : Dialect} {x : Failure} (ho : o.wanted = before ++ d :: after)
    (hbefore : ValidOrder before) (h : Offence before d x) : FailsWith files o x
  | leftOut (valid : ValidOrder o.wanted) (h : o.leftOut ≠ []) :
    FailsWith files o (.config none (.missingFromOrder o.leftOut))
  | compiling {before after : List Dialect} {d : Dialect} {x : Failure} (valid : ValidOrder o.wanted)
    (placed : ∀ d, o.configured d → d ∈ o.wanted) (ho : o.wanted = before ++ d :: after)
    (hbefore : ∀ e ∈ before, o.configured e → ∃ m, o.SectionYields files e (.ok m))
    (h : o.SectionYields files d (.error x)) (hx : x.isCancelled = false) : FailsWith files o x
  | empty (valid : ValidOrder o.wanted) (h : ∀ d, o.configured d = false) :
    FailsWith files o (.config none .noMatchers)

/-- The filter has one matcher for each configured dialect, in the order, and the time that is asked for. -/
structure Describes (files : Files) (o : FilterOptions) (f : Filter) : Prop where
  dialects : f.dialects = o.wanted.filter o.configured
  nodup : f.dialects.Nodup
  matchers : List.Forall₂ (fun d m => o.SectionYields files d (.ok m)) (o.wanted.filter o.configured) f.matchers
  timeout : f.timeout = o.timeout.getD (.ofSeconds 3600)

section Order

variable {seen ds before after : List Dialect} {d : Dialect} {x : Failure}

theorem validateOrder_cases (h : ValidOrder seen.reverse) (ds : List Dialect) :
    (ValidOrder (seen.reverse ++ ds) ∧ validateOrder seen ds = .ok (seen.reverse ++ ds)) ∨
      ∃ before d after x, seen.reverse ++ ds = before ++ d :: after ∧ ValidOrder before ∧
        Offence before d x ∧ validateOrder seen ds = .error x := by
  fun_induction validateOrder seen ds with
  | case1 seen => exact .inl (by simpa using h)
  | case2 seen rest => exact .inr ⟨_, _, rest, _, rfl, h, .unknown, rfl⟩
  | case3 seen d rest hd hmem =>
    exact .inr ⟨_, d, rest, _, rfl, h, .repeated hd (List.mem_reverse.mpr hmem), rfl⟩
  | case4 seen d rest hd hmem ih =>
    have hnext : ValidOrder (d :: seen).reverse := by
      refine ⟨by simpa [Ne.symm hd] using h.known, ?_⟩
      exact List.nodup_reverse.mpr (List.nodup_cons.mpr ⟨hmem, List.nodup_reverse.mp h.nodup⟩)
    simpa using ih hnext

theorem Offence.not_valid (h : Offence before d x) : ¬ ValidOrder (before ++ d :: after) := by
  intro hv
  cases h with
  | unknown => exact hv.known (by simp)
  | repeated hd hmem =>
    exact List.disjoint_of_nodup_append hv.nodup hmem List.mem_cons_self

theorem effectiveOrder_cases (o : FilterOptions) :
    (ValidOrder o.wanted ∧ o.effectiveOrder = .ok o.wanted) ∨
      ∃ before d after x, o.wanted = before ++ d :: after ∧ ValidOrder before ∧ Offence before d x ∧
        o.effectiveOrder = .error x := by
  unfold wanted effectiveOrder
  cases o.order with
  | none => exact .inl ⟨⟨by decide, by decide⟩, rfl⟩
  | some order => exact validateOrder_cases (show ValidOrder [].reverse from ⟨List.not_mem_nil, List.nodup_nil⟩) order

end Order

section Sections

variable {files : Files} {o : FilterOptions} {d : Dialect} {p : Pending}

theorem isSome_section? (o : FilterOptions) (d : Dialect) : (o.section? d).isSome = o.configured d := by
  cases d with
  | unknown => rfl
  | gitignore => exact Option.isSome_map
  | glob => exact Option.isSome_map
  | regex => exact Option.isSome_map

theorem unordered_eq (o : FilterOptions) : o.unordered o.wanted = o.leftOut := by
  simp only [unordered, leftOut, defaultOrder, isSome_section?]

theorem leftOut_eq_nil : o.leftOut = [] ↔ ∀ d, o.configured d → d ∈ o.wanted := by
  simp only [leftOut, List.filter_eq_nil_iff, Bool.and_eq_true, decide_eq_true_eq, not_and, not_not]
  constructor
  · intro h d hd
    cases d with
    | unknown => cases hd
    | gitignore => exact h _ (by decide) hd
    | glob => exact h _ (by decide) hd
    | regex => exact h _ (by decide) hd
  · exact fun h d _ => h d

theorem SectionYields.unique {x y : Except Failure Matcher} (h : SectionYields files o d x)
    (h' : SectionYields files o d y) : x = y := by
  cases h with
  | regex hs h =>
    cases h' with
    | regex hs' h' =>
      cases hs.symm.trans hs'
      rw [h.unique h']
  | glob hs h =>
    cases h' with
    | glob hs' h' =>
      cases hs.symm.trans hs'
      rw [h.unique h']
  | gitignore hs h =>
    cases h' with
    | gitignore hs' h' =>
      cases hs.symm.trans hs'
      rw [h.unique h']

theorem SectionYields.configured {x : Except Failure Matcher} (h : SectionYields files o d x) :
    o.configured d = true := by
  cases h with
  | regex hs _ => rw [FilterOptions.configured, hs]; rfl
  | glob hs _ => rw [FilterOptions.configured, hs]; rfl
  | gitignore hs _ => rw [FilterOptions.configured, hs]; rfl

theorem SectionYields.dialect {x : Except Failure Matcher} {m : Matcher} (h : SectionYields files o d x)
    (hx : x = .ok m) : m.dialect = d := by
  cases h with
  | regex _ _ => obtain ⟨m, -, rfl⟩ := map_eq_ok.mp hx; rfl
  | glob _ _ => obtain ⟨m, -, rfl⟩ := map_eq_ok.mp hx; rfl
  | gitignore _ _ => obtain ⟨m, -, rfl⟩ := map_eq_ok.mp hx; rfl

theorem SectionYields.not_cancelled {x : Except Failure Matcher} {f : Failure} (h : SectionYields files o d x)
    (hx : x = .error f) : f.isCancelled = false := by
  cases h with
  | regex _ h =>
    cases h.unique (ExprMatcher.compile_settles _)
    exact ExprMatcher.not_cancelled (map_eq_error.mp hx)
  | glob _ h =>
    cases h.unique (GlobMatcher.compile_settles _)
    exact GlobMatcher.not_cancelled (map_eq_error.mp hx)
  | gitignore _ h =>
    cases h.unique (RuleMatcher.compile_settles _ _)
    exact RuleMatcher.not_cancelled (map_eq_error.mp hx)

theorem sectionYields_of_section? (files : Files) (hp : o.section? d = some p) :
    ∃ x, (p.compile files).Settles x ∧ SectionYields files o d x := by
  cases d with
  | unknown => cases hp
  | gitignore =>
    obtain ⟨s, hs, rfl⟩ := Option.map_eq_some_iff.mp hp
    have h := RuleMatcher.compile_settles files { s with concurrent := s.concurrent || o.concurrent }
    exact ⟨_, h.map, .gitignore hs h⟩
  | glob =>
    obtain ⟨s, hs, rfl⟩ := Option.map_eq_some_iff.mp hp
    have h := GlobMatcher.compile_settles { s with concurrent := s.concurrent || o.concurrent }
    exact ⟨_, h.map, .glob hs h⟩
  | regex =>
    obtain ⟨s, hs, rfl⟩ := Option.map_eq_some_iff.mp hp
    have h := ExprMatcher.compile_settles { s with concurrent := s.concurrent || o.concurrent }
    exact ⟨_, h.map, .regex hs h⟩

/-- The first section to fail, with those before it in order. -/
def FailsAt (files : Files) (o : FilterOptions) (ds : List Dialect) (x : Failure) : Prop :=
  ∃ before d after, ds = before ++ d :: after ∧
    (∀ e ∈ before, o.configured e → ∃ m, o.SectionYields files e (.ok m)) ∧ o.SectionYields files d (.error x)

theorem FailsAt.cons {ds : List Dialect} {x : Failure} (h : FailsAt files o ds x)
    (hd : o.configured d → ∃ m, o.SectionYields files d (.ok m)) : FailsAt files o (d :: ds) x := by
  obtain ⟨before, e, after, rfl, hbefore, he⟩ := h
  exact ⟨d :: before, e, after, rfl, List.forall_mem_cons.mpr ⟨hd, hbefore⟩, he⟩

/-- The sections of some dialects compile in turn, and the first to fail ends it. -/
theorem sections_settle (files : Files) (o : FilterOptions) (ds : List Dialect) :
    (∃ ms, List.Forall₂ (fun d m => o.SectionYields files d (.ok m)) (ds.filter o.configured) ms ∧
        ((ds.filterMap o.section?).mapM (Pending.compile files)).Settles (.ok ms)) ∨
      ∃ x, FailsAt files o ds x ∧ ((ds.filterMap o.section?).mapM (Pending.compile files)).Settles (.error x) := by
  induction ds with
  | nil => exact .inl ⟨[], .nil, Build.settles_pure []⟩
  | cons d ds ih =>
    cases hp : o.section? d with
    | none =>
      have hd : o.configured d = false := by rw [← isSome_section?, hp]; rfl
      rw [List.filterMap_cons_none hp, List.filter_cons_of_neg (by simp [hd])]
      refine ih.imp_right fun ⟨x, hx, hs⟩ => ⟨x, hx.cons fun h => ?_, hs⟩
      rw [hd] at h; cases h
    | some p =>
      have hd : o.configured d = true := by rw [← isSome_section?, hp]; rfl
      obtain ⟨y, hy, hyield⟩ := sectionYields_of_section? files hp
      rw [List.filterMap_cons_some hp, List.filter_cons_of_pos hd, List.mapM_cons]
      cases y with
      | error x => exact .inr ⟨x, ⟨[], d, ds, rfl, nofun, hyield⟩, hy.bind_error⟩
      | ok m =>
        rcases ih with ⟨ms, hms, hs⟩ | ⟨x, hx, hs⟩
        · exact .inl ⟨m :: ms, .cons hyield hms, hy.bind_ok (hs.bind_ok (Build.settles_pure _))⟩
        · exact .inr ⟨x, hx.cons fun _ => ⟨m, hyield⟩, hy.bind_ok hs.bind_error⟩

theorem dialects_of_sections {ds : List Dialect} {ms : List Matcher}
    (h : List.Forall₂ (fun d m => o.SectionYields files d (.ok m)) ds ms) : ms.map Matcher.dialect = ds := by
  induction h with
  | nil => rfl
  | cons hd _ ih => rw [List.map_cons, hd.dialect rfl, ih]

theorem compiles_of_sections {ds : List Dialect} {ms : List Matcher}
    (h : List.Forall₂ (fun d m => o.SectionYields files d (.ok m)) ds ms) :
    ∀ d ∈ ds, ∃ m, o.SectionYields files d (.ok m) := by
  induction h with
  | nil => nofun
  | cons hd _ ih => exact List.forall_mem_cons.mpr ⟨⟨_, hd⟩, ih⟩

theorem FailsWith.not_buildable {x : Failure} (h : o.FailsWith files x) : ¬ o.Buildable files := by
  intro hb
  cases h with
  | order ho _ hx => exact hx.not_valid (ho ▸ hb.valid)
  | leftOut _ hne => exact hne (leftOut_eq_nil.mpr hb.placed)
  | compiling _ _ _ _ hx _ =>
    obtain ⟨m, hm⟩ := hb.compiles _ hx.configured
    cases hx.unique hm
  | empty _ hnone =>
    obtain ⟨d, hd⟩ := hb.filled
    rw [hnone d] at hd; cases hd

end Sections

end FilterOptions

namespace Filter

open FilterOptions

variable {files : Files} {o : FilterOptions}

theorem settles_ofMatchers {ms : List Matcher} (hne : ms ≠ []) (timeout : Option Duration) :
    (ofMatchers ms timeout).Settles (.ok ⟨ms, timeout.getD defaultTimeout⟩) := by
  rw [ofMatchers, if_neg (mt List.isEmpty_iff.mp hne)]
  exact (Build.settles_debug _ _).bind_ok (Build.settles_pure _)

theorem ofMatchers_cases {ms : List Matcher} (hvalid : ValidOrder o.wanted)
    (hplaced : ∀ d, o.configured d → d ∈ o.wanted)
    (hms : List.Forall₂ (fun d m => o.SectionYields files d (.ok m)) (o.wanted.filter o.configured) ms) :
    (∃ f, o.Buildable files ∧ o.Describes files f ∧ (ofMatchers ms o.timeout).Settles (.ok f)) ∨
      ∃ x, o.FailsWith files x ∧ (ofMatchers ms o.timeout).Settles (.error x) := by
  have hdialects := dialects_of_sections hms
  have hnodup : (ms.map Matcher.dialect).Nodup := hdialects.symm ▸ hvalid.nodup.filter _
  have hmem {d : Dialect} (hd : o.configured d = true) : d ∈ o.wanted.filter o.configured :=
    List.mem_filter.mpr ⟨hplaced d hd, hd⟩
  by_cases hne : ms = []
  · subst hne
    refine .inr ⟨_, .empty hvalid fun d => ?_, Build.settles_throw _⟩
    exact Bool.eq_false_iff.mpr fun hd => List.not_mem_nil (hdialects ▸ hmem hd)
  · refine .inl ⟨⟨ms, o.timeout.getD defaultTimeout⟩, ?_, ?_, settles_ofMatchers hne o.timeout⟩
    · obtain ⟨m, rest, rfl⟩ := List.exists_cons_of_ne_nil hne
      have hfirst : m.dialect ∈ o.wanted.filter o.configured := hdialects ▸ List.mem_cons_self
      exact ⟨hvalid, hplaced, ⟨_, (List.mem_filter.mp hfirst).2⟩,
        fun d hd => compiles_of_sections hms d (hmem hd)⟩
    · exact ⟨hdialects, hnodup, hms, rfl⟩

theorem ofOptions_of_placed {y : Except Failure Filter} (horder : o.effectiveOrder = .ok o.wanted)
    (hleft : o.leftOut = []) (h : (ofPending files (o.wanted.filterMap o.section?) o.timeout).Settles y) :
    (ofOptions files o).Settles y := by
  unfold ofOptions
  rw [horder]
  refine (Build.settles_lift _).bind_ok ?_
  rw [if_pos (by rw [unordered_eq, hleft]; rfl)]
  exact h

theorem ofOptions_of_leftOut (horder : o.effectiveOrder = .ok o.wanted) (hleft : o.leftOut ≠ []) :
    (ofOptions files o).Settles (.error (.config none (.missingFromOrder o.leftOut))) := by
  unfold ofOptions
  rw [horder]
  refine (Build.settles_lift _).bind_ok ?_
  rw [if_neg (by simpa [unordered_eq] using hleft), unordered_eq]
  exact Build.settles_throw _

/-- Either a filter is built as the options describe it, or a failure says why not. -/
theorem ofOptions_cases (files : Files) (o : FilterOptions) :
    (∃ f, o.Buildable files ∧ o.Describes files f ∧ (ofOptions files o).Settles (.ok f)) ∨
      ∃ x, o.FailsWith files x ∧ (ofOptions files o).Settles (.error x) := by
  rcases effectiveOrder_cases o with ⟨hvalid, horder⟩ | ⟨before, d, after, x, ho, hbefore, hx, herror⟩
  · by_cases hleft : o.leftOut = []
    · have hplaced := leftOut_eq_nil.mp hleft
      rcases sections_settle files o o.wanted with ⟨ms, hms, hs⟩ | ⟨x, ⟨before, d, after, ho, hbefore, hd⟩, hs⟩
      · refine (ofMatchers_cases hvalid hplaced hms).imp ?_ ?_
        · exact fun ⟨f, hb, hd, h⟩ => ⟨f, hb, hd, ofOptions_of_placed horder hleft (hs.bind_ok h)⟩
        · exact fun ⟨x, hx, h⟩ => ⟨x, hx, ofOptions_of_placed horder hleft (hs.bind_ok h)⟩
      · exact .inr ⟨x, .compiling hvalid hplaced ho hbefore hd (hd.not_cancelled rfl),
          ofOptions_of_placed horder hleft hs.bind_error⟩
    · exact .inr ⟨_, .leftOut hvalid hleft, ofOptions_of_leftOut horder hleft⟩
  · refine .inr ⟨x, .order ho hbefore hx, ?_⟩
    unfold ofOptions
    rw [herror]
    exact (Build.settles_lift _).bind_error

/-- Building comes to one outcome: a filter, exactly if the options have all that one needs, and then as they
describe it, or else the first failure in the order of its steps. -/
theorem ofOptions_faithful (files : Files) (o : FilterOptions) :
    ∃ outcome, (ofOptions files o).Settles outcome ∧
      ((∃ f, outcome = .ok f) ↔ o.Buildable files) ∧
      (∀ f, outcome = .ok f → o.Describes files f) ∧
      ∀ x, outcome = .error x → o.FailsWith files x := by
  rcases ofOptions_cases files o with ⟨f, hb, hd, h⟩ | ⟨x, hx, h⟩
  · refine ⟨.ok f, h, ⟨fun _ => hb, fun _ => ⟨f, rfl⟩⟩, ?_, nofun⟩
    rintro _ ⟨⟩; exact hd
  · refine ⟨.error x, h, ⟨nofun, fun hb => absurd hb hx.not_buildable⟩, nofun, ?_⟩
    rintro _ ⟨⟩; exact hx

end Filter

end Exclusion
