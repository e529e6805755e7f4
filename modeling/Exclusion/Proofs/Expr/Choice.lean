import Exclusion.Expr.Matcher
import Exclusion.Outcome
import Exclusion.Proofs.Expr.Denotation
import Mathlib.Tactic.Choose

/-! # Choices between texts

Texts that are joined by bars match wherever one of them does. So an expression made of quoted texts finds the
strings that contain one of them.
-/

namespace Exclusion.Expr

theorem reads_alts {es : List Expr} (hne : es ≠ []) {w : List Nat} :
    (alts es).Reads w ↔ ∃ e ∈ es, e.Reads w := by
  induction es with
  | nil => exact absurd rfl hne
  | cons e es ih =>
    cases es with
    | nil => simp [alts]
    | cons f es =>
      have hrest := ih (List.cons_ne_nil f es)
      simp only [alts, Reads, hrest, List.mem_cons, exists_eq_or_imp]

theorem lookFree_alts {es : List Expr} (h : ∀ e ∈ es, e.LookFree) : (alts es).LookFree := by
  induction es with
  | nil => trivial
  | cons e es ih =>
    cases es with
    | nil => exact h e List.mem_cons_self
    | cons f es => exact ⟨h e List.mem_cons_self, ih fun g hg => h g (List.mem_cons_of_mem _ hg)⟩

/-- Without looks, an expression is found in the texts that contain one it reads. -/
theorem found_iff_contains {e : Expr} (he : e.LookFree) {text : List Nat} :
    e.found text = true ↔ ∃ u, u <:+: text ∧ e.Reads u := by
  rw [found_iff]
  constructor
  · rintro ⟨i, j, hi, hs⟩
    obtain ⟨u, v, hd, -, hu⟩ := (spans_iff he hi).mp hs
    exact ⟨u, ⟨text.take i, v, by rw [List.append_assoc, ← hd, List.take_append_drop]⟩, hu⟩
  · rintro ⟨u, ⟨a, b, rfl⟩, hu⟩
    have hlen : a.length ≤ (a ++ u ++ b).length := by simp
    refine ⟨a.length, a.length + u.length, hlen, (spans_iff he hlen).mpr ⟨u, b, ?_, rfl, hu⟩⟩
    rw [List.append_assoc, List.drop_left]

theorem isInfix_map {α β : Type} {f : α → β} {l : List α} {u : List β} :
    u <:+: l.map f ↔ ∃ v, v <:+: l ∧ u = v.map f := by
  constructor
  · rintro ⟨a, b, h⟩
    obtain ⟨front, back, rfl, hfront, -⟩ := List.map_eq_append_iff.mp h.symm
    obtain ⟨a', v, rfl, -, rfl⟩ := List.map_eq_append_iff.mp hfront
    exact ⟨v, ⟨a', back, rfl⟩, rfl⟩
  · rintro ⟨v, hv, rfl⟩
    exact hv.map f

theorem Item.choice_expr (branches : List Item) :
    (choice branches.reverse).expr = alts (branches.map (·.expr)) := by
  unfold choice join
  rw [List.reverse_reverse]
  match branches with
  | [] => rfl
  | [_] => rfl
  | _ :: _ :: _ => rfl

variable {ι : Type} {l : List ι} {text : ι → List Char}

theorem run_bars {items : ι → List Item} (h : ∀ i ∈ l, Spells (text i) (items i)) (hne : l ≠ [])
    (branches : List Item) :
    run ⟨[], branches, .initial, [], []⟩ (['|'].intercalate (l.map text)) =
      .ok (.choice ((l.map fun i => .sequence (items i).reverse).reverse ++ branches)) := by
  induction l generalizing branches with
  | nil => exact absurd rfl hne
  | cons i l ih =>
    obtain ⟨hi, hrest⟩ := List.forall_mem_cons.mp h
    cases l with
    | nil =>
      have hr := hi.2 ⟨[], branches, .initial, [], []⟩ [] rfl (by simp)
      rw [List.append_nil, run_end rfl] at hr
      simpa [State.finish, State.pushAll, State.total] using hr
    | cons j l =>
      let st : State := ⟨[], branches, .initial, [], []⟩
      let next : State := ⟨[], .sequence (items i).reverse :: branches, .initial, [], []⟩
      have hnext : (st.pushAll (items i)).bar = next := by simp [st, next, State.pushAll, State.bar]
      have hbar : step (st.pushAll (items i)) '|' (['|'].intercalate ((j :: l).map text)) =
          .ok ((st.pushAll (items i)).bar, ['|'].intercalate ((j :: l).map text)) := rfl
      rw [hnext] at hbar
      calc run st (['|'].intercalate ((i :: j :: l).map text))
          = run st (text i ++ '|' :: ['|'].intercalate ((j :: l).map text)) := by simp
        _ = run (st.pushAll (items i)) ('|' :: ['|'].intercalate ((j :: l).map text)) :=
          hi.2 st _ rfl (by simp)
        _ = run next (['|'].intercalate ((j :: l).map text)) := run_step rfl hbar
        _ = .ok (.choice (((i :: j :: l).map fun i => .sequence (items i).reverse).reverse ++ branches)) := by
          rw [ih hrest (List.cons_ne_nil j l)]; simp

theorem read_bars {d : Nat} {L : ι → List Char → Prop} (hne : l ≠ []) (h : ∀ i ∈ l, Denotes d (text i) (L i)) :
    ∃ item, read (['|'].intercalate (l.map text)) = .ok item ∧ item.depth ≤ d + 2 ∧
      ∀ s : String, item.expr.matchesText s = true ↔ ∃ i ∈ l, ∃ u, u <:+: s.toList ∧ L i u := by
  simp only [Denotes] at h
  choose! items hs hi hr using h
  have hread := run_bars hs hne []
  rw [List.append_nil] at hread
  have hexpr : (Item.choice (l.map fun i => Item.sequence (items i).reverse).reverse).expr =
      alts (l.map fun i => seqs ((items i).map (·.expr))) := by
    rw [Item.choice_expr, List.map_map]
    exact congrArg alts (List.map_congr_left fun i _ => Item.sequence_expr (items i))
  refine ⟨_, hread, Item.join_depth fun item hm => ?_, fun s => ?_⟩
  · obtain ⟨i, hil, rfl⟩ := List.mem_map.mp hm
    exact Item.sequence_depth fun item hitem => (hi i hil item hitem).1
  rw [hexpr, matchesText, found_iff_contains ?_, units]
  · constructor
    · rintro ⟨v, hv, halts⟩
      obtain ⟨u, hu, rfl⟩ := isInfix_map.mp hv
      obtain ⟨_, he, hreads⟩ := (reads_alts (by simpa using hne)).mp halts
      obtain ⟨i, hm, rfl⟩ := List.mem_map.mp he
      exact ⟨i, hm, u, hu, (hr i hm u).mp (reads_seqs.mp hreads)⟩
    · rintro ⟨i, hm, u, hu, hL⟩
      refine ⟨_, isInfix_map.mpr ⟨u, hu, rfl⟩, (reads_alts (by simpa using hne)).mpr ?_⟩
      exact ⟨_, List.mem_map_of_mem hm, reads_seqs.mpr ((hr i hm u).mpr hL)⟩
  · refine lookFree_alts fun e he => ?_
    obtain ⟨i, hm, rfl⟩ := List.mem_map.mp he
    refine lookFree_seqs fun e he => ?_
    obtain ⟨item, hitem, rfl⟩ := List.mem_map.mp he
    exact (hi i hm item hitem).2

end Exclusion.Expr

namespace Exclusion.ExprMatcher

theorem compileOne_eq_ok {pattern : String} {e : Expr} :
    compileOne pattern = .ok e ↔ Expr.compile pattern.toList = .ok e := by
  unfold compileOne
  cases Expr.compile pattern.toList <;> simp

/-- Literal texts are read to an expression that matches the paths in which one of them occurs. -/
theorem parse_joinLiterals {texts : List String} (hne : texts ≠ []) :
    ∃ e, Expr.parse (joinLiterals texts).toList = .ok e ∧
      ∀ path : String, e.matchesText path = true ↔ ∃ t ∈ texts, t.toList <:+: path.toList := by
  obtain ⟨item, hread, hdepth, hmatch⟩ := Expr.read_bars (d := 0) (L := fun t u => u = t.toList) hne
    fun t _ => .quote t.toList
  have hmax : ¬ Expr.maxDepth < item.depth := Nat.not_lt.mpr (Nat.le_trans hdepth (by decide))
  refine ⟨item.expr, ?_, fun path => by simp only [hmatch, exists_eq_right]⟩
  rw [joinLiterals, String.toList_ofList, Expr.parse, hread]
  exact if_neg hmax

theorem compileOne_of_parse {pattern : String} {e : Expr} (h : Expr.parse pattern.toList = .ok e) :
    compileOne pattern = if Expr.maxWeight < e.weight then .error (.compile .regex pattern (.expr .tooLarge))
      else .ok e := by
  rw [compileOne, Expr.compile, h]
  by_cases hw : Expr.maxWeight < e.weight
  · simp [bind, Except.bind, hw]
  · simp [bind, Except.bind, hw, pure, Except.pure]

theorem matchesText_of_joinLiterals {texts : List String} {e : Expr} (hne : texts ≠ [])
    (h : compileOne (joinLiterals texts) = .ok e) (path : String) :
    e.matchesText path = true ↔ ∃ t ∈ texts, t.toList <:+: path.toList := by
  obtain ⟨e', he', hmatch⟩ := parse_joinLiterals hne
  rw [compileOne_of_parse he'] at h
  split at h <;> cases h
  exact hmatch path

end Exclusion.ExprMatcher
