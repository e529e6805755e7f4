import Exclusion.Expr.Compile

/-! # Texts that spell expressions

A text spells items if reading it pushes just these, whatever stands before and behind. Spellings are
closed under concatenation, repetition and grouping, so the items of a composed text are known from
those of its parts.
-/

namespace Exclusion.Expr

namespace State

def pushAll (st : State) (items : List Item) : State :=
  { st with items := items.reverse ++ st.items }

@[simp] theorem pushAll_singleton (st : State) (item : Item) : st.pushAll [item] = st.push item := rfl

theorem pushAll_append (st : State) (is js : List Item) :
    st.pushAll (is ++ js) = (st.pushAll is).pushAll js := by
  simp [pushAll]

end State

/-- Reading the text pushes the items and nothing else. Behind it no `?` may follow, which would ask for
few repetitions or make the last item optional, and for the same reason the text begins with none. -/
def Spells (text : List Char) (items : List Item) : Prop :=
  text.head? ≠ some '?' ∧ ∀ (st : State) (rest : List Char), st.flags = .initial →
    rest.head? ≠ some '?' → run st (text ++ rest) = run (st.pushAll items) rest

/-- Reading ends at the text with this fault, whatever stands before and behind. -/
def Refuses (f : Fault) (text : List Char) : Prop :=
  text.head? ≠ some '?' ∧ ∀ (st : State) (rest : List Char), st.flags = .initial →
    run st (text ++ rest) = .error f

section Step

variable {st next : State} {c : Char} {rest after : List Char}

theorem skip_initial (s : List Char) : Flags.initial.skip s = s := rfl

theorem run_step (hf : st.flags = .initial) (h : step st c rest = .ok (next, after)) :
    run st (c :: rest) = run next after := by
  rw [run]
  split
  · rename_i heq; simp [hf, skip_initial] at heq
  · rename_i d r heq
    simp only [hf, skip_initial, List.cons.injEq] at heq
    obtain ⟨rfl, rfl⟩ := heq
    split
    · rename_i he; simp [h] at he
    · rename_i he
      simp only [h, Except.ok.injEq, Prod.mk.injEq] at he
      rw [he.1, he.2]

theorem run_step_error {e : Fault} (hf : st.flags = .initial) (h : step st c rest = .error e) :
    run st (c :: rest) = .error e := by
  rw [run]
  split
  · rename_i heq; simp [hf, skip_initial] at heq
  · rename_i d r heq
    simp only [hf, skip_initial, List.cons.injEq] at heq
    obtain ⟨rfl, rfl⟩ := heq
    split
    · rename_i he; simpa [h] using he.symm
    · rename_i he; simp [h] at he

theorem run_end (hf : st.flags = .initial) : run st [] = st.finish := by
  rw [run]
  split
  · rfl
  · rename_i heq; simp [hf, skip_initial] at heq

theorem dropLazy_of_head (h : rest.head? ≠ some '?') : dropLazy rest = rest := by
  unfold dropLazy; split <;> simp_all

end Step

namespace Class

variable {st : ClassState} {c : Char} {rest after : List Char}

theorem run_readItem (ho : c ≠ '[') (hc : c ≠ ']') (hop : operator? (c :: rest) = none) :
    run .initial st (c :: rest) = (readItem .initial (c :: rest)).bind fun (a, after) =>
      run .initial { st with items := ⟨a, 0⟩ :: st.items } after := by
  rw [run]
  split
  · rename_i heq; simp [skip_initial] at heq
  · rename_i heq; simp [skip_initial, ho] at heq
  · rename_i heq; simp [skip_initial, hc] at heq
  · rename_i d r _ _ heq
    simp only [skip_initial, List.cons.injEq] at heq
    obtain ⟨rfl, rfl⟩ := heq
    split
    · rename_i he; simp [hop] at he
    · split
      · rename_i he; rw [he]; rfl
      · rename_i he; rw [he]; rfl

theorem run_item {a : Charset} (ho : c ≠ '[') (hc : c ≠ ']') (hop : operator? (c :: rest) = none)
    (h : readItem .initial (c :: rest) = .ok (a, after)) :
    run .initial st (c :: rest) = run .initial { st with items := ⟨a, 0⟩ :: st.items } after := by
  rw [run_readItem ho hc hop, h]; rfl

theorem run_operator {op : SetOperator} (ho : c ≠ '[') (hc : c ≠ ']')
    (hop : operator? (c :: rest) = some (op, after)) :
    run .initial st (c :: rest) =
      let (left, stack) := complete .initial (gather st.items) st.stack
      run .initial ⟨[], .operator op left :: stack⟩ after := by
  rw [run]
  split
  · rename_i heq; simp [skip_initial] at heq
  · rename_i heq; simp [skip_initial, ho] at heq
  · rename_i heq; simp [skip_initial, hc] at heq
  · rename_i d r _ _ heq
    simp only [skip_initial, List.cons.injEq] at heq
    obtain ⟨rfl, rfl⟩ := heq
    split
    · rename_i he
      simp only [hop, Option.some.injEq, Prod.mk.injEq] at he
      rw [he.1, he.2]
    · rename_i he; simp [hop] at he

theorem run_close {done : Nested} (h : close .initial st = .ok (.inl done)) :
    run .initial st (']' :: rest) = .ok (done, rest) := by
  rw [run]
  split
  · rename_i heq; simp [skip_initial] at heq
  · rename_i heq; simp [skip_initial] at heq
  · rename_i r heq
    simp only [skip_initial, List.cons.injEq, true_and] at heq
    rw [h, heq]; rfl
  · rename_i hne heq
    simp only [skip_initial, List.cons.injEq] at heq
    exact absurd heq.1.symm hne

theorem openClass_complement (hr : c ≠ '-') (hc : c ≠ ']') :
    openClass .initial st ('^' :: c :: rest) = (⟨[], .opened true st.items :: st.stack⟩, c :: rest) := by
  have hh : hyphens .initial (c :: rest) = ([], c :: rest) := by
    rw [hyphens]
    rintro r ⟨⟩; exact hr rfl
  unfold openClass complementSign firstMembers
  simp only [skip_initial, hh]
  split
  · simp_all
  · rfl

theorem read_notSlash (rest : List Char) :
    read .initial ('^' :: '/' :: ']' :: rest) = .ok (⟨.compl (.single '/'.toNat), 1⟩, rest) := by
  have hi : readItem .initial ('/' :: ']' :: rest) = .ok (.single '/'.toNat, ']' :: rest) := rfl
  unfold read
  rw [openClass_complement (by decide) (by decide)]
  dsimp only
  rw [run_item (by decide) (by decide) rfl hi]
  exact run_close rfl
end Class

namespace Item

def char (c : Char) : Item := set (.single c.toNat)

def repeated (item : Item) (least : Nat) : Item := ⟨.loop item.expr least none, 1 + item.depth, true⟩

def except (c : Char) (depth : Nat) : Item := ⟨.atom (.compl (.single c.toNat)), depth, true⟩

def group (is js : List Item) : Item :=
  let inner := choice [sequence js.reverse, sequence is.reverse]
  ⟨inner.expr, 1 + inner.depth, true⟩

theorem repeatLast_push {st : State} {item : Item} {least : Nat} (h : item.repeatable = true) :
    (st.push item).repeatLast least none = .ok (st.push (item.repeated least)) := by
  simp [State.repeatLast, State.push, repeated, h]

theorem sequence_expr (items : List Item) : (sequence items.reverse).expr = seqs (items.map (·.expr)) := by
  unfold sequence join
  rw [List.reverse_reverse]
  match items with
  | [] => rfl
  | [_] => rfl
  | _ :: _ :: _ => rfl

theorem foldl_max_le_iff {ds : List Nat} {d m : Nat} : ds.foldl max d ≤ m ↔ d ≤ m ∧ ∀ k ∈ ds, k ≤ m := by
  induction ds generalizing d with
  | nil => simp
  | cons k ds ih => rw [List.foldl_cons, ih, Nat.max_le, List.forall_mem_cons, and_assoc]

theorem join_depth {combine : List Expr → Expr} {items : List Item} {d : Nat} (h : ∀ item ∈ items, item.depth ≤ d) :
    (join combine items.reverse).depth ≤ d + 1 := by
  unfold join
  rw [List.reverse_reverse]
  match items with
  | [] => exact Nat.zero_le _
  | [a] => exact Nat.le_succ_of_le (h a List.mem_cons_self)
  | a :: b :: rest =>
    have hmax : ((a :: b :: rest).map (·.depth)).foldl max 0 ≤ d := by
      refine foldl_max_le_iff.mpr ⟨Nat.zero_le d, fun k hk => ?_⟩
      obtain ⟨item, hi, rfl⟩ := List.mem_map.mp hk
      exact h item hi
    show 1 + ((a :: b :: rest).map (·.depth)).foldl max 0 ≤ d + 1
    omega

theorem sequence_depth {items : List Item} {d : Nat} (h : ∀ item ∈ items, item.depth ≤ d) :
    (sequence items.reverse).depth ≤ d + 1 := join_depth h

theorem depth_lt_sequence {items : List Item} {item : Item} (h : item ∈ items) (hlen : 2 ≤ items.length) :
    item.depth < (sequence items.reverse).depth := by
  unfold sequence join
  rw [List.reverse_reverse]
  match items with
  | a :: b :: rest =>
    have hmax := (foldl_max_le_iff.mp (Nat.le_refl (((a :: b :: rest).map (·.depth)).foldl max 0))).2 _
      (List.mem_map_of_mem h)
    show item.depth < 1 + ((a :: b :: rest).map (·.depth)).foldl max 0
    exact Nat.lt_one_add_iff.mpr hmax

theorem depth_le_sequence {items : List Item} {item : Item} (h : item ∈ items) :
    item.depth ≤ (sequence items.reverse).depth := by
  match items with
  | [a] => exact Nat.le_of_eq (congrArg Item.depth (List.mem_singleton.mp h))
  | a :: b :: rest => exact Nat.le_of_lt (depth_lt_sequence h (Nat.le_add_left 2 rest.length))

theorem group_expr (is js : List Item) :
    (group is js).expr = .alt (seqs (is.map (·.expr))) (seqs (js.map (·.expr))) := by
  rw [← sequence_expr, ← sequence_expr]; rfl

theorem group_depth {is js : List Item} {d : Nat} (hi : ∀ item ∈ is, item.depth ≤ d)
    (hj : ∀ item ∈ js, item.depth ≤ d) : (group is js).depth ≤ d + 3 := by
  have h₁ := sequence_depth hi
  have h₂ := sequence_depth hj
  show 1 + (1 + max (max 0 (sequence is.reverse).depth) (sequence js.reverse).depth) ≤ d + 3
  omega

end Item

namespace Spells

variable {t u : List Char} {is js : List Item}

theorem nil : Spells [] [] :=
  ⟨by simp, fun _ _ _ _ => rfl⟩

theorem append (h : Spells t is) (h' : Spells u js) : Spells (t ++ u) (is ++ js) := by
  constructor
  · cases t with
    | nil => exact h'.1
    | cons c t => exact h.1
  · intro st rest hf hr
    have hu : (u ++ rest).head? ≠ some '?' := by
      cases u with
      | nil => exact hr
      | cons c u => exact h'.1
    rw [List.append_assoc, h.2 st _ hf hu, h'.2 (st.pushAll is) rest hf hr, State.pushAll_append]

theorem of_step {c : Char} {item : Item} (hc : c ≠ '?')
    (h : ∀ st rest, st.flags = .initial → rest.head? ≠ some '?' →
      step st c (t ++ rest) = .ok (st.push item, rest)) : Spells (c :: t) [item] :=
  ⟨by simpa using hc, fun st rest hf hr => run_step hf (h st rest hf hr)⟩

def starters : List Char := ['(', ')', '|', '[', '?', '*', '+', '\x7b', '\\', '.', '^', '$']

theorem char {c : Char} (h : c ∉ starters) : Spells [c] [.char c] := by
  simp only [starters, List.mem_cons, List.not_mem_nil, or_false, not_or] at h
  refine of_step h.2.2.2.2.1 fun st rest hf _ => ?_
  simp only [List.nil_append]
  unfold step
  split
  all_goals first | (exfalso; simp_all; done) | skip
  rw [hf]; rfl

theorem quoted {c : Char} (h : Escape.isPlain c = true) : Spells ['\\', c] [.char c] := by
  refine of_step (by decide) fun st rest hf _ => ?_
  simp only [List.singleton_append, step, Escape.read, Escape.readFrom, h, if_true, hf]
  rfl

theorem dot : Spells ['.'] [.except '\n' 0] := by
  refine of_step (by decide) fun st rest hf _ => ?_
  simp only [List.nil_append, step, hf]; rfl

theorem textStart : Spells ['^'] [.leaf (.look .textStart)] := by
  refine of_step (by decide) fun st rest hf _ => ?_
  simp only [List.nil_append, step, hf]; rfl

theorem textEnd : Spells ['$'] [.leaf (.look .textEnd)] := by
  refine of_step (by decide) fun st rest hf _ => ?_
  simp only [List.nil_append, step, hf]; rfl

theorem notSlash : Spells ['[', '^', '/', ']'] [.except '/' 1] := by
  refine of_step (by decide) fun st rest hf _ => ?_
  simp only [step, hf, List.cons_append, List.nil_append, Class.read_notSlash]
  rfl

theorem sign {c : Char} {item next : Item} (h : Spells t [item]) (hc : c ≠ '?')
    (hstep : ∀ (st : State) (rest : List Char), rest.head? ≠ some '?' →
      step (st.push item) c rest = .ok (st.push next, rest)) :
    Spells (t ++ [c]) [next] := by
  constructor
  · cases t with
    | nil => simpa using hc
    | cons d t => exact h.1
  · intro st rest hf hr
    rw [List.append_assoc, h.2 st _ hf (by simpa using hc), State.pushAll_singleton, State.pushAll_singleton]
    exact run_step hf (hstep st rest hr)

theorem star {item : Item} (h : Spells t [item]) (hi : item.repeatable = true) :
    Spells (t ++ ['*']) [item.repeated 0] := by
  refine h.sign (by decide) fun st rest hr => ?_
  simp only [step, Item.repeatLast_push hi, dropLazy_of_head hr]
  rfl

theorem plus {item : Item} (h : Spells t [item]) (hi : item.repeatable = true) :
    Spells (t ++ ['+']) [item.repeated 1] := by
  refine h.sign (by decide) fun st rest hr => ?_
  simp only [step, Item.repeatLast_push hi, dropLazy_of_head hr]
  rfl

theorem group (h : Spells t is) (h' : Spells u js) :
    Spells (['(', '?', ':'] ++ t ++ '|' :: u ++ [')']) [.group is js] := by
  refine ⟨by simp, fun st rest hf hr => ?_⟩
  have hopen : step st '(' ('?' :: ':' :: (t ++ '|' :: (u ++ ')' :: rest))) =
      .ok (st.openGroup .initial, t ++ '|' :: (u ++ ')' :: rest)) := by
    have ho : readOpening .initial ('?' :: ':' :: (t ++ '|' :: (u ++ ')' :: rest))) =
        .ok (.group [], t ++ '|' :: (u ++ ')' :: rest)) := rfl
    have hb : st.begin (.group []) = .ok (st.openGroup .initial) := by
      simp [State.begin, Flags.apply, hf]
    simp only [step, hf, ho, hb, bind, Except.bind]; rfl
  have hbar : step ((st.openGroup .initial).pushAll is) '|' (u ++ ')' :: rest) =
      .ok (((st.openGroup .initial).pushAll is).bar, u ++ ')' :: rest) := rfl
  have hclose : step ((((st.openGroup .initial).pushAll is).bar).pushAll js) ')' rest =
      .ok (st.push (.group is js), rest) := by
    have hc : ((((st.openGroup .initial).pushAll is).bar).pushAll js).closeGroup =
        .ok (st.push (.group is js)) := by
      simp [State.openGroup, State.pushAll, State.bar, State.closeGroup, State.total, State.push,
        Item.group, hf]
    simp only [step, hc]
    rfl
  calc run st (['(', '?', ':'] ++ t ++ '|' :: u ++ [')'] ++ rest)
      = run st ('(' :: '?' :: ':' :: (t ++ '|' :: (u ++ ')' :: rest))) := by simp
    _ = run (st.openGroup .initial) (t ++ '|' :: (u ++ ')' :: rest)) := run_step hf hopen
    _ = run ((st.openGroup .initial).pushAll is) ('|' :: (u ++ ')' :: rest)) := h.2 _ _ rfl (by simp)
    _ = run (((st.openGroup .initial).pushAll is).bar) (u ++ ')' :: rest) := run_step rfl hbar
    _ = run ((((st.openGroup .initial).pushAll is).bar).pushAll js) (')' :: rest) :=
      h'.2 _ _ rfl (by simp)
    _ = run (st.pushAll [.group is js]) rest := run_step rfl hclose

theorem append_refuses {f : Fault} (h : Spells t is) (h' : Refuses f u) : Refuses f (t ++ u) := by
  constructor
  · cases t with
    | nil => exact h'.1
    | cons c t => exact h.1
  · intro st rest hf
    have hu : (u ++ rest).head? ≠ some '?' := by
      cases u with
      | nil => cases (h'.2 .initial [] rfl).symm.trans (run_end rfl)
      | cons c u => exact h'.1
    rw [List.append_assoc, h.2 st _ hf hu]
    exact h'.2 _ rest hf

/-- The text as a whole is the sequence of the items. -/
theorem read (h : Spells t is) : Expr.read t = .ok (.sequence is.reverse) := by
  have hr := h.2 .initial [] rfl (by simp)
  rw [List.append_nil, run_end (by rfl)] at hr
  rw [Expr.read, hr]
  simp [State.finish, State.pushAll, State.initial, State.total, Item.choice, Item.join]

theorem parse {d : Nat} (h : Spells t is) (hd : ∀ item ∈ is, item.depth ≤ d) (hmax : d < maxDepth) :
    Expr.parse t = .ok (seqs (is.map (·.expr))) := by
  have hdepth := Item.sequence_depth hd
  simp only [Expr.parse, h.read, bind, Except.bind]
  rw [if_neg (by omega), Item.sequence_expr]
  rfl

end Spells

theorem weight_seqs (es : List Expr) : (seqs es).weight = jointWeight es := by
  induction es with
  | nil => rfl
  | cons e es ih =>
    cases es with
    | nil => rfl
    | cons e' es => exact congrArg (e.weight + ·) ih

theorem jointWeight_append (es es' : List Expr) :
    jointWeight (es ++ es') = jointWeight es + jointWeight es' := by
  induction es with
  | nil => exact (Nat.zero_add _).symm
  | cons e es ih => rw [List.cons_append, jointWeight, ih, jointWeight, Nat.add_assoc]

/-- What is read compiles unless it lies too deep or is too large. -/
theorem compile_of_read {text : List Char} {item : Item} (h : read text = .ok item) : compile text =
    if maxDepth < item.depth then .error .tooDeep
    else if maxWeight < item.expr.weight then .error .tooLarge else .ok item.expr := by
  simp only [compile, parse, h, bind, Except.bind]
  by_cases hd : maxDepth < item.depth
  · rw [if_pos hd, if_pos hd]
  · rw [if_neg hd, if_neg hd]; rfl

namespace Refuses

variable {f : Fault} {t u : List Char}

theorem append (h : Refuses f t) (u : List Char) : Refuses f (t ++ u) := by
  constructor
  · cases t with
    | nil => cases (h.2 .initial [] rfl).symm.trans (run_end rfl)
    | cons c t => exact h.1
  · intro st rest hf
    rw [List.append_assoc]
    exact h.2 st (u ++ rest) hf

theorem read (h : Refuses f t) : Expr.read t = .error f := by
  have := h.2 .initial [] rfl
  rwa [List.append_nil] at this

end Refuses

end Exclusion.Expr
