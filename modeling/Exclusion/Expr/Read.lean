import Exclusion.Expr.Class

/-! # Reading an expression text

The text is read from left to right by a machine whose stack holds the groups that are open. On each
level it keeps the items of the current branch and the branches before it. `Expr.read` gives the
expression with its depth; a text that is no expression is a fault.
-/

namespace Exclusion.Expr

/-- A part of a branch, the depth of its text, and whether a repetition may follow. -/
structure Item where
  expr : Expr
  depth : Nat
  repeatable : Bool
  deriving DecidableEq, Repr

/-- A level that waits for an inner group to close, with its flags. -/
structure Level where
  items : List Item
  branches : List Item
  flags : Flags
  deriving DecidableEq, Repr

/-- The current branch and the branches before it, both last first, the flags in force, the outer
levels, and the group names so far. -/
structure State where
  items : List Item
  branches : List Item
  flags : Flags
  stack : List Level
  names : List (List Char)
  deriving DecidableEq, Repr

namespace Item

def leaf (e : Expr) : Item := ⟨e, 0, true⟩

def set (a : Charset) : Item := leaf (.atom a)

/-- What a list of flags leaves in a branch. -/
def marker : Item := ⟨.empty, 0, false⟩

/-- One item made of several, given last first, with one level of depth on top of theirs. -/
def join (combine : List Expr → Expr) (items : List Item) : Item :=
  match items.reverse with
  | [] => ⟨.empty, 0, true⟩
  | [a] => a
  | all => ⟨combine (all.map (·.expr)), 1 + (all.map (·.depth)).foldl max 0, true⟩

def sequence (items : List Item) : Item := join seqs items

def choice (branches : List Item) : Item := join alts branches

end Item

namespace State

def initial : State := ⟨[], [], .initial, [], []⟩

def push (st : State) (item : Item) : State :=
  { st with items := item :: st.items }

def bar (st : State) : State :=
  { st with items := [], branches := .sequence st.items :: st.branches }

def total (st : State) : Item :=
  .choice (.sequence st.items :: st.branches)

def openGroup (st : State) (flags : Flags) : State :=
  ⟨[], [], flags, ⟨st.items, st.branches, st.flags⟩ :: st.stack, st.names⟩

def closeGroup (st : State) : Except Fault State :=
  match st.stack with
  | [] => .error .unopenedGroup
  | outer :: stack =>
    let inner := st.total
    .ok ⟨⟨inner.expr, 1 + inner.depth, true⟩ :: outer.items, outer.branches, outer.flags, stack, st.names⟩

def repeatLast (st : State) (least : Nat) (most : Option Nat) : Except Fault State :=
  match st.items with
  | [] => .error .nothingToRepeat
  | item :: rest =>
    if item.repeatable then
      .ok { st with items := ⟨.loop item.expr least most, 1 + item.depth, true⟩ :: rest }
    else .error .nothingToRepeat

def finish (st : State) : Except Fault Item :=
  if st.stack.isEmpty then .ok st.total else .error .unclosedGroup

end State

def maxCount : Nat := UInt32.size - 1

def readDigits (f : Flags) (s : List Char) : List Char × List Char :=
  match _h : s with
  | [] => ([], [])
  | c :: rest =>
    if c.isDigit then
      let (digits, after) := readDigits f (f.skip rest)
      (c :: digits, after)
    else ([], s)
termination_by s.length
decreasing_by exact Nat.lt_succ_of_le (f.skip_length rest)

def readCount (f : Flags) (s : List Char) : Except Fault (Nat × List Char) :=
  let (digits, after) := readDigits f (s.dropWhile Unicode.isWhite)
  let n := digits.foldl (fun n c => 10 * n + (c.toNat - '0'.toNat)) 0
  if digits.isEmpty || maxCount < n then .error .badRepetition
  else .ok (n, after.dropWhile Unicode.isWhite)

def readCounts (f : Flags) (s : List Char) : Except Fault (Nat × Option Nat × List Char) := do
  let (least, after) ← readCount f (f.skip s)
  match after with
  | '\x7d' :: rest => return (least, some least, rest)
  | ',' :: rest =>
    match f.skip rest with
    | '\x7d' :: rest => return (least, none, rest)
    | inner => do
      let (most, after) ← readCount f inner
      match after with
      | '\x7d' :: rest =>
        if most < least then .error .badRepetition else return (least, some most, rest)
      | _ => .error .badRepetition
  | _ => .error .badRepetition

def dropLazy : List Char → List Char
  | '?' :: rest => rest
  | s => s

/-- What an opening parenthesis begins. -/
inductive Opening where
  | flags (items : List FlagItem)
  | group (items : List FlagItem)
  | named (name : List Char)
  deriving DecidableEq, Repr

def isNameStart (c : Char) : Bool :=
  c == '_' || Unicode.alphabetic.mem c.toNat

def isNamePart (c : Char) : Bool :=
  c == '_' || c == '.' || c == '[' || c == ']' || Unicode.alphanumeric.mem c.toNat

def isName : List Char → Bool
  | [] => false
  | c :: rest => isNameStart c && rest.all isNamePart

def readName (s : List Char) : Except Fault (List Char × List Char) :=
  match s.dropWhile (· != '>') with
  | '>' :: after =>
    let name := s.takeWhile (· != '>')
    if isName name then .ok (name, after) else .error .badGroupName
  | _ => .error .badGroupName

def readOpening (f : Flags) (s : List Char) : Except Fault (Opening × List Char) :=
  match f.skip s with
  | '?' :: rest =>
    match rest with
    | '=' :: _ => .error .lookAround
    | '!' :: _ => .error .lookAround
    | '<' :: '=' :: _ => .error .lookAround
    | '<' :: '!' :: _ => .error .lookAround
    | 'P' :: '<' :: rest => do
      let (name, after) ← readName rest
      return (.named name, after)
    | '<' :: rest => do
      let (name, after) ← readName rest
      return (.named name, after)
    | _ => do
      let (items, sign, after) ← Flags.readItems [] rest
      if sign == ':' then return (.group items, after)
      else if items.isEmpty then .error .nothingToRepeat
      else return (.flags items, after)
  | rest => return (.group [], rest)

def State.begin (st : State) : Opening → Except Fault State
  | .flags items => .ok { st.push .marker with flags := st.flags.apply true items }
  | .group items => .ok (st.openGroup (st.flags.apply true items))
  | .named name =>
    if name ∈ st.names then .error .repeatedGroupName
    else .ok { st.openGroup st.flags with names := name :: st.names }

def Item.ofEscape (f : Flags) : Escape → Item
  | .literal c => .set (f.single c)
  | .set a => .set a
  | .look l => .leaf (.look l)

def step (st : State) (c : Char) (rest : List Char) : Except Fault (State × List Char) :=
  match c with
  | '(' => do
    let (opening, after) ← readOpening st.flags rest
    return (← st.begin opening, after)
  | ')' => do return (← st.closeGroup, rest)
  | '|' => return (st.bar, rest)
  | '[' => do
    let (inner, after) ← Class.read st.flags rest
    return (st.push ⟨.atom inner.set, inner.depth, true⟩, after)
  | '?' => do return (← st.repeatLast 0 (some 1), dropLazy rest)
  | '*' => do return (← st.repeatLast 0 none, dropLazy rest)
  | '+' => do return (← st.repeatLast 1 none, dropLazy rest)
  | '\x7b' => do
    let (least, most, after) ← readCounts st.flags rest
    return (← st.repeatLast least most, dropLazy (st.flags.skip after))
  | '\\' => do
    let (e, after) ← Escape.read st.flags rest
    return (st.push (.ofEscape st.flags e), after)
  | '.' => do return (st.push (.set (← st.flags.dot)), rest)
  | '^' => return (st.push (.leaf (.look st.flags.lineStart)), rest)
  | '$' => return (st.push (.leaf (.look st.flags.lineEnd)), rest)
  | c => return (st.push (.set (st.flags.single c)), rest)

theorem readDigits_length (f : Flags) (s : List Char) :
    (readDigits f s).2.length ≤ s.length := by
  fun_induction readDigits f s with
  | case1 => simp
  | case2 c rest _ digits after hr ih =>
    have := f.skip_length rest
    simp_all; omega
  | case3 => simp

theorem dropWhile_length (p : Char → Bool) (s : List Char) :
    (s.dropWhile p).length ≤ s.length :=
  (List.dropWhile_suffix p).length_le

theorem readCount_length {f : Flags} {n : Nat} {s rest : List Char}
    (h : readCount f s = .ok (n, rest)) : rest.length ≤ s.length := by
  unfold readCount at h
  have h₁ := readDigits_length f (s.dropWhile Unicode.isWhite)
  have h₂ := dropWhile_length Unicode.isWhite s
  have h₃ := dropWhile_length Unicode.isWhite (readDigits f (s.dropWhile Unicode.isWhite)).2
  dsimp only at h
  split at h
  · simp at h
  · simp only [Except.ok.injEq, Prod.mk.injEq] at h
    rw [← h.2]; omega

theorem readCounts_length {f : Flags} {least : Nat} {most : Option Nat} {s rest : List Char}
    (h : readCounts f s = .ok (least, most, rest)) : rest.length ≤ s.length := by
  unfold readCounts at h
  obtain ⟨⟨n, after⟩, hr, h⟩ := bind_eq_ok.1 h
  have h₁ := readCount_length hr
  have h₂ := f.skip_length s
  dsimp only at h
  split at h
  · simp only [pure_eq_ok, Prod.mk.injEq] at h
    simp only [List.length_cons] at h₁; rw [← h.2.2]; omega
  · rename_i r
    have h₃ := f.skip_length r
    simp only [List.length_cons] at h₁
    split at h
    · rename_i r heq
      simp only [pure_eq_ok, Prod.mk.injEq] at h
      rw [heq] at h₃; simp only [List.length_cons] at h₃
      rw [← h.2.2]; omega
    · obtain ⟨⟨m, t⟩, hr, h⟩ := bind_eq_ok.1 h
      have h₄ := readCount_length hr
      dsimp only at h
      split at h
      · split at h
        · simp at h
        · simp only [pure_eq_ok, Prod.mk.injEq] at h
          simp only [List.length_cons] at h₄; rw [← h.2.2]; omega
      · simp at h
  · simp at h

theorem dropLazy_length (s : List Char) : (dropLazy s).length ≤ s.length := by
  unfold dropLazy; split <;> simp

theorem readName_length {name s rest : List Char}
    (h : readName s = .ok (name, rest)) : rest.length ≤ s.length := by
  have hs := dropWhile_length (· != '>') s
  unfold readName at h
  split at h
  · rename_i after heq
    rw [heq] at hs; simp only [List.length_cons] at hs
    dsimp only at h
    split at h
    · simp only [Except.ok.injEq, Prod.mk.injEq] at h
      rw [← h.2]; omega
    · simp at h
  · simp at h

theorem readOpening_length {f : Flags} {o : Opening} {s rest : List Char}
    (h : readOpening f s = .ok (o, rest)) : rest.length ≤ s.length := by
  have hs := f.skip_length s
  unfold readOpening at h
  split at h
  · rename_i heq
    rw [heq] at hs; simp only [List.length_cons] at hs
    split at h
    · simp at h
    · simp at h
    · simp at h
    · simp at h
    · obtain ⟨⟨n, t⟩, hr, h⟩ := bind_eq_ok.1 h
      have := readName_length hr
      simp only [pure_eq_ok, Prod.mk.injEq] at h
      simp only [List.length_cons] at hs; rw [← h.2]; omega
    · obtain ⟨⟨n, t⟩, hr, h⟩ := bind_eq_ok.1 h
      have := readName_length hr
      simp only [pure_eq_ok, Prod.mk.injEq] at h
      simp only [List.length_cons] at hs; rw [← h.2]; omega
    · obtain ⟨⟨i, c, t⟩, hr, h⟩ := bind_eq_ok.1 h
      have := Flags.readItems_length hr
      dsimp only at h
      split at h
      · simp only [pure_eq_ok, Prod.mk.injEq] at h
        rw [← h.2]; omega
      · split at h
        · simp at h
        · simp only [pure_eq_ok, Prod.mk.injEq] at h
          rw [← h.2]; omega
  · simp only [pure_eq_ok, Prod.mk.injEq] at h
    rw [← h.2]; exact hs

theorem step_length {st st' : State} {c : Char} {s rest : List Char}
    (h : step st c s = .ok (st', rest)) : rest.length ≤ s.length := by
  unfold step at h
  split at h
  · obtain ⟨⟨o, r⟩, hr, h⟩ := bind_eq_ok.1 h
    obtain ⟨_, _, h⟩ := bind_eq_ok.1 h
    simp only [pure_eq_ok, Prod.mk.injEq] at h
    exact h.2 ▸ readOpening_length hr
  · obtain ⟨_, _, h⟩ := bind_eq_ok.1 h
    simp only [pure_eq_ok, Prod.mk.injEq] at h
    simp [h.2]
  · simp only [pure_eq_ok, Prod.mk.injEq] at h
    simp [h.2]
  · obtain ⟨⟨o, r⟩, hr, h⟩ := bind_eq_ok.1 h
    simp only [pure_eq_ok, Prod.mk.injEq] at h
    exact h.2 ▸ Class.read_length hr
  iterate 3
    · obtain ⟨_, _, h⟩ := bind_eq_ok.1 h
      simp only [pure_eq_ok, Prod.mk.injEq] at h
      exact h.2 ▸ dropLazy_length s
  · obtain ⟨⟨n, m, r⟩, hr, h⟩ := bind_eq_ok.1 h
    obtain ⟨_, _, h⟩ := bind_eq_ok.1 h
    simp only [pure_eq_ok, Prod.mk.injEq] at h
    exact h.2 ▸ Nat.le_trans (dropLazy_length _)
      (Nat.le_trans (Flags.skip_length _ _) (readCounts_length hr))
  · obtain ⟨⟨e, r⟩, hr, h⟩ := bind_eq_ok.1 h
    simp only [pure_eq_ok, Prod.mk.injEq] at h
    exact h.2 ▸ Nat.le_of_lt (Escape.read_length hr)
  · obtain ⟨_, _, h⟩ := bind_eq_ok.1 h
    simp only [pure_eq_ok, Prod.mk.injEq] at h
    simp [h.2]
  all_goals
    simp only [pure_eq_ok, Prod.mk.injEq] at h
    simp [h.2]

def run (st : State) (s : List Char) : Except Fault Item :=
  match _h : st.flags.skip s with
  | [] => st.finish
  | c :: rest =>
    match _h₂ : step st c rest with
    | .error e => .error e
    | .ok (next, after) => run next after
termination_by s.length
decreasing_by
  have h₁ := st.flags.skip_length s
  have h₂ := step_length _h₂
  simp only [_h, List.length_cons] at h₁; omega

def read (s : List Char) : Except Fault Item := run .initial s

end Exclusion.Expr
