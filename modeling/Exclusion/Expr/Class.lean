import Exclusion.Expr.Escape

/-! # Bracket classes of an expression text

A class holds characters, ranges, escapes, named ASCII sets and nested classes, and combines what
stands left and right of `&&`, `--` and `~~`. It is read by a machine whose stack holds the classes
that are open and the left operands that wait for a right one. Beside its set, each class has a
depth, which counts how deep it nests.
-/

namespace Exclusion.Expr

/-- A set with the depth of the text that wrote it. -/
structure Nested where
  set : Charset
  depth : Nat
  deriving DecidableEq, Repr

inductive SetOperator where
  | intersection
  | difference
  | symmetricDifference
  deriving DecidableEq, Repr

namespace SetOperator

def apply (a b : Charset) : SetOperator → Charset
  | intersection => .inter a b
  | difference => a.diff b
  | symmetricDifference => a.symmDiff b

end SetOperator

inductive ClassFrame where
  /-- A class that is open, with the items of the class around it. -/
  | opened (negated : Bool) (outer : List Nested)
  /-- An operator whose right operand is being read. -/
  | operator (op : SetOperator) (left : Nested)
  deriving DecidableEq, Repr

/-- The items read so far of the current union, last first, and the stack. -/
structure ClassState where
  items : List Nested
  stack : List ClassFrame
  deriving DecidableEq, Repr

namespace Class

def ascii? (name : List Char) : Option Charset :=
  let table : List (String × Charset) := [
    ("alnum", .ranges [(0x30, 0x39), (0x41, 0x5A), (0x61, 0x7A)]),
    ("alpha", .ranges [(0x41, 0x5A), (0x61, 0x7A)]),
    ("ascii", .ascii),
    ("blank", .ranges [(0x09, 0x09), (0x20, 0x20)]),
    ("cntrl", .ranges [(0x00, 0x1F), (0x7F, 0x7F)]),
    ("digit", .range 0x30 0x39),
    ("graph", .range 0x21 0x7E),
    ("lower", .range 0x61 0x7A),
    ("print", .range 0x20 0x7E),
    ("punct", .ranges [(0x21, 0x2F), (0x3A, 0x40), (0x5B, 0x60), (0x7B, 0x7E)]),
    ("space", .ranges [(0x09, 0x0D), (0x20, 0x20)]),
    ("upper", .range 0x41 0x5A),
    ("word", Look.asciiWord),
    ("xdigit", .ranges [(0x30, 0x39), (0x41, 0x46), (0x61, 0x66)])]
  (table.find? (·.1.toList == name)).map (·.2)

def namedAscii? : List Char → Option (Bool × Charset × List Char)
  | ':' :: rest =>
    let (negated, rest) := match rest with
      | '^' :: r => (true, r)
      | _ => (false, rest)
    match rest.dropWhile (· != ':') with
    | ':' :: ']' :: after => (ascii? (rest.takeWhile (· != ':'))).map fun a => (negated, a, after)
    | _ => none
  | _ => none

def finish (f : Flags) (negated : Bool) (a : Charset) : Except Fault Charset :=
  f.complementIf negated (f.fold a)

def gather (items : List Nested) : Nested :=
  match items.reverse with
  | [] => ⟨.empty, 0⟩
  | [a] => a
  | all => ⟨.unions (all.map (·.set)), 1 + (all.map (·.depth)).foldl max 0⟩

def complete (f : Flags) (right : Nested) : List ClassFrame → Nested × List ClassFrame
  | .operator op left :: stack =>
    (⟨op.apply (f.fold left.set) (f.fold right.set), 1 + max left.depth right.depth⟩, stack)
  | stack => (right, stack)

/-- The hyphens in first place of a class, and a `]` there, are members. -/
def hyphens (f : Flags) (s : List Char) : List Nested × List Char :=
  match _h : s with
  | '-' :: rest =>
    let (items, after) := hyphens f (f.skip rest)
    (⟨.single '-'.toNat, 0⟩ :: items, after)
  | _ => ([], s)
termination_by s.length
decreasing_by exact Nat.lt_succ_of_le (f.skip_length rest)

def firstMembers (f : Flags) (s : List Char) : List Nested × List Char :=
  match hyphens f s with
  | ([], ']' :: rest) => ([⟨.single ']'.toNat, 0⟩], f.skip rest)
  | r => r

def complementSign (f : Flags) (s : List Char) : Bool × List Char :=
  match f.skip s with
  | '^' :: rest => (true, f.skip rest)
  | s => (false, s)

def openClass (f : Flags) (st : ClassState) (s : List Char) : ClassState × List Char :=
  let (negated, s) := complementSign f s
  let (items, after) := firstMembers f s
  (⟨items, .opened negated st.items :: st.stack⟩, after)

def readMember (f : Flags) : List Char → Except Fault (Escape × List Char)
  | [] => .error .unclosedClass
  | '\\' :: rest => Escape.read f rest
  | c :: rest => .ok (.literal c, rest)

/-- Without Unicode a class holds ASCII characters alone. -/
def memberChar (f : Flags) : Escape → Except Fault Char
  | .literal c => if f.unicode || c.toNat < 0x80 then .ok c else .error .needsUnicode
  | _ => .error .badClassMember

def memberSet (f : Flags) : Escape → Except Fault Charset
  | .set a => .ok a
  | e => (memberChar f e).map fun c => .single c.toNat

/-- The next character that verbose mode does not ignore, as far as one can tell: a comment sign
is passed over, but the comment is not. -/
def peek (f : Flags) (s : List Char) : Option Char :=
  if f.verbose then
    match s.dropWhile Unicode.isWhite with
    | '#' :: rest => (rest.dropWhile Unicode.isWhite).head?.orElse fun _ => s.head?
    | rest => rest.head?.orElse fun _ => s.head?
  else s.head?

def rangeSet (low high : Char) : Except Fault Charset :=
  if high < low then .error .descendingRange else .ok (.range low.toNat high.toNat)

def readItem (f : Flags) (s : List Char) : Except Fault (Charset × List Char) := do
  let (low, after) ← readMember f s
  match f.skip after with
  | '-' :: rest =>
    if peek f rest == some ']' || peek f rest == some '-' then
      return (← memberSet f low, '-' :: rest)
    else do
      let (high, after) ← readMember f (f.skip rest)
      return (← rangeSet (← memberChar f low) (← memberChar f high), after)
  | after => return (← memberSet f low, after)

def operator? : List Char → Option (SetOperator × List Char)
  | '&' :: '&' :: rest => some (.intersection, rest)
  | '-' :: '-' :: rest => some (.difference, rest)
  | '~' :: '~' :: rest => some (.symmetricDifference, rest)
  | _ => none

/-- What a closing bracket leaves: the finished class, or a state with the class as an item. -/
def close (f : Flags) (st : ClassState) : Except Fault (Nested ⊕ ClassState) :=
  match complete f (gather st.items) st.stack with
  | (inner, .opened negated outer :: stack) => do
    let a ← finish f negated inner.set
    let item : Nested := ⟨a, 1 + inner.depth⟩
    if stack.isEmpty then return .inl item else return .inr ⟨item :: outer, stack⟩
  | _ => .error .unclosedClass

theorem namedAscii?_length {s after : List Char} {negated : Bool} {a : Charset}
    (h : namedAscii? s = some (negated, a, after)) : after.length < s.length := by
  unfold namedAscii? at h
  split at h
  · rename_i rest
    dsimp only at h
    split at h
    · rename_i r heq
      obtain ⟨b, _, he⟩ := Option.map_eq_some_iff.1 h
      simp only [Prod.mk.injEq] at he
      have h₁ := (List.dropWhile_suffix (l := (match rest with
        | '^' :: r => (true, r)
        | _ => (false, rest)).2) (· != ':')).length_le
      rw [heq] at h₁
      have h₂ : (match rest with
        | '^' :: r => (true, r)
        | _ => (false, rest)).2.length ≤ rest.length := by split <;> simp
      simp at h₁; simp [← he.2.2]; omega
    · simp at h
  · simp at h

theorem hyphens_length (f : Flags) (s : List Char) : (hyphens f s).2.length ≤ s.length := by
  fun_induction hyphens f s with
  | case1 rest items after hr ih =>
    have := f.skip_length rest
    simp_all; omega
  | case2 => simp

theorem firstMembers_length (f : Flags) (s : List Char) :
    (firstMembers f s).2.length ≤ s.length := by
  have hs := hyphens_length f s
  unfold firstMembers
  split
  · rename_i rest heq
    have := f.skip_length rest
    simp [heq] at hs; simp; omega
  · exact hs

theorem complementSign_length (f : Flags) (s : List Char) :
    (complementSign f s).2.length ≤ s.length := by
  have hs := f.skip_length s
  unfold complementSign
  split
  · rename_i rest heq
    have := f.skip_length rest
    simp [heq] at hs; simp; omega
  · exact hs

theorem openClass_length (f : Flags) (st : ClassState) (s : List Char) :
    (openClass f st s).2.length ≤ s.length :=
  Nat.le_trans (firstMembers_length f (complementSign f s).2) (complementSign_length f s)

theorem readMember_length {f : Flags} {e : Escape} {s rest : List Char}
    (h : readMember f s = .ok (e, rest)) : rest.length < s.length := by
  unfold readMember at h
  split at h
  · simp at h
  · have := Escape.read_length h; simp; omega
  · simp at h; simp [h.2]

theorem readItem_length {f : Flags} {a : Charset} {s rest : List Char}
    (h : readItem f s = .ok (a, rest)) : rest.length < s.length := by
  unfold readItem at h
  obtain ⟨⟨low, after⟩, hr, h⟩ := bind_eq_ok.1 h
  have h₁ := readMember_length hr
  have h₂ := f.skip_length after
  dsimp only at h
  split at h
  · rename_i r heq
    rw [heq] at h₂
    split at h
    · obtain ⟨_, _, h⟩ := bind_eq_ok.1 h
      simp only [pure_eq_ok, Prod.mk.injEq] at h
      rw [← h.2]; omega
    · obtain ⟨⟨high, t⟩, hr, h⟩ := bind_eq_ok.1 h
      have h₃ := readMember_length hr
      have h₄ := f.skip_length r
      obtain ⟨_, _, h⟩ := bind_eq_ok.1 h
      obtain ⟨_, _, h⟩ := bind_eq_ok.1 h
      obtain ⟨_, _, h⟩ := bind_eq_ok.1 h
      simp only [pure_eq_ok, Prod.mk.injEq] at h
      simp at h₂; rw [← h.2]; omega
  · obtain ⟨_, _, h⟩ := bind_eq_ok.1 h
    simp only [pure_eq_ok, Prod.mk.injEq] at h
    rw [← h.2]; omega

theorem operator?_length {op : SetOperator} {s rest : List Char}
    (h : operator? s = some (op, rest)) : rest.length < s.length := by
  unfold operator? at h
  split at h <;> simp only [Option.some.injEq, Prod.mk.injEq, reduceCtorEq] at h <;>
    exact h.2 ▸ Nat.lt_succ_of_lt (Nat.lt_succ_self _)

def run (f : Flags) (st : ClassState) (s : List Char) : Except Fault (Nested × List Char) :=
  match _h : f.skip s with
  | [] => .error .unclosedClass
  | '[' :: rest =>
    match _h₂ : namedAscii? rest with
    | some (negated, a, after) => do
      let a ← finish f negated a
      run f { st with items := ⟨a, 0⟩ :: st.items } after
    | none =>
      match _h₂ : openClass f st rest with
      | (inner, after) => run f inner after
  | ']' :: rest => do
    match ← close f st with
    | .inl done => return (done, rest)
    | .inr st => run f st rest
  | c :: rest =>
    match _h₂ : operator? (c :: rest) with
    | some (op, after) =>
      let (left, stack) := complete f (gather st.items) st.stack
      run f ⟨[], .operator op left :: stack⟩ after
    | none =>
      match _h₂ : readItem f (c :: rest) with
      | .error e => .error e
      | .ok (a, after) => run f { st with items := ⟨a, 0⟩ :: st.items } after
termination_by s.length
decreasing_by
  all_goals have hs := f.skip_length s
  all_goals simp only [_h, List.length_cons] at hs
  · have := namedAscii?_length _h₂; omega
  · have := openClass_length f st rest; simp only [_h₂] at this; omega
  · omega
  · have := operator?_length _h₂; simp at this; omega
  · have := readItem_length _h₂; simp at this; omega

def read (f : Flags) (s : List Char) : Except Fault (Nested × List Char) :=
  let (st, after) := openClass f ⟨[], []⟩ s
  run f st after

theorem run_length {f : Flags} {st : ClassState} {a : Nested} {s rest : List Char}
    (h : run f st s = .ok (a, rest)) : rest.length < s.length := by
  fun_induction run f st s generalizing a rest with
  | case1 => simp at h
  | case2 st s r heq negated b after hn ih =>
    obtain ⟨_, _, h⟩ := bind_eq_ok.1 h
    have h₁ := f.skip_length s
    have h₂ := namedAscii?_length hn
    have h₃ := ih _ h
    simp only [heq, List.length_cons] at h₁; omega
  | case3 st s r heq hn inner after ho ih =>
    have h₁ := f.skip_length s
    have h₂ := openClass_length f st r
    have h₃ := ih h
    simp only [heq, List.length_cons] at h₁; simp only [ho] at h₂; omega
  | case4 st s r heq ih =>
    obtain ⟨c, _, h⟩ := bind_eq_ok.1 h
    have h₁ := f.skip_length s
    simp only [heq, List.length_cons] at h₁
    cases c with
    | inl done =>
      simp only [pure_eq_ok, Prod.mk.injEq] at h
      rw [← h.2]; omega
    | inr next => have h₃ := ih _ h; omega
  | case5 st s c r _ _ heq op after ho left stack hc ih =>
    have h₁ := f.skip_length s
    have h₂ := operator?_length ho
    have h₃ := ih h
    simp only [heq, List.length_cons] at h₁ h₂; omega
  | case6 => simp at h
  | case7 st s c r _ _ heq ho b after hi ih =>
    have h₁ := f.skip_length s
    have h₂ := readItem_length hi
    have h₃ := ih h
    simp only [heq, List.length_cons] at h₁ h₂; omega

theorem read_length {f : Flags} {a : Nested} {s rest : List Char}
    (h : read f s = .ok (a, rest)) : rest.length ≤ s.length :=
  Nat.le_trans (Nat.le_of_lt (run_length h)) (openClass_length f ⟨[], []⟩ s)

end Class

end Exclusion.Expr
