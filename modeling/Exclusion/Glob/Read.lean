import Exclusion.Glob.Token
import Exclusion.Outcome

/-! # Reading a glob

The text is read from left to right into tokens. Braces nest: each open brace keeps the branch around
it and the branches that a comma has ended. Whether `**` stands for directories depends on the
character in front, on what follows, and on what the branch holds so far.
-/

namespace Exclusion.Glob

inductive Fault where
  | emptyPattern
  | unclosedClass
  /-- The ends of a range are in descending order. -/
  | descendingRange (low high : Char)
  | unopenedChoice
  | unclosedChoice
  | danglingEscape
  deriving DecidableEq, Repr

namespace Fault

def message : Fault → String
  | emptyPattern => "empty pattern"
  | unclosedClass => "unclosed character class; missing ']'"
  | descendingRange low high =>
    "invalid range; '" ++ low.toString ++ "' > '" ++ high.toString ++ "'"
  | unopenedChoice =>
    "unopened alternate group; missing '\x7b' (maybe escape '\x7d' with '[\x7d]'?)"
  | unclosedChoice =>
    "unclosed alternate group; missing '\x7d' (maybe escape '\x7b' with '[\x7b]'?)"
  | danglingEscape => "dangling '\\'"

end Fault

/-- A branch that waits for an inner choice, and the branches ended before it. -/
structure Level where
  branch : List Token
  ended : List (List Token)
  deriving Repr

/-- The current branch, last token first, the branches of its choice that have ended, last first, and
the levels around. -/
structure State where
  branch : List Token
  ended : List (List Token)
  outer : List Level
  deriving Repr

namespace State

def initial : State := ⟨[], [], []⟩

def push (st : State) (t : Token) : State := { st with branch := t :: st.branch }

def inChoice (st : State) : Bool := !st.outer.isEmpty

def openChoice (st : State) : State := ⟨[], [], ⟨st.branch, st.ended⟩ :: st.outer⟩

def closeChoice (st : State) : Except Fault State :=
  match st.outer with
  | [] => .error .unopenedChoice
  | level :: outer =>
    let branches := (st.branch :: st.ended).reverse.map List.reverse
    .ok ⟨.choice branches :: level.branch, level.ended, outer⟩

def comma (st : State) : State :=
  if st.inChoice then { st with branch := [], ended := st.branch :: st.ended }
  else st.push (.literal ',')

def finish (st : State) : Except Fault (List Token) :=
  if st.inChoice then .error .unclosedChoice else .ok st.branch.reverse

/-- Puts a token for directories in place of the last token, unless that one already stands for
directories. -/
def deepen (st : State) (t : Token) : State :=
  match st.branch with
  | .deepPrefix :: _ => st
  | .deepSuffix :: _ => st
  | _ :: rest => { st with branch := t :: rest }
  | [] => st

end State

def isBefore (before : Option Char) (c : Char) : Bool := before == some c

/-- Reads `**` behind the character `before`, with `rest` behind it. Returns the character that the
next token has in front and what is left. -/
def deepStar (st : State) (before : Option Char) (rest : List Char) :
    State × Option Char × List Char :=
  let twoStars := ((st.push .star).push .star, some '*', rest)
  if st.branch.isEmpty then
    match rest with
    | [] => (st.push .deepPrefix, some '*', [])
    | '/' :: after => (st.push .deepPrefix, some '/', after)
    | _ => twoStars
  else if isBefore before '/'
      || (st.inChoice && (isBefore before ',' || isBefore before '\x7b')) then
    match rest with
    | [] => (st.deepen .deepSuffix, some '*', [])
    | '/' :: after => (st.deepen .deepMiddle, some '/', after)
    | c :: _ =>
      if st.inChoice && (c == ',' || c == '\x7d') then (st.deepen .deepSuffix, some '*', rest)
      else twoStars
  else twoStars

/-- Reads the members of a class up to its `]`, in reverse. A hyphen joins the last range with the
character behind it, and is a member in first and in last place. -/
def readRanges (first joining : Bool) (ranges : List (Char × Char)) :
    List Char → Except Fault (List (Char × Char) × List Char)
  | [] => .error .unclosedClass
  | c :: rest =>
    if c == ']' && !first then
      .ok (if joining then ('-', '-') :: ranges else ranges, rest)
    else if c == '-' && !first && !joining then readRanges false true ranges rest
    else
      match joining, ranges with
      | true, (low, _) :: before =>
        if c < low then .error (.descendingRange low c)
        else readRanges false false ((low, c) :: before) rest
      | _, _ => readRanges false false ((c, c) :: ranges) rest

def complementSign : List Char → Bool × List Char
  | '!' :: rest => (true, rest)
  | '^' :: rest => (true, rest)
  | s => (false, s)

def readSet (s : List Char) : Except Fault (Token × List Char) :=
  let (negated, inner) := complementSign s
  (readRanges true false [] inner).map fun (ranges, after) => (.set negated ranges.reverse, after)

def step (st : State) (before : Option Char) (c : Char) (rest : List Char) :
    Except Fault (State × Option Char × List Char) :=
  match c with
  | '?' => return (st.push .any, some c, rest)
  | '*' =>
    match rest with
    | '*' :: after => return deepStar st before after
    | _ => return (st.push .star, some c, rest)
  | '[' => do
    let (t, after) ← readSet rest
    return (st.push t, some ']', after)
  | '\x7b' => return (st.openChoice, some c, rest)
  | '\x7d' => return (← st.closeChoice, some c, rest)
  | ',' => return (st.comma, some c, rest)
  | '\\' =>
    match rest with
    | [] => .error .danglingEscape
    | d :: after => return (st.push (.literal d), some d, after)
  | c => return (st.push (.literal c), some c, rest)

theorem deepStar_length (st : State) (before : Option Char) (s : List Char) :
    (deepStar st before s).2.2.length ≤ s.length := by
  unfold deepStar
  grind

theorem readRanges_length {first joining : Bool} {ranges r : List (Char × Char)}
    {s rest : List Char} (h : readRanges first joining ranges s = .ok (r, rest)) :
    rest.length < s.length := by
  fun_induction readRanges first joining ranges s <;> grind

theorem complementSign_length (s : List Char) : (complementSign s).2.length ≤ s.length := by
  unfold complementSign; split <;> simp

theorem readSet_length {t : Token} {s rest : List Char} (h : readSet s = .ok (t, rest)) :
    rest.length < s.length := by
  obtain ⟨⟨r, after⟩, hr, he⟩ := map_eq_ok.1 h
  simp only [Prod.mk.injEq] at he
  exact he.2 ▸ Nat.lt_of_lt_of_le (readRanges_length hr) (complementSign_length s)

theorem step_length {st st' : State} {before before' : Option Char} {c : Char} {s rest : List Char}
    (h : step st before c s = .ok (st', before', rest)) : rest.length ≤ s.length := by
  unfold step at h
  split at h
  · simp only [pure_eq_ok, Prod.mk.injEq] at h; simp [h.2.2]
  · split at h
    · rename_i after
      have := deepStar_length st before after
      simp only [pure_eq_ok] at h
      simp only [h, List.length_cons] at this ⊢; omega
    · simp only [pure_eq_ok, Prod.mk.injEq] at h; simp [h.2.2]
  · obtain ⟨⟨t, r⟩, hr, h⟩ := bind_eq_ok.1 h
    have := readSet_length hr
    simp only [pure_eq_ok, Prod.mk.injEq] at h
    rw [← h.2.2]; omega
  · simp only [pure_eq_ok, Prod.mk.injEq] at h; simp [h.2.2]
  · obtain ⟨_, _, h⟩ := bind_eq_ok.1 h
    simp only [pure_eq_ok, Prod.mk.injEq] at h; simp [h.2.2]
  · simp only [pure_eq_ok, Prod.mk.injEq] at h; simp [h.2.2]
  · split at h
    · simp at h
    · simp only [pure_eq_ok, Prod.mk.injEq] at h; simp [h.2.2]
  · simp only [pure_eq_ok, Prod.mk.injEq] at h; simp [h.2.2]

def run (st : State) (before : Option Char) (s : List Char) : Except Fault (List Token) :=
  match s with
  | [] => st.finish
  | c :: rest =>
    match _h : step st before c rest with
    | .error e => .error e
    | .ok (next, before, after) => run next before after
termination_by s.length
decreasing_by have := step_length _h; simp; omega

def read (s : List Char) : Except Fault (List Token) := run .initial none s

end Exclusion.Glob
