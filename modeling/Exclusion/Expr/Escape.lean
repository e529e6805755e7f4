import Exclusion.Expr.Flags
import Exclusion.Expr.Quote
import Exclusion.Unicode.Script

/-! # Escapes of an expression text

What a backslash and the characters behind it stand for: a character, a set of characters, or a look.
Letters and digits need a meaning of their own, every other ASCII character stands for itself.
-/

namespace Exclusion.Expr

inductive Escape where
  | literal (c : Char)
  | set (a : Charset)
  | look (l : Look)
  deriving DecidableEq, Repr

namespace Escape

def hexValue? (c : Char) : Option Nat :=
  if c.isDigit then some (c.toNat - '0'.toNat)
  else if 'a' ≤ c && c ≤ 'f' then some (c.toNat - 'a'.toNat + 10)
  else if 'A' ≤ c && c ≤ 'F' then some (c.toNat - 'A'.toNat + 10)
  else none

def charOfCode? (n : Nat) : Option Char :=
  if n.isValidChar then some (Char.ofNat n) else none

def readDigits (f : Flags) (value : Nat) : Nat → List Char → Except Fault (Nat × List Char)
  | 0, s => .ok (value, s)
  | _ + 1, [] => .error .badHexadecimal
  | n + 1, c :: rest =>
    match hexValue? c with
    | none => .error .badHexadecimal
    | some d => readDigits f (16 * value + d) n (f.skip rest)

def readBraced (f : Flags) (s : List Char) : Except Fault (List Char × List Char) :=
  match _h : f.skip s with
  | [] => .error .badEscape
  | '\x7d' :: rest => .ok ([], rest)
  | c :: rest => do
    let (text, after) ← readBraced f rest
    return (c :: text, after)
termination_by s.length
decreasing_by have := f.skip_length s; rw [_h, List.length_cons] at this; omega

def hexNumber? (digits : List Char) : Option Nat :=
  digits.foldl (fun n c => do return 16 * (← n) + (← hexValue? c)) (some 0)

/-- The code point behind `\x`, `\u` or `\U`, in braces or with a fixed number of digits. -/
def readHex (f : Flags) (width : Nat) (s : List Char) : Except Fault (Nat × List Char) :=
  match f.skip s with
  | [] => .error .badEscape
  | '\x7b' :: rest => do
    let (digits, after) ← readBraced f rest
    match digits.isEmpty, hexNumber? digits with
    | false, some n => return (n, f.skip after)
    | _, _ => .error .badHexadecimal
  | s => readDigits f 0 width s

def normalName (name : List Char) : String :=
  let (hasIs, body) := match name with
    | a :: b :: rest => if a.toLower == 'i' && b.toLower == 's' then (true, rest) else (false, name)
    | _ => (false, name)
  let kept (c : Char) : Bool := c.toNat < 0x80 && !(c == ' ' || c == '_' || c == '-')
  let short := (body.filter kept).map Char.toLower
  if hasIs && short == ['c'] then "isc" else String.ofList short

def lookup? (table : List (List String × Charset)) (name : String) : Option Charset :=
  (table.find? fun entry => name ∈ entry.1).map (·.2)

def property? (name : List Char) : Option Charset :=
  let name := normalName name
  (if name ∈ ["cf", "sc", "lc"] then none else lookup? Unicode.properties name)
    |>.orElse fun _ => lookup? Unicode.Category.named name
    |>.orElse fun _ => lookup? Unicode.Script.named name

def valuedProperty? (name value : List Char) : Option Charset :=
  let name := normalName name
  let value := normalName value
  if name ∈ ["gc", "generalcategory"] then lookup? Unicode.Category.named value
  else if name ∈ ["sc", "script"] then lookup? Unicode.Script.named value
  else none

def splitUnequal : List Char → Option (List Char × List Char)
  | '!' :: '=' :: rest => some ([], rest)
  | c :: rest => (splitUnequal rest).map fun (a, b) => (c :: a, b)
  | [] => none

def splitAt? (sep : Char) (s : List Char) : Option (List Char × List Char) :=
  if sep ∈ s then some (s.takeWhile (· != sep), (s.dropWhile (· != sep)).drop 1) else none

def namedSet? (text : List Char) : Option Charset :=
  match (splitUnequal text).orElse fun _ => (splitAt? ':' text).orElse fun _ => splitAt? '=' text with
  | some (name, value) => valuedProperty? name value
  | none => property? text

def readPropertyName (f : Flags) (s : List Char) : Except Fault (List Char × List Char) :=
  match f.skip s with
  | [] => .error .badEscape
  | '\x7b' :: rest => readBraced f rest
  | '\\' :: _ => .error .badEscape
  | c :: rest => .ok ([c], f.skip rest)

def propertySet (f : Flags) (negated : Bool) (name : List Char) : Except Fault Charset :=
  if f.unicode then
    match namedSet? name with
    | none => .error .unknownProperty
    | some a => f.complementIf negated (f.fold a)
  else .error .needsUnicode

def shorthand? : Char → Option (Charset × Charset)
  | 'd' => some (Unicode.Category.decimalNumber, .range 0x30 0x39)
  | 's' => some (Unicode.whiteSpace, .ranges [(0x09, 0x0D), (0x20, 0x20)])
  | 'w' => some (Unicode.word, Look.asciiWord)
  | _ => none

def isEdgeLetter (c : Char) : Bool :=
  c.isAlpha || c == '-'

def readEdgeName (f : Flags) (s : List Char) : List Char × List Char :=
  match _h : s with
  | [] => ([], [])
  | c :: rest =>
    if isEdgeLetter c then
      let (name, after) := readEdgeName f (f.skip rest)
      (c :: name, after)
    else ([], s)
termination_by s.length
decreasing_by exact Nat.lt_succ_of_le (f.skip_length rest)

def edge? (name : List Char) : Option WordEdge :=
  if name = "start".toList then some .start
  else if name = "end".toList then some .finish
  else if name = "start-half".toList then some .startHalf
  else if name = "end-half".toList then some .finishHalf
  else none

/-- The word edge behind `\b`, whose name may follow in braces. Braces that hold something else
belong to a repetition. -/
def readEdge (f : Flags) (s : List Char) : Except Fault (WordEdge × List Char) :=
  match s with
  | '\x7b' :: rest =>
    match f.skip rest with
    | [] => .error .badWordEdge
    | c :: inner =>
      if isEdgeLetter c then
        let (name, after) := readEdgeName f (c :: inner)
        match after, edge? name with
        | '\x7d' :: after, some edge => .ok (edge, after)
        | _, _ => .error .badWordEdge
      else .ok (.boundary, s)
  | _ => .ok (.boundary, s)

/-- The character of a code point. Without Unicode, two digits name a byte, and the upper half of
the bytes is no text. -/
def code (f : Flags) (isByte : Bool) (n : Nat) : Except Fault Char :=
  if isByte && !f.unicode && 0x7F < n then .error .notText
  else match charOfCode? n with
    | some c => .ok c
    | none => .error .badHexadecimal

def hexWidth? : Char → Option Nat
  | 'x' => some 2
  | 'u' => some 4
  | 'U' => some 8
  | _ => none

def control? : Char → Option Char
  | 'a' => some '\x07'
  | 'f' => some '\x0C'
  | 't' => some '\t'
  | 'n' => some '\n'
  | 'r' => some '\r'
  | 'v' => some '\x0B'
  | _ => none

def look? (f : Flags) : Char → Option Look
  | 'A' => some .textStart
  | 'z' => some .textEnd
  | 'B' => some (.word .noBoundary f.unicode)
  | '<' => some (.word .start f.unicode)
  | '>' => some (.word .finish f.unicode)
  | _ => none

def isPlain (c : Char) : Bool :=
  c.toNat < 0x80 && !c.isAlphanum && c != '<' && c != '>'

def short (f : Flags) (c : Char) : Except Fault Escape :=
  match shorthand? c.toLower, control? c, look? f c with
  | some (wide, narrow), _, _ =>
    (f.complementIf c.isUpper (if f.unicode then wide else narrow)).map .set
  | none, some control, _ => .ok (.literal control)
  | none, none, some l => .ok (.look l)
  | none, none, none => .error .badEscape

def readFrom (f : Flags) (c : Char) (rest : List Char) : Except Fault (Escape × List Char) :=
  if isPlain c then .ok (.literal c, rest)
  else match hexWidth? c with
    | some width => do
      let (n, after) ← readHex f width rest
      let l ← code f (c == 'x' && (f.skip rest).head? != some '\x7b') n
      return (.literal l, after)
    | none =>
      if c == 'p' || c == 'P' then do
        let (name, after) ← readPropertyName f rest
        let a ← propertySet f (c == 'P') name
        return (.set a, after)
      else if c == 'b' then do
        let (edge, after) ← readEdge f rest
        return (.look (.word edge f.unicode), after)
      else do
        let e ← short f c
        return (e, rest)

def read (f : Flags) : List Char → Except Fault (Escape × List Char)
  | [] => .error .badEscape
  | c :: rest => readFrom f c rest

/-! Reading never lengthens what is left. -/

theorem readDigits_length {f : Flags} {v n m : Nat} {s rest : List Char}
    (h : readDigits f v n s = .ok (m, rest)) : rest.length ≤ s.length := by
  induction n generalizing v s with
  | zero => simp [readDigits] at h; simp [h.2]
  | succ n ih =>
    cases s with
    | nil => simp [readDigits] at h
    | cons c s =>
      simp only [readDigits] at h
      split at h
      · simp at h
      · have := ih h
        have := f.skip_length s
        simp; omega

theorem readBraced_length {f : Flags} {s text rest : List Char}
    (h : readBraced f s = .ok (text, rest)) : rest.length ≤ s.length := by
  fun_induction readBraced f s generalizing text rest with
  | case1 => simp at h
  | case2 s after hs => have := f.skip_length s; simp at h; simp_all; omega
  | case3 s c after hne hs ih =>
    obtain ⟨⟨t, r⟩, hr, h⟩ := bind_eq_ok.1 h
    have h₁ := f.skip_length s
    have h₂ := ih hr
    simp only [pure_eq_ok, Prod.mk.injEq] at h
    rw [hs] at h₁; rw [← h.2]; simp at h₁; omega

theorem readHex_length {f : Flags} {width n : Nat} {s rest : List Char}
    (h : readHex f width s = .ok (n, rest)) : rest.length ≤ s.length := by
  have hs := f.skip_length s
  unfold readHex at h
  split at h
  · simp at h
  · rename_i after heq
    obtain ⟨⟨t, r⟩, hr, h⟩ := bind_eq_ok.1 h
    have := readBraced_length hr
    have := f.skip_length r
    dsimp only at h
    split at h
    · simp [pure_eq_ok] at h; simp_all; omega
    · simp at h
  · exact Nat.le_trans (readDigits_length h) hs

theorem readPropertyName_length {f : Flags} {s name rest : List Char}
    (h : readPropertyName f s = .ok (name, rest)) : rest.length ≤ s.length := by
  have hs := f.skip_length s
  unfold readPropertyName at h
  split at h
  · simp at h
  · have := readBraced_length h; simp_all; omega
  · simp at h
  · rename_i c r _ _ heq
    have := f.skip_length r
    simp at h; rw [heq] at hs; rw [← h.2]; simp at hs; omega

theorem readEdgeName_length (f : Flags) (s : List Char) :
    (readEdgeName f s).2.length ≤ s.length := by
  fun_induction readEdgeName f s with
  | case1 => simp
  | case2 c rest _ name after hr ih =>
    have := f.skip_length rest
    simp_all; omega
  | case3 => simp

theorem readEdge_length {f : Flags} {edge : WordEdge} {s rest : List Char}
    (h : readEdge f s = .ok (edge, rest)) : rest.length ≤ s.length := by
  unfold readEdge at h
  split at h
  · rename_i r
    have hs := f.skip_length r
    split at h
    · simp at h
    · rename_i c inner heq
      split at h
      · have := readEdgeName_length f (c :: inner)
        dsimp only at h
        split at h
        · simp at h; simp_all; omega
        · simp at h
      · simp at h; simp [← h.2]
  · simp at h; simp [h.2]

theorem readFrom_length {f : Flags} {c : Char} {e : Escape} {s rest : List Char}
    (h : readFrom f c s = .ok (e, rest)) : rest.length ≤ s.length := by
  unfold readFrom at h
  split at h
  · simp at h; simp [h.2]
  · split at h
    · obtain ⟨⟨n, r⟩, hr, h⟩ := bind_eq_ok.1 h
      obtain ⟨l, _, h⟩ := bind_eq_ok.1 h
      simp only [pure_eq_ok, Prod.mk.injEq] at h
      exact h.2 ▸ readHex_length hr
    · split at h
      · obtain ⟨⟨n, r⟩, hr, h⟩ := bind_eq_ok.1 h
        obtain ⟨a, _, h⟩ := bind_eq_ok.1 h
        simp only [pure_eq_ok, Prod.mk.injEq] at h
        exact h.2 ▸ readPropertyName_length hr
      · split at h
        · obtain ⟨⟨edge, r⟩, hr, h⟩ := bind_eq_ok.1 h
          simp only [pure_eq_ok, Prod.mk.injEq] at h
          exact h.2 ▸ readEdge_length hr
        · obtain ⟨a, _, h⟩ := bind_eq_ok.1 h
          simp only [pure_eq_ok, Prod.mk.injEq] at h
          simp [h.2]

theorem read_length {f : Flags} {e : Escape} {s rest : List Char}
    (h : read f s = .ok (e, rest)) : rest.length < s.length := by
  cases s with
  | nil => simp [read] at h
  | cons c s => have := readFrom_length h; simp; omega

end Escape

end Exclusion.Expr
