import Exclusion.Expr.Basic
import Exclusion.Expr.Fault

/-! # Flags of an expression text

Flags change how the rest of a group is read: case, line mode, what the dot stands for, and whether
blanks and comments are ignored. A list of flags turns some on and, behind a minus sign, some off.
-/

namespace Exclusion.Expr

inductive Flag where
  | caseless
  | multiline
  | dotNewline
  | swapGreed
  | unicode
  | crlf
  | verbose
  deriving DecidableEq, Repr

def Flag.ofChar? : Char → Option Flag
  | 'i' => some .caseless
  | 'm' => some .multiline
  | 's' => some .dotNewline
  | 'U' => some .swapGreed
  | 'u' => some .unicode
  | 'R' => some .crlf
  | 'x' => some .verbose
  | _ => none

abbrev FlagItem := Option Flag

/-- The flags in force. Greed has no bearing on whether a text matches and is not kept. -/
structure Flags where
  caseless : Bool
  multiline : Bool
  dotNewline : Bool
  unicode : Bool
  crlf : Bool
  verbose : Bool
  deriving DecidableEq, Repr

namespace Flags

def initial : Flags := ⟨false, false, false, true, false, false⟩

def set (f : Flags) (value : Bool) : Flag → Flags
  | .caseless => { f with caseless := value }
  | .multiline => { f with multiline := value }
  | .dotNewline => { f with dotNewline := value }
  | .swapGreed => f
  | .unicode => { f with unicode := value }
  | .crlf => { f with crlf := value }
  | .verbose => { f with verbose := value }

def apply (f : Flags) : Bool → List FlagItem → Flags
  | _, [] => f
  | _, none :: rest => f.apply false rest
  | value, some flag :: rest => (f.set value flag).apply value rest

/-- Reads flags up to `:` or `)`, which is returned with what follows it. -/
def readItems (seen : List FlagItem) : List Char → Except Fault (List FlagItem × Char × List Char)
  | [] => .error .badFlags
  | c :: rest =>
    if c == ':' || c == ')' then
      if seen.head? == some none then .error .badFlags else .ok (seen.reverse, c, rest)
    else if c == '-' then
      if none ∈ seen then .error .badFlags else readItems (none :: seen) rest
    else
      match Flag.ofChar? c with
      | none => .error .badFlags
      | some flag =>
        if some flag ∈ seen then .error .badFlags else readItems (some flag :: seen) rest

def dropBlanks (inComment : Bool) : List Char → List Char
  | [] => []
  | c :: rest =>
    if inComment then dropBlanks (c != '\n') rest
    else if Unicode.isWhite c then dropBlanks false rest
    else if c == '#' then dropBlanks true rest
    else c :: rest

def skip (f : Flags) (s : List Char) : List Char :=
  if f.verbose then dropBlanks false s else s

def single (f : Flags) (c : Char) : Charset :=
  if f.caseless then
    if f.unicode then .folded (.single c.toNat) else .asciiFolded (.single c.toNat)
  else .single c.toNat

def fold (f : Flags) (a : Charset) : Charset :=
  if f.caseless then
    if f.unicode then .folded a else .asciiFolded a
  else a

/-- The complement of a set of bytes holds bytes that are no text. -/
def complementIf (f : Flags) (negated : Bool) (a : Charset) : Except Fault Charset :=
  if negated then
    if f.unicode then .ok (.compl a) else .error .notText
  else .ok a

def dot (f : Flags) : Except Fault Charset :=
  if !f.unicode then .error .notText
  else if f.dotNewline then .ok .full
  else if f.crlf then .ok (.compl (.ranges [(Look.newline, Look.newline), (Look.carriageReturn, Look.carriageReturn)]))
  else .ok (.compl (.single Look.newline))

def lineStart (f : Flags) : Look :=
  if !f.multiline then .textStart else if f.crlf then .crlfStart else .lineStart

def lineEnd (f : Flags) : Look :=
  if !f.multiline then .textEnd else if f.crlf then .crlfEnd else .lineEnd

theorem dropBlanks_length (inComment : Bool) (s : List Char) :
    (dropBlanks inComment s).length ≤ s.length := by
  fun_induction dropBlanks inComment s <;> grind

theorem skip_length (f : Flags) (s : List Char) : (f.skip s).length ≤ s.length := by
  unfold skip; split
  · exact dropBlanks_length _ _
  · exact Nat.le_refl _

theorem readItems_length {seen items : List FlagItem} {s rest : List Char} {c : Char}
    (h : readItems seen s = .ok (items, c, rest)) : rest.length < s.length := by
  fun_induction readItems seen s <;> grind

end Flags

end Exclusion.Expr
