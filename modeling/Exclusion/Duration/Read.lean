import Exclusion.Decimal.Numeral
import Exclusion.Duration.Basic
import Exclusion.Text

/-! # Duration texts

A duration is written as a number and a unit: `ms`, `s` or `m`. The number is read as seconds, as
the nearest binary number and then to the nearest nanosecond, before the unit is applied.
-/

namespace Exclusion.Duration

inductive Fault where
  | empty
  | noUnit
  | noNumber
  | negative
  | tooLarge
  deriving DecidableEq, Repr

def Fault.message (text : String) : Fault → String
  | empty => "empty duration string"
  | noUnit => "invalid duration format: " ++ text ++ " (use 500ms, 1.5s, or 2m)"
  | noNumber => "invalid duration: " ++ text
  | negative => "negative duration: " ++ text
  | tooLarge => "duration too large: " ++ text

/-- A unit as a number of seconds times `factor` and divided by `divisor`. -/
structure TimeUnit where
  ending : List Char
  factor : Nat
  divisor : Nat
  deriving DecidableEq, Repr

def units : List TimeUnit := [
  ⟨"ms".toList, 1, 1000⟩,
  ⟨"s".toList, 1, 1⟩,
  ⟨"m".toList, 60, 1⟩]

/-- The number in front of the first unit that the text ends with. -/
def splitUnit? (s : List Char) : Option (List Char × TimeUnit) :=
  units.findSome? fun u => (stripEnding? u.ending s).map fun number => (trim number, u)

def ofMagnitude? (x : Decimal.Magnitude) : Option Duration :=
  let d : Duration := ⟨x.roundTimes nanosPerSecond⟩
  if d.Storable then some d else none

/-- So many units, when so many seconds and their multiple can be stored. -/
def scale? (d : Duration) (u : TimeUnit) : Option Duration :=
  let multiple : Duration := ⟨d.nanos * u.factor⟩
  if multiple.Storable then some ⟨multiple.nanos / u.divisor⟩ else none

def readTrimmed (s : List Char) : Except Fault Duration :=
  if s.isEmpty then .error .empty
  else
    match splitUnit? s with
    | none => .error .noUnit
    | some (number, u) =>
      match Decimal.Binary.ofText? number with
      | some (.finite negative x) =>
        if negative && x.significand != 0 then .error .negative
        else
          match (ofMagnitude? x).bind fun d => d.scale? u with
          | some d => .ok d
          | none => .error .tooLarge
      | _ => .error .noNumber

def ofText (s : String) : Except String Duration :=
  let text := trim s.toList
  match readTrimmed text with
  | .ok d => .ok d
  | .error f => .error (f.message (String.ofList text))

end Exclusion.Duration
