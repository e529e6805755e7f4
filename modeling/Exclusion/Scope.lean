import Exclusion.Duration.Basic

/-! # Scopes

An evaluation runs under a scope, which is live until it is cancelled or its deadline passes. A scope
opened inside another one ends with it, but never ends it. What changes over time is kept apart from
the scopes: the clock, and which scopes cancellation was requested for.
-/

namespace Exclusion

inductive Reason where
  | requested
  | deadlineExceeded
  deriving DecidableEq, Repr

def Reason.text : Reason → String
  | requested => "cancellation requested"
  | deadlineExceeded => "deadline exceeded"

abbrev Instant := Nat

/-- What a scope adds to the one around it. -/
structure Link where
  id : Nat
  deadline : Option Instant
  deriving DecidableEq, Repr

/-- A scope with the scopes around it, from the nearest to the outermost. -/
structure Scope where
  own : Link
  outer : List Link
  deriving DecidableEq, Repr

/-- The clock, the scopes that cancellation was requested for, and the next number for a scope. -/
structure Liveness where
  now : Instant
  requested : List Nat
  fresh : Nat
  deriving DecidableEq, Repr

namespace Scope

def chain (s : Scope) : List Link := s.own :: s.outer

def earliest : Option Instant → Option Instant → Option Instant
  | some a, some b => some (min a b)
  | some a, none => some a
  | none, b => b

def deadline (s : Scope) : Option Instant :=
  s.chain.foldr (fun l rest => earliest l.deadline rest) none

end Scope

namespace Liveness

/-- The clock cannot show moments from here on. -/
def horizon : Instant := UInt64.size / 2 * Duration.nanosPerSecond

def initial (now : Instant) : Liveness := ⟨now, [], 0⟩

def deadlineAfter (v : Liveness) (d : Duration) : Option Instant :=
  if v.now + d.nanos < horizon then some (v.now + d.nanos) else none

def openScope (v : Liveness) (deadline : Option Instant) (parent : Option Scope) :
    Scope × Liveness :=
  (⟨⟨v.fresh, deadline⟩, (parent.map Scope.chain).getD []⟩, { v with fresh := v.fresh + 1 })

def cancel (v : Liveness) (s : Scope) : Liveness :=
  { v with requested := s.own.id :: v.requested }

def advance (v : Liveness) (d : Nat) : Liveness :=
  { v with now := v.now + d }

/-- Why this link ends its scope, a request before the deadline. -/
def linkReason (v : Liveness) (l : Link) : Option Reason :=
  if l.id ∈ v.requested then some .requested
  else if l.deadline.any (· ≤ v.now) then some .deadlineExceeded
  else none

def reason (v : Liveness) (s : Scope) : Option Reason :=
  s.chain.findSome? v.linkReason

def live (v : Liveness) (s : Scope) : Bool := (v.reason s).isNone

end Liveness

/-- What the surroundings of an evaluation can do meanwhile. -/
inductive Act where
  | cancel (s : Scope)
  | advance (d : Nat)
  deriving DecidableEq, Repr

def Liveness.apply (v : Liveness) : Act → Liveness
  | .cancel s => v.cancel s
  | .advance d => v.advance d

end Exclusion
