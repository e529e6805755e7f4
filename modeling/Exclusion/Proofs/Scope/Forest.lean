import Exclusion.Proofs.Evaluation.Liveness
import Mathlib.Data.List.Induction
import Mathlib.Logic.Relation

/-! # Forests of scopes

Scopes are opened, shared, cancelled and given up through handles, while the clock moves on. What a run of
such operations records is a forest. A handle is named by the position of the operation that gave it, so that
how scopes lie in one another can be read off the operations alone.
-/

namespace Exclusion

inductive Limit where
  | never
  | after (timeout : Duration)
  | fixed (deadline : Instant)
  deriving DecidableEq, Repr

inductive Operation where
  /-- Opens a scope, inside that of a handle or on its own. -/
  | opening (inside : Option Nat) (limit : Limit)
  /-- Gives another handle of the same scope. -/
  | clone (handle : Nat)
  | cancel (handle : Nat)
  | drop (handle : Nat)
  | wait (d : Nat)
  deriving DecidableEq, Repr

structure Forest where
  liveness : Liveness
  /-- What each operation so far has given. -/
  given : List (Option Scope)
  dropped : List Nat
  deriving DecidableEq, Repr

def Limit.deadline (v : Liveness) : Limit → Option Instant
  | never => none
  | after d => v.deadlineAfter d
  | fixed t => some t

namespace Forest

def start (now : Instant) : Forest := ⟨.initial now, [], []⟩

/-- The scope of a handle, which it outlives. -/
def scope? (f : Forest) (h : Nat) : Option Scope := f.given[h]?.join

/-- The scope of a handle that has not been given up. -/
def held? (f : Forest) (h : Nat) : Option Scope := if h ∈ f.dropped then none else f.scope? h

def around? (f : Forest) : Option Nat → Option (Option Scope)
  | none => some none
  | some h => (f.held? h).map some

def record (f : Forest) (given : Option Scope) (v : Liveness) : Forest :=
  { f with liveness := v, given := f.given ++ [given] }

/-- Operations need handles that have not been given up. -/
def perform (f : Forest) : Operation → Option Forest
  | .opening inside limit => (f.around? inside).map fun parent =>
    let (s, v) := f.liveness.openScope (limit.deadline f.liveness) parent
    f.record (some s) v
  | .clone h => (f.held? h).map fun s => f.record (some s) f.liveness
  | .cancel h => (f.held? h).map fun s => f.record none (f.liveness.cancel s)
  | .drop h => (f.held? h).map fun _ => { f.record none f.liveness with dropped := h :: f.dropped }
  | .wait d => some (f.record none (f.liveness.advance d))

def run (now : Instant) (ops : List Operation) : Option Forest := ops.foldlM perform (start now)

end Forest

/-! What the operations say about the scopes of their handles. -/

namespace Operation

def opens : Operation → Bool
  | opening _ _ => true
  | _ => false

/-- Opening a scope and sharing one give a handle. -/
def gives : Operation → Bool
  | opening _ _ => true
  | clone _ => true
  | _ => false

/-- The handle that the operation needs. -/
def needs : Operation → Option Nat
  | opening inside _ => inside
  | clone h => some h
  | cancel h => some h
  | drop h => some h
  | wait _ => none

def elapsed : Operation → Nat
  | wait d => d
  | _ => 0

end Operation

namespace History

def elapsed : List Operation → Nat
  | [] => 0
  | op :: ops => op.elapsed + elapsed ops

def opened (ops : List Operation) : Nat := ops.countP Operation.opens

/-- The deadline that a limit sets now. One that the clock cannot show is none. -/
def deadline (now : Instant) : Limit → Option Instant
  | .never => none
  | .after d => if now + d.nanos < Liveness.horizon then some (now + d.nanos) else none
  | .fixed t => some t

/-- From the scope of a handle to another handle of the same scope, or to the scope that it was opened in. -/
inductive Outwards (ops : List Operation) : Nat → Nat → Prop
  | parent {h k : Nat} {limit : Limit} (hop : ops[h]? = some (.opening (some k) limit)) : Outwards ops h k
  | original {h k : Nat} (hop : ops[h]? = some (.clone k)) : Outwards ops h k
  | copy {h k : Nat} (hop : ops[h]? = some (.clone k)) : Outwards ops k h

/-- The scope of the first handle is that of the second, or lies inside it. -/
def Within (ops : List Operation) : Nat → Nat → Prop := Relation.ReflTransGen (Outwards ops)

/-- Both are handles of one scope. -/
def Same (ops : List Operation) (h k : Nat) : Prop := Within ops h k ∧ Within ops k h

/-- Cancellation was asked for through some handle of the scope. -/
def Cancelled (ops : List Operation) (h : Nat) : Prop := ∃ k, .cancel k ∈ ops ∧ Same ops h k

/-- The scope was opened with this deadline of its own. -/
def HasDeadline (now : Instant) (ops : List Operation) (h : Nat) (d : Instant) : Prop :=
  ∃ k inside limit, Same ops h k ∧ ops[k]? = some (.opening inside limit) ∧
    deadline (now + elapsed (ops.take k)) limit = some d

/-- Why the scope ends of its own, a request before the deadline. -/
inductive Ends (now : Instant) (ops : List Operation) (h : Nat) : Reason → Prop
  | requested (hc : Cancelled ops h) : Ends now ops h .requested
  | deadlineExceeded {d : Instant} (hc : ¬ Cancelled ops h) (hd : HasDeadline now ops h d)
    (hle : d ≤ now + elapsed ops) : Ends now ops h .deadlineExceeded

variable {ops : List Operation} {op : Operation} {i j : Nat}

theorem elapsed_append (ops : List Operation) (op : Operation) :
    elapsed (ops ++ [op]) = elapsed ops + op.elapsed := by
  induction ops with
  | nil => exact Nat.add_comm _ _
  | cons o ops ih => rw [List.cons_append, elapsed, elapsed, ih, Nat.add_assoc]

theorem opened_append (ops : List Operation) (op : Operation) :
    opened (ops ++ [op]) = opened ops + if op.opens then 1 else 0 := by
  simp [opened, List.countP_append, List.countP_cons]

theorem opened_take_lt (hi : ops[i]? = some op) (hop : op.opens = true) (hij : i < j) :
    opened (ops.take i) < opened (ops.take j) := by
  have hlt : i < ops.length := (List.getElem?_eq_some_iff.mp hi).1
  have hget : ops[i] = op := (List.getElem?_eq_some_iff.mp hi).2
  have hsucc : opened (ops.take (i + 1)) = opened (ops.take i) + 1 := by
    rw [List.take_succ_eq_append_getElem hlt, hget, opened_append, if_pos hop]
  have hmono : opened (ops.take (i + 1)) ≤ opened (ops.take j) :=
    (List.take_prefix_take_left hij).sublist.countP_le
  omega

theorem opened_take_inj {op' : Operation} (hi : ops[i]? = some op) (hop : op.opens = true)
    (hj : ops[j]? = some op') (hop' : op'.opens = true) (h : opened (ops.take i) = opened (ops.take j)) :
    i = j := by
  rcases Nat.lt_trichotomy i j with hij | hij | hij
  · exact absurd h (Nat.ne_of_lt (opened_take_lt hi hop hij))
  · exact hij
  · exact absurd h (Nat.ne_of_gt (opened_take_lt hj hop' hij))

end History

namespace Forest

open History

variable {now : Instant} {ops more : List Operation} {op : Operation} {f g : Forest} {h i k : Nat} {s : Scope}

def Around (f : Forest) (i : Nat) (outer : List Link) : Option Nat → Prop
  | none => outer = []
  | some k => k < i ∧ ∃ s, f.scope? k = some s ∧ outer = s.chain

/-- What the forest shows of the operation at position `i`, given those before it. -/
def Shows (f : Forest) (now : Instant) (before : List Operation) (i : Nat) : Operation → Prop
  | .opening inside limit => ∃ outer, f.Around i outer inside ∧
      f.scope? i = some ⟨⟨opened before, History.deadline (now + elapsed before) limit⟩, outer⟩
  | .clone k => k < i ∧ ∃ s, f.scope? k = some s ∧ f.scope? i = some s
  | .cancel k => f.scope? i = none ∧ ∃ s, f.scope? k = some s ∧ s.own.id ∈ f.liveness.requested
  | .drop _ => f.scope? i = none
  | .wait _ => f.scope? i = none

/-- The forest is what the operations have made of it. -/
structure Records (f : Forest) (now : Instant) (ops : List Operation) : Prop where
  clock : f.liveness.now = now + elapsed ops
  length : f.given.length = ops.length
  fresh : f.liveness.fresh = opened ops
  shows : ∀ i op, ops[i]? = some op → f.Shows now (ops.take i) i op
  requested : ∀ id ∈ f.liveness.requested, ∃ k s, .cancel k ∈ ops ∧ f.scope? k = some s ∧ s.own.id = id
  dropped : ∀ k, k ∈ f.dropped ↔ .drop k ∈ ops

section Steps

theorem lt_of_scope? (h : f.scope? i = some s) : i < f.given.length := by
  unfold scope? at h
  rw [Option.join_eq_some_iff] at h
  exact (List.getElem?_eq_some_iff.mp h).1

theorem scope?_of_held? (h : f.held? i = some s) : f.scope? i = some s := by
  unfold held? at h
  split at h
  · cases h
  · exact h

theorem exists_held?_iff : (∃ s, f.held? h = some s) ↔ (∃ s, f.scope? h = some s) ∧ h ∉ f.dropped := by
  unfold held?
  split <;> simp_all

/-- An operation only fails for want of its handle. -/
theorem exists_perform_iff : (∃ g, f.perform op = some g) ↔ ∀ k, op.needs = some k → ∃ s, f.held? k = some s := by
  cases op with
  | opening inside limit => cases inside <;> simp [perform, Operation.needs, around?]
  | clone k => simp [perform, Operation.needs]
  | cancel k => simp [perform, Operation.needs]
  | drop k => simp [perform, Operation.needs]
  | wait d => simp [perform, Operation.needs]

theorem scope?_of_extends (hp : f.given <+: g.given) (h : f.scope? i = some s) : g.scope? i = some s := by
  obtain ⟨rest, hrest⟩ := hp
  rw [scope?, ← hrest, List.getElem?_append_left (lt_of_scope? h)]
  exact h

theorem Shows.mono {before : List Operation} (hp : f.given <+: g.given) (hi : i < f.given.length)
    (hr : f.liveness.requested ⊆ g.liveness.requested) (h : f.Shows now before i op) :
    g.Shows now before i op := by
  have hsame : g.scope? i = f.scope? i := by
    obtain ⟨rest, hrest⟩ := hp
    rw [scope?, ← hrest, List.getElem?_append_left hi, scope?]
  cases op with
  | opening inside limit =>
    obtain ⟨outer, ha, hs⟩ := h
    refine ⟨outer, ?_, hsame.trans hs⟩
    cases inside with
    | none => exact ha
    | some k =>
      obtain ⟨hk, s, hs, ho⟩ := ha
      exact ⟨hk, s, scope?_of_extends hp hs, ho⟩
  | clone k =>
    obtain ⟨hk, s, hs, hi⟩ := h
    exact ⟨hk, s, scope?_of_extends hp hs, hsame.trans hi⟩
  | cancel k =>
    obtain ⟨hi, s, hs, hm⟩ := h
    exact ⟨hsame.trans hi, s, scope?_of_extends hp hs, hr hm⟩
  | drop k => exact hsame.trans h
  | wait d => exact hsame.trans h

theorem Shows.gives {before : List Operation} (h : f.Shows now before i op) (hs : f.scope? i = some s) :
    op.gives = true := by
  cases op with
  | opening inside limit => rfl
  | clone k => rfl
  | cancel k => cases hs.symm.trans h.1
  | drop k => cases hs.symm.trans h
  | wait d => cases hs.symm.trans h

structure Performed (f : Forest) (op : Operation) (g : Forest) : Prop where
  given : ∃ s?, g.given = f.given ++ [s?]
  clock : g.liveness.now = f.liveness.now + op.elapsed
  fresh : g.liveness.fresh = f.liveness.fresh + if op.opens then 1 else 0
  requested : ∀ id, id ∈ g.liveness.requested ↔
    id ∈ f.liveness.requested ∨ ∃ k s, op = .cancel k ∧ f.scope? k = some s ∧ s.own.id = id
  shows : ∀ now before, f.liveness.now = now + elapsed before → f.liveness.fresh = opened before →
    g.Shows now before f.given.length op
  dropped : ∀ k, k ∈ g.dropped ↔ k ∈ f.dropped ∨ op = .drop k

theorem scope?_record (f : Forest) (s? : Option Scope) (v : Liveness) :
    (f.record s? v).scope? f.given.length = s? := by
  simp [scope?, record]

theorem scope?_record_of_some (s? : Option Scope) (v : Liveness) (h : f.scope? i = some s) :
    (f.record s? v).scope? i = some s :=
  scope?_of_extends (List.prefix_append _ _) h

theorem around_record {inside : Option Nat} {parent : Option Scope} (s? : Option Scope) (v : Liveness)
    (h : f.around? inside = some parent) :
    (f.record s? v).Around f.given.length ((parent.map Scope.chain).getD []) inside := by
  cases inside with
  | none => cases h; rfl
  | some k =>
    obtain ⟨s, hs, rfl⟩ := Option.map_eq_some_iff.mp h
    have hscope := scope?_of_held? hs
    exact ⟨lt_of_scope? hscope, s, scope?_record_of_some _ _ hscope, rfl⟩

theorem performed (hp : f.perform op = some g) : f.Performed op g := by
  cases op with
  | opening inside limit =>
    obtain ⟨parent, ha, rfl⟩ := Option.map_eq_some_iff.mp hp
    refine ⟨⟨_, rfl⟩, rfl, rfl, by simp [record, Liveness.openScope], fun now before hnow hfresh => ?_,
      by simp [record]⟩
    refine ⟨_, around_record _ _ ha, ?_⟩
    have hlimit : limit.deadline f.liveness = History.deadline (now + elapsed before) limit := by
      rw [← hnow]
      cases limit <;> rfl
    rw [scope?_record, ← hfresh, ← hlimit]; rfl
  | clone k =>
    obtain ⟨s, hs, rfl⟩ := Option.map_eq_some_iff.mp hp
    have hscope := scope?_of_held? hs
    refine ⟨⟨_, rfl⟩, rfl, rfl, by simp [record], fun now before _ _ => ?_, by simp [record]⟩
    exact ⟨lt_of_scope? hscope, s, scope?_record_of_some _ _ hscope, scope?_record f _ _⟩
  | cancel k =>
    obtain ⟨s, hs, rfl⟩ := Option.map_eq_some_iff.mp hp
    have hscope := scope?_of_held? hs
    refine ⟨⟨_, rfl⟩, rfl, rfl, fun id => ?_, fun now before _ _ => ?_, by simp [record]⟩
    · simp [record, Liveness.cancel, hscope, or_comm, eq_comm]
    · exact ⟨scope?_record f _ _, s, scope?_record_of_some _ _ hscope, List.mem_cons_self⟩
  | drop k =>
    obtain ⟨s, hs, rfl⟩ := Option.map_eq_some_iff.mp hp
    exact ⟨⟨_, rfl⟩, rfl, rfl, by simp [record], fun now before _ _ => scope?_record f none f.liveness,
      by simp [or_comm, eq_comm]⟩
  | wait d =>
    cases hp
    exact ⟨⟨_, rfl⟩, rfl, rfl, by simp [record, Liveness.advance], fun now before _ _ =>
      scope?_record f none (f.liveness.advance d), by simp [record]⟩

theorem Performed.given_extends (h : f.Performed op g) : f.given <+: g.given := by
  obtain ⟨s?, hs⟩ := h.given
  exact ⟨[s?], hs.symm⟩

theorem Records.start (now : Instant) : (start now).Records now [] :=
  ⟨rfl, rfl, rfl, nofun, nofun, fun _ => by simp [Forest.start]⟩

theorem Records.step (hf : f.Records now ops) (hp : f.Performed op g) : g.Records now (ops ++ [op]) := by
  have hreq : f.liveness.requested ⊆ g.liveness.requested := fun id hid => (hp.requested id).mpr (.inl hid)
  obtain ⟨s?, hgiven⟩ := hp.given
  constructor
  · rw [hp.clock, hf.clock, elapsed_append, Nat.add_assoc]
  · rw [hgiven, List.length_append, List.length_append, hf.length]; rfl
  · rw [hp.fresh, hf.fresh, opened_append]
  · intro i o hi
    rcases Nat.lt_or_ge i ops.length with hlt | hge
    · rw [List.getElem?_append_left hlt] at hi
      rw [List.take_append_of_le_length (Nat.le_of_lt hlt)]
      exact (hf.shows i o hi).mono hp.given_extends (hf.length ▸ hlt) hreq
    · have hlast : i = ops.length := by
        have := (List.getElem?_eq_some_iff.mp hi).1
        rw [List.length_append, List.length_singleton] at this
        omega
      subst hlast
      rw [List.getElem?_concat_length] at hi
      cases hi
      rw [List.take_left' rfl, ← hf.length]
      exact hp.shows now ops hf.clock hf.fresh
  · intro id hid
    rcases (hp.requested id).mp hid with hold | ⟨k, s, rfl, hs, hsid⟩
    · obtain ⟨k, s, hk, hs, hsid⟩ := hf.requested id hold
      exact ⟨k, s, List.mem_append_left _ hk, scope?_of_extends hp.given_extends hs, hsid⟩
    · exact ⟨k, s, by simp, scope?_of_extends hp.given_extends hs, hsid⟩
  · intro k
    rw [hp.dropped, hf.dropped, List.mem_append, List.mem_singleton, eq_comm]

theorem run_append (now : Instant) (ops more : List Operation) :
    run now (ops ++ more) = (run now ops).bind fun f => more.foldlM perform f := by
  rw [run, List.foldlM_append]; rfl

theorem run_append_singleton : run now (ops ++ [op]) = some g ↔
    ∃ f, run now ops = some f ∧ f.perform op = some g := by
  simp [run_append, Option.bind_eq_some_iff]

theorem records_of_run (hr : run now ops = some f) : f.Records now ops := by
  induction ops using List.reverseRecOn generalizing f with
  | nil => cases hr; exact .start now
  | append_singleton ops op ih =>
    obtain ⟨e, he, hp⟩ := run_append_singleton.mp hr
    exact (ih he).step (performed hp)

end Steps

end Forest

end Exclusion
