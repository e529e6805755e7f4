import Exclusion.Proofs.Scope.Forest
import Mathlib.Order.Bounds.Defs

/-! # What a history says about its scopes

The chain of a scope consists of the scopes that its history puts around it. So the history alone tells when
the scope ends, with which deadline and why, and what cancelling another one does to it.
-/

namespace Exclusion

namespace Scope

theorem earliest_eq_some {a b : Option Instant} {d : Instant} (h : earliest a b = some d) :
    a = some d ∨ b = some d := by
  cases a with
  | none => exact .inr h
  | some x =>
    cases b with
    | none => exact .inl h
    | some y =>
      rcases Nat.le_total x y with hxy | hxy
      · exact .inl (by simpa [earliest, Nat.min_eq_left hxy] using h)
      · exact .inr (by simpa [earliest, Nat.min_eq_right hxy] using h)

theorem earliest_le_left (d : Instant) (b : Option Instant) : ∃ d' ≤ d, earliest (some d) b = some d' := by
  cases b with
  | none => exact ⟨d, Nat.le_refl d, rfl⟩
  | some x => exact ⟨min d x, Nat.min_le_left d x, rfl⟩

theorem earliest_le_right (a : Option Instant) (d : Instant) : ∃ d' ≤ d, earliest a (some d) = some d' := by
  cases a with
  | none => exact ⟨d, Nat.le_refl d, rfl⟩
  | some x => exact ⟨min x d, Nat.min_le_right x d, rfl⟩

variable {s t : Scope} {links : List Link} {d : Instant}

theorem mem_of_earliest (h : links.foldr (fun l rest => earliest l.deadline rest) none = some d) :
    ∃ l ∈ links, l.deadline = some d := by
  induction links with
  | nil => cases h
  | cons l links ih =>
    rcases earliest_eq_some h with hl | hrest
    · exact ⟨l, List.mem_cons_self, hl⟩
    · obtain ⟨k, hk, hd⟩ := ih hrest
      exact ⟨k, List.mem_cons_of_mem l hk, hd⟩

theorem earliest_le {l : Link} (hl : l ∈ links) (hd : l.deadline = some d) :
    ∃ d' ≤ d, links.foldr (fun l rest => earliest l.deadline rest) none = some d' := by
  induction links with
  | nil => cases hl
  | cons k links ih =>
    rw [List.foldr_cons]
    rcases List.mem_cons.mp hl with rfl | hrest
    · exact hd ▸ earliest_le_left d _
    · obtain ⟨x, hx, he⟩ := ih hrest
      obtain ⟨y, hy, he'⟩ := earliest_le_right k.deadline x
      exact ⟨y, Nat.le_trans hy hx, he ▸ he'⟩

theorem deadline_eq_some : s.deadline = some d ↔ IsLeast {x | ∃ l ∈ s.chain, l.deadline = some x} d := by
  constructor
  · intro h
    refine ⟨mem_of_earliest h, fun x ⟨l, hl, hx⟩ => ?_⟩
    obtain ⟨y, hy, he⟩ := earliest_le hl hx
    cases h.symm.trans he
    exact hy
  · rintro ⟨⟨l, hl, hd⟩, hleast⟩
    obtain ⟨y, hy, he⟩ := earliest_le hl hd
    have : y = d := Nat.le_antisymm hy (hleast (mem_of_earliest he))
    exact this ▸ he

theorem deadline_le (hsuf : t.chain <:+ s.chain) (hd : t.deadline = some d) :
    ∃ d' ≤ d, s.deadline = some d' := by
  obtain ⟨l, hl, hld⟩ := mem_of_earliest hd
  exact earliest_le (hsuf.subset hl) hld

end Scope

namespace Liveness

variable {v : Liveness} {s : Scope} {r : Reason}

theorem linkReason_eq_some {l : Link} : v.linkReason l = some r ↔
    match r with
    | .requested => l.id ∈ v.requested
    | .deadlineExceeded => l.id ∉ v.requested ∧ ∃ d, l.deadline = some d ∧ d ≤ v.now := by
  unfold linkReason
  cases r <;> cases l.deadline <;> split <;> simp_all

theorem live_eq_false : v.live s = false ↔ ∃ l ∈ s.chain, v.linkReason l ≠ none := by
  rw [← Bool.not_eq_true, live_iff]
  simp

theorem live_eq_false_iff_deadline : v.live s = false ↔
    (∃ l ∈ s.chain, l.id ∈ v.requested) ∨ ∃ d, s.deadline = some d ∧ d ≤ v.now := by
  rw [live_eq_false]
  constructor
  · rintro ⟨l, hl, hr⟩
    obtain ⟨r, hr⟩ := Option.ne_none_iff_exists'.mp hr
    cases r with
    | requested => exact .inl ⟨l, hl, linkReason_eq_some.mp hr⟩
    | deadlineExceeded =>
      obtain ⟨-, d, hd, hnow⟩ := linkReason_eq_some.mp hr
      obtain ⟨d', hle, hd'⟩ := Scope.earliest_le hl hd
      exact .inr ⟨d', hd', Nat.le_trans hle hnow⟩
  · rintro (⟨l, hl, hr⟩ | ⟨d, hd, hnow⟩)
    · exact ⟨l, hl, fun hn => (linkReason_eq_none.mp hn).1 hr⟩
    · obtain ⟨l, hl, hld⟩ := Scope.mem_of_earliest hd
      exact ⟨l, hl, fun hn => Nat.not_lt.mpr hnow ((linkReason_eq_none.mp hn).2 d hld)⟩

end Liveness

namespace Forest

open History

variable {now : Instant} {ops more : List Operation} {op : Operation} {f g : Forest} {h i j k : Nat}
  {s t : Scope}

namespace Records

theorem given_iff (hf : f.Records now ops) :
    (∃ s, f.scope? h = some s) ↔ ∃ op, ops[h]? = some op ∧ op.gives = true := by
  constructor
  · rintro ⟨s, hs⟩
    have hlt : h < ops.length := hf.length ▸ lt_of_scope? hs
    have hop : ops[h]? = some ops[h] := List.getElem?_eq_getElem hlt
    exact ⟨_, hop, (hf.shows h _ hop).gives hs⟩
  · rintro ⟨op, hop, hgives⟩
    have hshow := hf.shows h op hop
    cases op with
    | opening inside limit =>
      obtain ⟨_, -, hs⟩ := hshow
      exact ⟨_, hs⟩
    | clone k =>
      obtain ⟨-, s, -, hs⟩ := hshow
      exact ⟨s, hs⟩
    | cancel k => cases hgives
    | drop k => cases hgives
    | wait d => cases hgives

/-- Every scope has been opened through some handle. -/
theorem origin (hf : f.Records now ops) (hs : f.scope? i = some s) :
    ∃ j inside limit, Same ops i j ∧ ops[j]? = some (.opening inside limit) ∧ f.scope? j = some s := by
  induction i using Nat.strongRecOn with
  | ind i ih =>
    obtain ⟨op, hop, hgives⟩ := hf.given_iff.mp ⟨s, hs⟩
    cases op with
    | opening inside limit => exact ⟨i, inside, limit, ⟨.refl, .refl⟩, hop, hs⟩
    | clone k =>
      obtain ⟨hk, t, ht, hi⟩ := hf.shows i _ hop
      cases hs.symm.trans hi
      obtain ⟨j, inside, limit, ⟨hkj, hjk⟩, hj, hjs⟩ := ih k hk ht
      exact ⟨j, inside, limit, ⟨hkj.head (.original hop), hjk.tail (.copy hop)⟩, hj, hjs⟩
    | cancel k => cases hgives
    | drop k => cases hgives
    | wait d => cases hgives

theorem same_of_id (hf : f.Records now ops) (hs : f.scope? i = some s) (ht : f.scope? k = some t)
    (hid : s.own.id = t.own.id) : Same ops i k := by
  obtain ⟨a, _, _, ⟨hia, hai⟩, ha, has⟩ := hf.origin hs
  obtain ⟨b, _, _, ⟨hkb, hbk⟩, hb, hbt⟩ := hf.origin ht
  obtain ⟨_, -, hsa⟩ := hf.shows a _ ha
  obtain ⟨_, -, htb⟩ := hf.shows b _ hb
  cases has.symm.trans hsa
  cases hbt.symm.trans htb
  have hab : a = b := opened_take_inj ha rfl hb rfl hid
  subst hab
  exact ⟨hia.trans hbk, hkb.trans hai⟩

/-- Every part of a chain from some link on is the chain of a scope around. -/
theorem around_of_suffix (hf : f.Records now ops) (hs : f.scope? i = some s) {l : Link} {rest : List Link}
    (hl : l :: rest <:+ s.chain) : ∃ k, Within ops i k ∧ f.scope? k = some ⟨l, rest⟩ := by
  induction hout : s.outer generalizing i s with
  | nil =>
    rw [Scope.chain, hout, List.suffix_cons_iff] at hl
    obtain ⟨rfl, rfl⟩ : l = s.own ∧ rest = [] := by simpa using hl
    exact ⟨i, .refl, by rw [hs, ← hout]⟩
  | cons a outer ih =>
    rcases List.suffix_cons_iff.mp hl with heq | hl
    · obtain ⟨rfl, rfl⟩ := List.cons.inj heq
      exact ⟨i, .refl, hs⟩
    · obtain ⟨j, inside, limit, ⟨hij, -⟩, hj, hjs⟩ := hf.origin hs
      obtain ⟨_, ha, hsj⟩ := hf.shows j _ hj
      cases hjs.symm.trans hsj
      cases inside with
      | none => cases hout.symm.trans ha
      | some p =>
        obtain ⟨-, t, ht, rfl⟩ := ha
        obtain ⟨k, hpk, hk⟩ := ih ht hl (List.cons.inj hout).2
        exact ⟨k, hij.trans (hpk.head (.parent hj)), hk⟩

theorem suffix_of_within (hf : f.Records now ops) (hs : f.scope? i = some s) (hw : Within ops i k) :
    ∃ t, f.scope? k = some t ∧ t.chain <:+ s.chain := by
  induction hw with
  | refl => exact ⟨s, hs, List.suffix_rfl⟩
  | tail _ hout ih =>
    obtain ⟨t, ht, hsuf⟩ := ih
    cases hout with
    | parent hop =>
      obtain ⟨_, ⟨-, u, hu, rfl⟩, ht'⟩ := hf.shows _ _ hop
      cases ht.symm.trans ht'
      exact ⟨u, hu, (List.suffix_cons _ _).trans hsuf⟩
    | original hop =>
      obtain ⟨-, u, hu, ht'⟩ := hf.shows _ _ hop
      cases ht.symm.trans ht'
      exact ⟨_, hu, hsuf⟩
    | copy hop =>
      obtain ⟨-, u, hu, ht'⟩ := hf.shows _ _ hop
      cases ht.symm.trans hu
      exact ⟨_, ht', hsuf⟩

theorem within_of_mem (hf : f.Records now ops) (hs : f.scope? i = some s) (ht : f.scope? k = some t)
    (hm : t.own ∈ s.chain) : Within ops i k := by
  obtain ⟨before, rest, hsplit⟩ := List.append_of_mem hm
  obtain ⟨j, hij, hj⟩ := hf.around_of_suffix hs ⟨before, hsplit.symm⟩
  exact hij.trans (hf.same_of_id hj ht rfl).1

theorem scope_of_same (hf : f.Records now ops) (hs : f.scope? i = some s) (hw : Same ops i k) :
    f.scope? k = some s := by
  obtain ⟨t, ht, hts⟩ := hf.suffix_of_within hs hw.1
  obtain ⟨u, hu, hut⟩ := hf.suffix_of_within ht hw.2
  cases hs.symm.trans hu
  have heq : t.chain = s.chain := hts.eq_of_length_le hut.length_le
  obtain ⟨hown, houter⟩ := List.cons.inj heq
  rw [ht, show t = s by cases s; cases t; simp_all]

theorem shared_iff (hf : f.Records now ops) (hs : f.scope? h = some s) : f.scope? k = some s ↔ Same ops h k :=
  ⟨fun hk => hf.same_of_id hs hk rfl, hf.scope_of_same hs⟩

theorem possible_iff (hf : f.Records now ops) : (∃ g, f.perform op = some g) ↔
    ∀ k, op.needs = some k → (∃ s, f.scope? k = some s) ∧ .drop k ∉ ops := by
  simp only [exists_perform_iff, exists_held?_iff, hf.dropped]

theorem cancelled_iff (hf : f.Records now ops) (hs : f.scope? h = some s) :
    Cancelled ops h ↔ s.own.id ∈ f.liveness.requested := by
  constructor
  · rintro ⟨k, hk, hsame⟩
    obtain ⟨i, hi⟩ := List.mem_iff_getElem?.mp hk
    obtain ⟨-, t, ht, hreq⟩ := hf.shows i _ hi
    cases ht.symm.trans (hf.scope_of_same hs hsame)
    exact hreq
  · intro hreq
    obtain ⟨k, t, hk, ht, hid⟩ := hf.requested _ hreq
    exact ⟨k, hk, hf.same_of_id hs ht hid.symm⟩

theorem hasDeadline_iff (hf : f.Records now ops) (hs : f.scope? h = some s) {d : Instant} :
    HasDeadline now ops h d ↔ s.own.deadline = some d := by
  constructor
  · rintro ⟨k, inside, limit, hsame, hk, hd⟩
    obtain ⟨_, -, ht⟩ := hf.shows k _ hk
    cases ht.symm.trans (hf.scope_of_same hs hsame)
    exact hd
  · intro hd
    obtain ⟨k, inside, limit, hsame, hk, hks⟩ := hf.origin hs
    obtain ⟨_, -, ht⟩ := hf.shows k _ hk
    cases ht.symm.trans hks
    exact ⟨k, inside, limit, hsame, hk, hd⟩

theorem ends_iff (hf : f.Records now ops) (hs : f.scope? h = some s) {r : Reason} :
    Ends now ops h r ↔ f.liveness.linkReason s.own = some r := by
  rw [Liveness.linkReason_eq_some, hf.clock]
  constructor
  · intro hr
    cases hr with
    | requested hc => exact (hf.cancelled_iff hs).mp hc
    | deadlineExceeded hc hd hle =>
      exact ⟨fun hm => hc ((hf.cancelled_iff hs).mpr hm), _, (hf.hasDeadline_iff hs).mp hd, hle⟩
  · intro hr
    cases r with
    | requested => exact .requested ((hf.cancelled_iff hs).mpr hr)
    | deadlineExceeded =>
      obtain ⟨hc, d, hd, hle⟩ := hr
      exact .deadlineExceeded (fun hm => hc ((hf.cancelled_iff hs).mp hm)) ((hf.hasDeadline_iff hs).mpr hd) hle

theorem exists_mem_chain (hf : f.Records now ops) (hs : f.scope? h = some s) {P : Link → Prop}
    {Q : Nat → Prop} (hPQ : ∀ k t, f.scope? k = some t → (Q k ↔ P t.own)) :
    (∃ l ∈ s.chain, P l) ↔ ∃ k, Within ops h k ∧ Q k := by
  constructor
  · rintro ⟨l, hl, hP⟩
    obtain ⟨before, rest, hsplit⟩ := List.append_of_mem hl
    obtain ⟨k, hk, hks⟩ := hf.around_of_suffix hs ⟨before, hsplit.symm⟩
    exact ⟨k, hk, (hPQ k _ hks).mpr hP⟩
  · rintro ⟨k, hk, hQ⟩
    obtain ⟨t, ht, hsuf⟩ := hf.suffix_of_within hs hk
    exact ⟨t.own, hsuf.subset List.mem_cons_self, (hPQ k t ht).mp hQ⟩

/-- The reason is that of the nearest scope around that ends of its own: all others lie around that one. -/
theorem reason_iff (hf : f.Records now ops) (hs : f.scope? h = some s) {r : Reason} :
    f.liveness.reason s = some r ↔ ∃ k, Within ops h k ∧ Ends now ops k r ∧
      ∀ j r', Within ops h j → Ends now ops j r' → Within ops k j := by
  rw [Liveness.reason, List.findSome?_eq_some_iff]
  constructor
  · rintro ⟨before, l, rest, hsplit, hr, hbefore⟩
    obtain ⟨k, hk, hks⟩ := hf.around_of_suffix hs ⟨before, hsplit.symm⟩
    refine ⟨k, hk, (hf.ends_iff hks).mpr hr, fun j r' hj hends => ?_⟩
    obtain ⟨u, hu, hsuf⟩ := hf.suffix_of_within hs hj
    have hur : f.liveness.linkReason u.own = some r' := (hf.ends_iff hu).mp hends
    have hmem : u.own ∈ before ++ l :: rest := hsplit ▸ hsuf.subset List.mem_cons_self
    rcases List.mem_append.mp hmem with hbad | hin
    · cases (hbefore _ hbad).symm.trans hur
    · exact hf.within_of_mem hks hu hin
  · rintro ⟨k, hk, hends, hnearest⟩
    obtain ⟨t, ht, before, hsplit⟩ := hf.suffix_of_within hs hk
    refine ⟨before, t.own, t.outer, hsplit.symm, (hf.ends_iff ht).mp hends, fun a ha => ?_⟩
    cases har : f.liveness.linkReason a with
    | none => rfl
    | some r' =>
      obtain ⟨front, back, rfl⟩ := List.append_of_mem ha
      have hback : a :: (back ++ t.chain) <:+ s.chain :=
        ⟨front, by rw [← hsplit, List.append_assoc, List.cons_append]⟩
      obtain ⟨j, hj, hjs⟩ := hf.around_of_suffix hs hback
      -- So this scope lies around the nearest one, while its chain is longer.
      obtain ⟨u, hu, hsuf⟩ := hf.suffix_of_within ht (hnearest j r' hj ((hf.ends_iff hjs).mpr har))
      cases hjs.symm.trans hu
      have := hsuf.length_le
      simp [Scope.chain] at this
      omega

theorem within_iff_id (hf : f.Records now ops) (hs : f.scope? h = some s) (ht : f.scope? k = some t) :
    Within ops h k ↔ ∃ l ∈ s.chain, l.id = t.own.id := by
  constructor
  · intro hw
    obtain ⟨u, hu, hsuf⟩ := hf.suffix_of_within hs hw
    cases ht.symm.trans hu
    exact ⟨t.own, hsuf.subset List.mem_cons_self, rfl⟩
  · rintro ⟨l, hl, hid⟩
    obtain ⟨before, rest, hsplit⟩ := List.append_of_mem hl
    obtain ⟨j, hj, hjs⟩ := hf.around_of_suffix hs ⟨before, hsplit.symm⟩
    exact hj.trans (hf.same_of_id hjs ht hid).1

end Records

theorem Performed.live (hp : f.Performed op g) (hl : f.liveness.live s = false) :
    g.liveness.live s = false := by
  rw [Liveness.live_eq_false_iff_deadline] at hl ⊢
  rcases hl with ⟨l, hl, hr⟩ | ⟨d, hd, hnow⟩
  · exact .inl ⟨l, hl, (hp.requested l.id).mpr (.inl hr)⟩
  · exact .inr ⟨d, hd, Nat.le_trans hnow (hp.clock ▸ Nat.le_add_right _ _)⟩

theorem lasting (hr : more.foldlM perform f = some g) :
    f.given <+: g.given ∧ ∀ s, f.liveness.live s = false → g.liveness.live s = false := by
  induction more generalizing f with
  | nil => cases hr; exact ⟨List.prefix_rfl, fun _ hl => hl⟩
  | cons op more ih =>
    obtain ⟨e, he, hr⟩ := Option.bind_eq_some_iff.mp hr
    obtain ⟨hgiven, hlive⟩ := ih hr
    have hp := performed he
    exact ⟨hp.given_extends.trans hgiven, fun s hl => hlive s (hp.live hl)⟩

/-- What the history tells about the scopes of its handles, even those that have been given up. -/
structure Lawful (f : Forest) (now : Instant) (ops : List Operation) : Prop where
  /-- Opening a scope and sharing one give a handle, and nothing else does. -/
  given : ∀ h, (∃ s, f.scope? h = some s) ↔ ∃ op, ops[h]? = some op ∧ op.gives = true
  shared : ∀ h s k, f.scope? h = some s → (f.scope? k = some s ↔ Same ops h k)
  /-- An operation can be performed if the handle that it needs was given and has not been given up. -/
  possible : ∀ op, (∃ g, f.perform op = some g) ↔
    ∀ k, op.needs = some k → (∃ s, f.scope? k = some s) ∧ .drop k ∉ ops
  ended : ∀ h s, f.scope? h = some s → (f.liveness.live s = false ↔
    (∃ k, Within ops h k ∧ .cancel k ∈ ops) ∨ ∃ d, s.deadline = some d ∧ d ≤ now + elapsed ops)
  deadline : ∀ h s, f.scope? h = some s → ∀ d, s.deadline = some d ↔
    IsLeast {x | ∃ k, Within ops h k ∧ HasDeadline now ops k x} d
  reason : ∀ h s, f.scope? h = some s → ∀ r, f.liveness.reason s = some r ↔
    ∃ k, Within ops h k ∧ Ends now ops k r ∧
      ∀ j r', Within ops h j → Ends now ops j r' → Within ops k j
  /-- No scope has a later deadline than one around it. -/
  inherited : ∀ h s k t d, f.scope? h = some s → f.scope? k = some t → Within ops h k →
    t.deadline = some d → ∃ d' ≤ d, s.deadline = some d'
  /-- Whatever happens next, a scope stays what it is and does not come back. -/
  lasting : ∀ more g, run now (ops ++ more) = some g → ∀ h s, f.scope? h = some s →
    g.scope? h = some s ∧ (f.liveness.live s = false → g.liveness.live s = false)
  /-- Cancelling ends the scope and those inside it, and changes nothing for others. -/
  cancelling : ∀ k g, f.perform (.cancel k) = some g → ∀ h s, f.scope? h = some s →
    (g.liveness.live s = false ↔ f.liveness.live s = false ∨ Within ops h k) ∧
      (¬ Within ops h k → g.liveness.reason s = f.liveness.reason s)

theorem Records.ended (hf : f.Records now ops) (hs : f.scope? h = some s) : f.liveness.live s = false ↔
    (∃ k, Within ops h k ∧ .cancel k ∈ ops) ∨ ∃ d, s.deadline = some d ∧ d ≤ now + elapsed ops := by
  rw [Liveness.live_eq_false_iff_deadline, hf.clock,
    hf.exists_mem_chain hs fun k t ht => hf.cancelled_iff ht]
  refine or_congr_left ⟨?_, ?_⟩
  · rintro ⟨k, hk, j, hj, hkj, -⟩
    exact ⟨j, hk.trans hkj, hj⟩
  · rintro ⟨k, hk, hc⟩
    exact ⟨k, hk, k, hc, .refl, .refl⟩

theorem Records.cancelling (hf : f.Records now ops) (hp : f.perform (.cancel k) = some g)
    (hs : f.scope? h = some s) :
    (g.liveness.live s = false ↔ f.liveness.live s = false ∨ Within ops h k) ∧
      (¬ Within ops h k → g.liveness.reason s = f.liveness.reason s) := by
  obtain ⟨t, ht, rfl⟩ := Option.map_eq_some_iff.mp hp
  have hwithin := hf.within_iff_id hs (scope?_of_held? ht)
  constructor
  · rw [Liveness.live_eq_false_iff_deadline, Liveness.live_eq_false_iff_deadline, hwithin]
    simp only [record, Liveness.cancel, List.mem_cons, and_or_left, exists_or]
    rw [or_comm (a := ∃ l ∈ s.chain, l.id = t.own.id), or_right_comm]
  · intro hn
    refine ((Liveness.Alike.refl s f.liveness).cancel fun l hl hid => ?_).reason
    exact hn (hwithin.mpr ⟨l, hl, hid⟩)

theorem run_lawful (hr : run now ops = some f) : f.Lawful now ops := by
  have hf := records_of_run hr
  refine ⟨fun h => hf.given_iff, fun h s k hs => hf.shared_iff hs, fun op => hf.possible_iff,
    fun h s hs => hf.ended hs, fun h s hs d => ?_, fun h s hs r => hf.reason_iff hs,
    fun h s k t d hs ht hw hd => ?_, fun more g hg h s hs => ?_, fun k g hp h s hs => hf.cancelling hp hs⟩
  · have hset : {x | ∃ l ∈ s.chain, l.deadline = some x} =
        {x | ∃ k, Within ops h k ∧ HasDeadline now ops k x} :=
      Set.ext fun x => hf.exists_mem_chain hs fun k t ht => hf.hasDeadline_iff ht
    rw [Scope.deadline_eq_some, hset]
  · obtain ⟨u, hu, hsuf⟩ := hf.suffix_of_within hs hw
    cases ht.symm.trans hu
    exact Scope.deadline_le hsuf hd
  · rw [run_append, hr] at hg
    obtain ⟨hgiven, hlive⟩ := Forest.lasting hg
    exact ⟨scope?_of_extends hgiven hs, hlive s⟩

/-- A child whose own timeout is too long, inside a scope that is cancelled through another handle, inside one
that has been given up. -/
theorem run_lawful_nested :
    let ops : List Operation := [.opening none (.after ⟨50⟩), .opening (some 0) .never,
      .opening (some 1) (.after ⟨Liveness.horizon⟩), .clone 1, .drop 0, .wait 20, .cancel 3]
    let root : Scope := ⟨⟨0, some 150⟩, []⟩
    let middle : Scope := ⟨⟨1, none⟩, root.chain⟩
    let inner : Scope := ⟨⟨2, none⟩, middle.chain⟩
    ∃ f, run 100 ops = some f ∧ f.Lawful 100 ops ∧
      f.scope? 0 = some root ∧ f.scope? 1 = some middle ∧ f.scope? 2 = some inner ∧ f.scope? 3 = some middle ∧
      f.held? 0 = none ∧ [root, middle, inner].map Scope.deadline = [some 150, some 150, some 150] ∧
      [root, middle, inner].map f.liveness.reason = [none, some .requested, some .requested] := by
  intro ops root middle inner
  let f : Forest := ⟨⟨120, [1], 3⟩, [some root, some middle, some inner, some middle, none, none, none], [0]⟩
  have hr : run 100 ops = some f := by decide +kernel
  exact ⟨f, hr, run_lawful hr, rfl, rfl, rfl, rfl, rfl, by decide +kernel, by decide +kernel⟩

end Forest

end Exclusion
