import Exclusion.Proofs.Evaluation.Run
import Exclusion.Proofs.Filter.Compilation
import Exclusion.Proofs.Rule.Translation
import Mathlib.Data.List.DropRight

/-! # Carriage returns behind lines

Carriage returns at the end of a line say nothing. Lines that differ in them alone fail to compile alike, or
have rules with the same expression, and the matchers of such lines tell the same about every path whatever
happens meanwhile, except that each names the line that it was given.
-/

namespace Exclusion

open Evaluation

/-- The same line but for carriage returns at its end. -/
def SameLine (l l' : String) : Prop := l.toList.rdropWhile (· == '\r') = l'.toList.rdropWhile (· == '\r')

inductive SameFailure : Failure → Failure → Prop
  | compile {l l' : String} (h : SameLine l l') (c : Cause) :
    SameFailure (.compile .gitignore l c) (.compile .gitignore l' c)

structure Verdict.SameAnswer (v v' : Verdict) : Prop where
  isMatch : v.isMatch = v'.isMatch
  dialect : v.dialect = v'.dialect
  source : SameLine v.source v'.source

theorem SameLine.refl (l : String) : SameLine l l := rfl

theorem SameLine.trim {l l' : String} (h : SameLine l l') :
    Rule.Form.trim l.toList = Rule.Form.trim l'.toList := by
  have hnoReturns : (l.toList.reverse.dropWhile (· == '\r')).reverse =
    (l'.toList.reverse.dropWhile (· == '\r')).reverse := h
  rw [Rule.Form.trim, Rule.Form.trim, hnoReturns]

namespace Rule

structure Same (r r' : Rule) : Prop where
  source : SameLine r.source r'.source
  text : r.text = r'.text
  expr : r.expr = r'.expr
  negated : r.negated = r'.negated

/-- What a line compiles to depends on what is left of it when it is trimmed. -/
theorem ofLine_same {l l' : String} (h : SameLine l l') :
    Resemble SameFailure (Option.Rel Same) (ofLine l) (ofLine l') := by
  have hform : Form.ofLine? l.toList = Form.ofLine? l'.toList := by
    rw [ofLine?_eq, ofLine?_eq, h.trim]
  unfold ofLine
  rw [hform]
  cases Form.ofLine? l'.toList with
  | none => exact .ok .none
  | some form =>
    cases hc : Expr.compile form.text with
    | ok e => simp only [hc]; exact .ok (.some ⟨h, rfl, rfl, rfl⟩)
    | error f => simp only [hc]; exact .error (.compile h _)

end Rule

namespace RuleGroup

def sources : RuleGroup → List String
  | sequential rules => rules.map (·.source)
  | joint sources _ => sources

def search (g : RuleGroup) (path : String) (s : Scope) : Evaluation (Option Nat) :=
  match g with
  | sequential rules => scan (·.matchesPath path) s 0 rules
  | joint _ set => do
    check s
    return set.find? path

structure Same (g g' : RuleGroup) : Prop where
  search : ∀ path s, g.search path s = g'.search path s
  sources : List.Forall₂ SameLine g.sources g'.sources

theorem length_sources (g : RuleGroup) : g.sources.length = g.length := by
  cases g with
  | sequential rules => exact List.length_map _
  | joint sources set => rfl

theorem find_eq (g : RuleGroup) (path : String) (s : Scope) :
    g.find path s = (do return (← g.search path s).bind fun i => g.sources[i]?) := by
  cases g with
  | sequential rules =>
    refine congrArg (scan (·.matchesPath path) s 0 rules >>= ·) (funext fun found => ?_)
    simp only [sources, List.getElem?_map, Option.map_bind]
    rfl
  | joint sources set => simp only [find, search, RuleGroup.sources, bind_assoc, pure_bind]

variable {rules rules' : List Rule}

theorem rel_getElem? {α β : Type} {R : α → β → Prop} {l : List α} {l' : List β} (h : List.Forall₂ R l l')
    (i : Nat) : Option.Rel R l[i]? l'[i]? := by
  induction h generalizing i with
  | nil => exact .none
  | cons hab _ ih =>
    cases i with
    | zero => exact .some hab
    | succ i => exact ih i

theorem rel_found {α β : Type} {R : α → β → Prop} {l : List α} {l' : List β} (h : List.Forall₂ R l l')
    (found : Option Nat) : Option.Rel R (found.bind fun i => l[i]?) (found.bind fun i => l'[i]?) := by
  cases found with
  | none => exact .none
  | some i => exact rel_getElem? h i

theorem scan_same (h : List.Forall₂ Rule.Same rules rules') (path : String) (s : Scope) (i : Nat) :
    scan (·.matchesPath path) s i rules = scan (·.matchesPath path) s i rules' := by
  induction h generalizing i with
  | nil => rfl
  | cons hr _ ih => rw [scan, scan, ih, Rule.matchesPath, Rule.matchesPath, hr.expr]

theorem ofRules_same (h : List.Forall₂ Rule.Same rules rules') (concurrent : Bool) :
    Resemble SameFailure Same (ofRules rules concurrent) (ofRules rules' concurrent) := by
  have hsources : List.Forall₂ SameLine (rules.map (·.source)) (rules'.map (·.source)) :=
    List.forall₂_map_left_iff.mpr (List.forall₂_map_right_iff.mpr (h.imp fun _ _ hr => hr.source))
  have htexts : rules.map (·.text) = rules'.map (·.text) :=
    List.forall₂_eq_eq_eq ▸ List.forall₂_map_left_iff.mpr
      (List.forall₂_map_right_iff.mpr (h.imp fun _ _ hr => hr.text))
  unfold ofRules
  cases concurrent with
  | false => exact .ok ⟨fun path s => scan_same h path s 0, hsources⟩
  | true =>
    rw [if_pos rfl, if_pos rfl, htexts]
    cases PatternSet.ofPatterns (rules'.map (·.text)) with
    | ok set => exact .ok ⟨fun _ _ => rfl, hsources⟩
    | error b =>
      have hblamed := rel_getElem? hsources b.index
      refine .error (.compile ?_ _)
      rw [← List.getElem?_map, ← List.getElem?_map]
      generalize (rules.map (·.source))[b.index]? = x, (rules'.map (·.source))[b.index]? = y at hblamed ⊢
      cases hblamed with
      | none => exact .refl _
      | some hs => exact hs

end RuleGroup

namespace RuleMatcher

variable {m m' : RuleMatcher}

theorem outcomes_bind {α β : Type} {R : β → β → Prop} (e : Evaluation α) {f g : α → Evaluation β}
    (h : ∀ a w, Outcomes R ((f a).run w).1 ((g a).run w).1) (w : World) :
    Outcomes R ((e >>= f).run w).1 ((e >>= g).run w).1 := by
  rw [run_bind, run_bind]
  cases (e.run w).1 with
  | ok a => exact h a _
  | error x => exact .error x

/-- Whatever happens meanwhile, matchers of the same groups fail alike or give the same answer. -/
theorem evaluate_same (hp : m.positive.Same m'.positive) (hn : m.negative.Same m'.negative) (path : String)
    (s : Scope) (w : World) :
    Outcomes Verdict.SameAnswer ((m.evaluate path s).run w).1 ((m'.evaluate path s).run w).1 := by
  simp only [evaluate, RuleGroup.find_eq, bind_assoc, pure_bind, hp.search, hn.search]
  refine outcomes_bind _ (fun _ => outcomes_bind _ fun i w => ?_) w
  have hrule := RuleGroup.rel_found hp.sources i
  generalize (i.bind fun i => m.positive.sources[i]?) = rule,
    (i.bind fun i => m'.positive.sources[i]?) = rule' at hrule ⊢
  cases hrule with
  | none => exact .ok ⟨rfl, rfl, .refl _⟩
  | some hrule =>
    refine outcomes_bind _ (fun j w => ?_) w
    have hnegation := RuleGroup.rel_found hn.sources j
    generalize (j.bind fun i => m.negative.sources[i]?) = negation,
      (j.bind fun i => m'.negative.sources[i]?) = negation' at hnegation ⊢
    cases hnegation with
    | none => exact .ok ⟨rfl, rfl, hrule⟩
    | some _ => exact .ok ⟨rfl, rfl, .refl _⟩

end RuleMatcher

end Exclusion
