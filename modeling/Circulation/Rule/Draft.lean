import Circulation.Rule.Line

/-!
Contract: fallbacks and rule lines as they are written down, before they are checked together.

Owns:
- `RuleDraft`, and that drafts follow one another;
- drafts made step by step, with the numbering of the steps.

Does not own: reading a draft from rule text, or the checks that make it a rule set.
-/

namespace Circulation

structure Fallback where
  line : UInt32
  kind : PolicyKind
  policyId : String
deriving DecidableEq, Repr

/-- Fallbacks and rule lines, each with the number of the line it was written on. -/
structure RuleDraft where
  fallbacks : List Fallback := []
  lines : List RuleLine := []
deriving DecidableEq, Repr

namespace RuleDraft

def empty : RuleDraft :=
  {}

protected def append (first second : RuleDraft) : RuleDraft :=
  ⟨first.fallbacks ++ second.fallbacks, first.lines ++ second.lines⟩

instance : Append RuleDraft := ⟨RuleDraft.append⟩

@[simp] theorem fallbacks_append (first second : RuleDraft) :
    (first ++ second).fallbacks = first.fallbacks ++ second.fallbacks :=
  rfl

@[simp] theorem lines_append (first second : RuleDraft) :
    (first ++ second).lines = first.lines ++ second.lines :=
  rfl

end RuleDraft

/-! ## Drafts made step by step -/

/-- One thing said about a rule line. Of two sayings on the same facet or kind the later counts. -/
inductive LineDetail where
  | condition (facet : Facet) (condition : Condition)
  | policy (kind : PolicyKind) (policyId : String)
deriving DecidableEq, Repr

inductive DraftStep where
  | fallback (kind : PolicyKind) (policyId : String)
  | line (details : List LineDetail)
deriving DecidableEq, Repr

structure LineParts where
  conditions : Conditions := .unconstrained
  policies : PolicyMap := .empty
deriving DecidableEq, Repr

/-- The parts of a line with one more thing said about it. -/
def LineParts.withDetail (parts : LineParts) : LineDetail → LineParts
  | .condition facet condition => { parts with conditions := parts.conditions.set facet condition }
  | .policy kind policyId => { parts with policies := parts.policies.insert kind policyId }

/-- The line of which all `details` are said, in order. -/
def RuleLine.ofDetails (number : UInt32) (details : List LineDetail) : RuleLine :=
  let parts := details.foldl LineParts.withDetail {}
  .scored number parts.conditions parts.policies

namespace RuleDraft

/-- What one step writes down on the line with a number. -/
def ofStep (number : UInt32) : DraftStep → RuleDraft
  | .fallback kind policyId => { fallbacks := [⟨number, kind, policyId⟩] }
  | .line details => { lines := [RuleLine.ofDetails number details] }

/-- What steps write down, the first of them on line `number`. -/
def ofStepsFrom (number : Nat) : List DraftStep → RuleDraft
  | [] => .empty
  | step :: rest => ofStep (UInt32.ofNat number) step ++ ofStepsFrom (number + 1) rest

/-- What steps write down; they take the line numbers from 1. -/
def ofSteps (steps : List DraftStep) : RuleDraft :=
  ofStepsFrom 1 steps

end RuleDraft

end Circulation
