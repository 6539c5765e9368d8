import Circulation.Rule.Condition
import Circulation.Rule.Policy

/-!
Contract: one line of a rule set.

Owns:
- `RuleLine`, and the line that conditions and policies make;
- the order in which lines are tried;
- the written form of a line.

Does not own: where the number of a line comes from, or which queries it accepts.
-/

namespace Circulation

/-- A conditional assignment of policies, known by its line number. How specific it is stands with
it, so that it is computed once. -/
structure RuleLine where
  number : UInt32
  conditions : Conditions
  policies : PolicyMap
  specificity : UInt8
deriving DecidableEq, Repr

namespace RuleLine

/-- The line that is as specific as its conditions are. -/
def scored (number : UInt32) (conditions : Conditions) (policies : PolicyMap) : RuleLine :=
  ⟨number, conditions, policies, conditions.specificity⟩

def isCatchAll (line : RuleLine) : Bool :=
  line.conditions.constrained.isEmpty

/-- Whether a line is tried no later than another: the more specific one first, and of two equally
specific ones the one with the greater number. -/
def precedes (line other : RuleLine) : Bool :=
  other.specificity < line.specificity ||
    (line.specificity == other.specificity && other.number ≤ line.number)

/-- One constraint as rule text writes it: the letter of the facet, then the condition. -/
def renderConstraint (conditions : Conditions) (facet : Facet) : String :=
  facet.letter.toString ++ " " ++ (conditions.get facet).render

def renderConditions (line : RuleLine) : String :=
  if line.isCatchAll then "all"
  else " + ".intercalate (line.conditions.constrained.map (renderConstraint line.conditions))

def render (line : RuleLine) : String :=
  toString line.number ++ ": " ++ line.renderConditions ++ " => " ++ line.policies.render

end RuleLine

end Circulation
