import Circulation.Place.Hierarchy
import Circulation.Resolution.Match
import Circulation.Resolution.Query
import Circulation.Rule.RuleSet

/-!
Contract: the answers of a rule set and a hierarchy to a query.

Owns:
- the best match and the list of all matches of a query;
- the errors of a resolution, their order and their wording.

Does not own: how rule sets and hierarchies are made or kept.
-/

namespace Circulation

inductive ResolutionError where
  | unknownLocation (location : String)
  | unknownPolicyKind (kind : PolicyKind)
deriving DecidableEq, Repr

namespace ResolutionError

def message : ResolutionError → String
  | unknownLocation location => s!"unknown shelving location '{location}'"
  | unknownPolicyKind kind => s!"rule set has no fallback-policy for {kind.keyword} policies"

end ResolutionError

namespace Hierarchy

/-- What lies above a shelving location that a query names. -/
def ancestorsOf (hierarchy : Hierarchy) (location : String) :
    Except ResolutionError Ancestors :=
  match hierarchy.ancestors? location with
  | some ancestors => .ok ancestors
  | none => .error (.unknownLocation location)

end Hierarchy

namespace RuleLine

/-- The match that the line yields for a kind, if it assigns it. -/
def match? (line : RuleLine) (kind : PolicyKind) : Option Match :=
  (line.policies.get kind).map fun policyId => ⟨policyId, line.number, line.specificity⟩

end RuleLine

namespace RuleSet

/-- The default policy for a kind that a query asks for. -/
def fallbackFor (rules : RuleSet) (kind : PolicyKind) : Except ResolutionError Match :=
  match rules.defaults.get kind with
  | some policyId => .ok (Match.fallback policyId)
  | none => .error (.unknownPolicyKind kind)

/-- The first line tried that accepts the query decides; if none does, the default policy does.
A kind without default is reported before an unknown location. -/
def resolveOne (rules : RuleSet) (hierarchy : Hierarchy) (query : Query) :
    Except ResolutionError Match := do
  let fallback ← rules.fallbackFor query.kind
  let ancestors ← hierarchy.ancestorsOf query.location
  let deciding := (rules.rankedLines query.kind).find? fun line => line.accepts query ancestors
  return (deciding.bind fun line => line.match? query.kind).getD fallback

/-- Every line that accepts the query, in the order in which they are tried, and then the default
policy. A kind without default is reported before an unknown location. -/
def resolveAll (rules : RuleSet) (hierarchy : Hierarchy) (query : Query) :
    Except ResolutionError MatchList := do
  let fallback ← rules.fallbackFor query.kind
  let ancestors ← hierarchy.ancestorsOf query.location
  let accepting := (rules.rankedLines query.kind).filter fun line => line.accepts query ancestors
  return ⟨accepting.filterMap (fun line => line.match? query.kind) ++ [fallback]⟩

/-- The lines that accept a query, in the order they were written, whatever kinds they assign. -/
def acceptingLines (rules : RuleSet) (query : Query) (ancestors : Ancestors) : List RuleLine :=
  rules.lines.toList.filter fun line => line.accepts query ancestors

end RuleSet

end Circulation
