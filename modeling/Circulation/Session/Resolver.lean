import Circulation.Session.Journal

/-!
Contract: a rule set and a hierarchy that answer queries together.

Owns:
- `Resolver`, and the replacement of either of its parts;
- its answers to a transaction, one policy or all that could apply.

Does not own: the names under which resolvers are kept.
-/

namespace Circulation

/-- A snapshot of the rules together with a snapshot of the locations. -/
structure Resolver where
  rules : RuleSet
  locations : Hierarchy
deriving DecidableEq, Repr

namespace Resolver

def withRules (resolver : Resolver) (rules : RuleSet) : Resolver :=
  { resolver with rules := rules }

def withLocations (resolver : Resolver) (locations : Hierarchy) : Resolver :=
  { resolver with locations := locations }

/-- The resolver of a rule text and location records. Errors of the text come first. -/
def make (text : String) (records : List LocationRecord) : Recorded Resolver := do
  let rules ← Recorded.compileText text
  let locations ← Recorded.buildHierarchy records
  return ⟨rules, locations⟩

/-- The resolver with its rules written to a cache and read back. -/
def reload (resolver : Resolver) : Recorded Resolver := do
  let blob ← Recorded.encode resolver.rules none
  let rules ← Recorded.decode blob
  return resolver.withRules rules

/-- The id of the one policy that applies to a query. -/
def policy (resolver : Resolver) (query : Query) : Recorded String := do
  let found ← Recorded.resolveOne resolver.rules resolver.locations query
  return found.policyId

/-- Every policy that could apply to a query, the best first and the default last. -/
def policies (resolver : Resolver) (query : Query) : Recorded MatchList :=
  Recorded.resolveAll resolver.rules resolver.locations query

end Resolver

end Circulation
