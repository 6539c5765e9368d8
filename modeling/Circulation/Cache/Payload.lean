import Circulation.Cache.Blake3
import Circulation.Rule.RuleSet

/-!
Contract: the stored form of a rule set, before it is bytes.

Owns:
- `Payload`, which may hold what no rule set holds;
- the payload of a rule set.

Does not own: which payloads are stored forms of rule sets, or what surrounds a payload in a cache.
-/

namespace Circulation.Cache

/-! ## Stored values -/

/-- A stored condition; its ids may stand in any order and more than once. -/
inductive StoredCondition where
  | any
  | isIn (ids : List String)
  | notIn (ids : List String)
deriving DecidableEq, Repr

/-- A stored rule line, with any number of conditions and any assignments. -/
structure StoredLine where
  number : UInt32
  conditions : List StoredCondition
  policies : List (PolicyKind × String)
deriving DecidableEq, Repr

/-- A stored rule set, with the digest of the rule text it was made from, if that was known. -/
structure Payload where
  lineCount : Nat
  sourceDigest : Option Digest
  defaults : List (PolicyKind × String)
  lines : List StoredLine
  rankings : List (List Nat)
deriving DecidableEq, Repr

namespace StoredCondition

def ofCondition : Condition → StoredCondition
  | .any => any
  | .isIn ids => isIn ids.ids
  | .notIn ids => notIn ids.ids

def toCondition : StoredCondition → Condition
  | any => .any
  | isIn ids => .isIn (.ofList ids)
  | notIn ids => .notIn (.ofList ids)

end StoredCondition

namespace Payload

def ofLine (line : RuleLine) : StoredLine where
  number := line.number
  conditions := line.conditions.toList.map StoredCondition.ofCondition
  policies := line.policies.entries

def ofRuleSet (rules : RuleSet) (sourceDigest : Option Digest) : Payload where
  lineCount := rules.size
  sourceDigest := sourceDigest
  defaults := rules.defaults.entries
  lines := rules.lines.toList.map ofLine
  rankings := rules.ranked.toList

end Payload

end Circulation.Cache
