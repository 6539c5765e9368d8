import Circulation.Rule.Condition
import Circulation.Rule.Policy

/-!
Contract: what one line of rule text says, and what can be wrong with it.

Owns:
- `Statement`, the meaning of a line taken by itself;
- `SyntaxFault`, the causes of a refusal and their wording;
- `ParseError`, a fault with its place in the text.

Does not own: how characters become statements.
-/

namespace Circulation

/-- What one line of rule text says. -/
inductive Statement where
  /-- Policies for the queries that no line decides. -/
  | fallback (assignments : List (PolicyKind × String))
  /-- Policies for the queries that meet the constraints; without constraints, for all. -/
  | rule (constraints : List (Facet × Condition)) (assignments : List (PolicyKind × String))
deriving DecidableEq, Repr

/-- What is wrong with a line of rule text. -/
inductive SyntaxFault where
  | unknownFacet
  | missingListedId
  | unclosedIdList
  /-- Conditions or the fallback keyword are not followed by a colon. -/
  | missingColon
  | unknownKind
  | missingPolicyId
  | trailingText
  | repeatedFacet (facet : Facet)
  | repeatedKind (kind : PolicyKind)
deriving DecidableEq, Repr

namespace SyntaxFault

def reason : SyntaxFault → String
  | unknownFacet => "invalid facet keyword"
  | missingListedId => "expected id, id list"
  | unclosedIdList => "expected id list"
  | missingColon => "expected `:`"
  | unknownKind => "invalid policy kind"
  | missingPolicyId => "expected id"
  | trailingText => "expected end of line"
  | repeatedFacet facet => s!"{facet.keyword} constrained more than once"
  | repeatedKind kind => s!"{kind.keyword} policy assigned more than once"

end SyntaxFault

/-- A fault, the number of its line, and the token at which it shows. The token is empty where the
line ends too early. -/
structure ParseError where
  line : UInt32
  token : String
  fault : SyntaxFault
deriving DecidableEq, Repr

namespace ParseError

def message (error : ParseError) : String :=
  if error.token.isEmpty then
    s!"syntax error on line {error.line} at end of line: {error.fault.reason}"
  else s!"syntax error on line {error.line} at '{error.token}': {error.fault.reason}"

end ParseError

end Circulation
