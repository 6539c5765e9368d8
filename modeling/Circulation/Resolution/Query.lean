import Circulation.Place.Level
import Circulation.Rule.Line

/-!
Contract: the question a resolution answers, and the lines that accept it.

Owns:
- `Query`, its written form, and the value it offers to each facet;
- whether a rule line accepts a query.

Does not own: how the chain above the location of a query is found.
-/

namespace Circulation

/-- The ids of one circulation transaction, and the kind of policy it asks for. -/
structure Query where
  kind : PolicyKind
  itemType : String
  loanType : String
  patronGroup : String
  location : String
deriving DecidableEq, Repr

namespace Query

def withKind (query : Query) (kind : PolicyKind) : Query :=
  { query with kind := kind }

/-- The value that the query offers to a facet, given what lies above its location. -/
def value (query : Query) (ancestors : Ancestors) : Facet → String
  | .itemType => query.itemType
  | .loanType => query.loanType
  | .patronGroup => query.patronGroup
  | .place .institution => ancestors.institution
  | .place .campus => ancestors.campus
  | .place .library => ancestors.library
  | .place .location => query.location

def render (query : Query) : String :=
  s!"{query.kind.keyword} policy for m {query.itemType} t {query.loanType} " ++
    s!"g {query.patronGroup} s {query.location}"

end Query

namespace RuleLine

/-- Whether every condition of the line accepts the value that the query offers to its facet.

Places are tested at their own level of the chain, so a line that names an institution accepts every
location beneath it. -/
def accepts (line : RuleLine) (query : Query) (ancestors : Ancestors) : Bool :=
  Facet.all.all fun facet => (line.conditions.get facet).accepts (query.value ancestors facet)

end RuleLine

end Circulation
