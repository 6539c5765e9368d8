/-!
Contract: the levels of the location hierarchy, and the chain above a shelving location.

Owns:
- the four levels, their names and their depth;
- `Ancestors`, what lies above a shelving location at each of the other levels.

Does not own: how the chain of a location is found.
-/

namespace Circulation

/-- A level of the location hierarchy, from the widest to the narrowest. -/
inductive Level where
  | institution
  | campus
  | library
  | location
deriving DecidableEq, Repr

namespace Level

def name : Level → String
  | institution => "institution"
  | campus => "campus"
  | library => "library"
  | location => "location"

/-- The depth of a level: what constraining it adds to the specificity of a line. -/
def rank : Level → UInt8
  | institution => 1
  | campus => 2
  | library => 3
  | location => 4

end Level

/-- What lies above a shelving location. -/
structure Ancestors where
  library : String
  campus : String
  institution : String
deriving DecidableEq, Repr

namespace Ancestors

/-- The id at a level; the chain does not hold the shelving location itself. -/
def at? (ancestors : Ancestors) : Level → Option String
  | .institution => some ancestors.institution
  | .campus => some ancestors.campus
  | .library => some ancestors.library
  | .location => none

end Ancestors

end Circulation
