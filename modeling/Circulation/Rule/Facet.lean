import Circulation.Place.Level

/-!
Contract: the seven facets that a rule line can constrain.

Owns:
- the facets, their order and their two spellings in rule text;
- which facets are places.

Does not own: the values a facet is tested on, or the conditions on it.
-/

namespace Circulation

/-- One independent dimension a rule line can constrain.

Three facets are compared with the query directly; the places are compared with
the query's location and what lies above it. -/
inductive Facet where
  | itemType
  | loanType
  | patronGroup
  | place (level : Level)
deriving DecidableEq, Repr

namespace Facet

/-- Every facet, in the order in which lines are written and stored. -/
def all : List Facet :=
  [itemType, loanType, patronGroup,
    place .institution, place .campus, place .library, place .location]

/-- The one-letter spelling of a facet in rule text. -/
def letter : Facet → Char
  | itemType => 'm'
  | loanType => 't'
  | patronGroup => 'g'
  | place .institution => 'a'
  | place .campus => 'b'
  | place .library => 'c'
  | place .location => 's'

/-- The long spelling of a facet in rule text, which is also its name. -/
def keyword : Facet → String
  | itemType => "item-type"
  | loanType => "loan-type"
  | patronGroup => "patron-group"
  | place level => level.name

/-- The facet that a word of rule text names, in either spelling. -/
def ofKeyword? (word : String) : Option Facet :=
  all.find? fun facet => word == facet.keyword || word == facet.letter.toString

/-- The level of a place; a facet that is compared directly has none. -/
def level? : Facet → Option Level
  | place level => some level
  | _ => none

def rank? (facet : Facet) : Option UInt8 :=
  facet.level?.map Level.rank

def isPlace (facet : Facet) : Bool :=
  facet.level?.isSome

theorem mem_all (facet : Facet) : facet ∈ all := by
  rcases facet with _ | _ | _ | level
  · decide
  · decide
  · decide
  · cases level <;> decide

theorem nodup_all : all.Nodup := by
  decide

@[simp] theorem ofKeyword?_keyword (facet : Facet) : ofKeyword? facet.keyword = some facet := by
  rcases facet with _ | _ | _ | level
  · decide
  · decide
  · decide
  · cases level <;> decide

@[simp] theorem ofKeyword?_letter (facet : Facet) :
    ofKeyword? facet.letter.toString = some facet := by
  rcases facet with _ | _ | _ | level
  · decide
  · decide
  · decide
  · cases level <;> decide

end Facet

end Circulation
