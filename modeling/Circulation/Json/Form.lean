import Circulation.Json.Value
import Circulation.Place.Level
import Circulation.Resolution.Match
import Circulation.Rule.Condition
import Circulation.Rule.Policy

/-!
Contract: the JSON forms of the library's values.

Owns:
- for each type one form that is written;
- the forms that are read, which are more: arrays in place of objects, objects in place of names,
  and ids in any order and number.

Does not own: the text of JSON.
-/

namespace Circulation

/-! ## Names -/

namespace Facet

def toJson (facet : Facet) : Json :=
  .text facet.keyword

/-- A facet is read by its name, not by its letter. -/
def ofJson? (json : Json) : Option Facet := do
  let name ← json.variantName?
  all.find? fun facet => facet.keyword == name

end Facet

namespace PolicyKind

def toJson (kind : PolicyKind) : Json :=
  .text kind.keyword

/-- A kind is read by its name, not by its letter. -/
def ofJson? (json : Json) : Option PolicyKind := do
  let name ← json.variantName?
  all.find? fun kind => kind.keyword == name

end PolicyKind

/-! ## Conditions -/

namespace Condition

/-- The name `Any`, or one member with the ids in ascending order. -/
def toJson : Condition → Json
  | any => .text "Any"
  | isIn ids => .object [("In", .texts ids.ids)]
  | notIn ids => .object [("NotIn", .texts ids.ids)]

/-- The name `Any` in either form, or one member with ids. -/
def ofJson? : Json → Option Condition
  | .object [("In", ids)] => ids.texts?.map fun listed => .isIn (.ofList listed)
  | .object [("NotIn", ids)] => ids.texts?.map fun listed => .notIn (.ofList listed)
  | json => if json.variantName? = some "Any" then some any else none

end Condition

/-! ## Chains and matches -/

namespace Ancestors

def fieldNames : List String :=
  ["library", "campus", "institution"]

def toJson (ancestors : Ancestors) : Json :=
  .object
    [("library", .text ancestors.library), ("campus", .text ancestors.campus),
      ("institution", .text ancestors.institution)]

/-- The three ids, as an object or as an array. -/
def ofJson? (json : Json) : Option Ancestors := do
  match ← json.fields? fieldNames with
  | [library, campus, institution] =>
      return ⟨← library.text?, ← campus.text?, ← institution.text?⟩
  | _ => none

end Ancestors

namespace Match

def fieldNames : List String :=
  ["policyId", "circulationRuleLine", "specificity"]

def toJson (found : Match) : Json :=
  .object
    [("policyId", .text found.policyId),
      ("circulationRuleLine", .ofNat found.line.toNat),
      ("specificity", .ofNat found.specificity.toNat)]

/-- The policy, the line and its specificity, as an object or as an array. Numbers that a match
cannot hold are refused. -/
def ofJson? (json : Json) : Option Match := do
  match ← json.fields? fieldNames with
  | [policyId, line, specificity] =>
      return ⟨← policyId.text?, .ofNat (← line.natBelow? UInt32.size),
        .ofNat (← specificity.natBelow? UInt8.size)⟩
  | _ => none

end Match

namespace MatchList

def toJson (found : MatchList) : Json :=
  .array (found.entries.map Match.toJson)

/-- Any matches, in the order in which they stand. -/
def ofJson? : Json → Option MatchList
  | .array items => (items.mapM Match.ofJson?).map MatchList.mk
  | _ => none

end MatchList

end Circulation
