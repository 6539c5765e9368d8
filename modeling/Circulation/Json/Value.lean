/-!
Contract: JSON values.

Owns:
- `Json`, with the members of an object in a fixed order;
- the small readers from which the forms of other types are made.

Does not own: the text of JSON, or the forms of particular types.
-/

namespace Circulation

/-- A JSON value. A number is `mantissa` divided by ten as often as it has decimal places. -/
inductive Json where
  | null
  | boolean (value : Bool)
  | number (mantissa : Int) (places : Nat)
  | text (value : String)
  | array (items : List Json)
  | object (members : List (String × Json))
deriving Repr, BEq, Inhabited

namespace Json

def ofNat (value : Nat) : Json :=
  number value 0

def texts (values : List String) : Json :=
  array (values.map text)

def text? : Json → Option String
  | text value => some value
  | _ => none

/-- A natural number below a bound, written without decimal places. -/
def natBelow? (bound : Nat) : Json → Option Nat
  | number (.ofNat value) 0 => if value < bound then some value else none
  | _ => none

def texts? : Json → Option (List String)
  | array items => items.mapM text?
  | _ => none

/-- The name of a variant that holds nothing: a text, or the only member of an object, with the
value null. -/
def variantName? : Json → Option String
  | text name => some name
  | object [(name, null)] => some name
  | _ => none

/-- The value of the only member of this name. Of a name that is repeated no value is taken. -/
def onlyMember? (members : List (String × Json)) (name : String) : Option Json :=
  match members.filter fun member => member.1 = name with
  | [(_, value)] => some value
  | _ => none

/-- The values of named fields: the members of an object that has exactly one of each of these
names, whatever others it has, or the items of an array that has one for each. -/
def fields? (names : List String) : Json → Option (List Json)
  | object members => names.mapM (onlyMember? members)
  | array items => if items.length = names.length then some items else none
  | _ => none

end Json

end Circulation
