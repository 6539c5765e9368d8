import Circulation.Place.Level

/-!
Contract: the chain above every shelving location, found from location records.

Owns:
- location records, the lists of them level by level, and the checks on them;
- `Hierarchy`, the map from shelving locations to their chains;
- the errors of building one, and their wording.

Does not own: how chains take part in a resolution.
-/

namespace Circulation

/-! ## Records -/

/-- A place and, below the widest level, the place it belongs to. -/
inductive LocationRecord where
  | institution (id : String)
  | campus (id institution : String)
  | library (id campus : String)
  | location (id library : String)
deriving DecidableEq, Repr

/-- Location records sorted by level; below the widest level each id stands with its parent. -/
structure LevelRecords where
  institutions : List String
  campuses : List (String × String)
  libraries : List (String × String)
  locations : List (String × String)
deriving DecidableEq, Repr

namespace LevelRecords

def ofRecords (records : List LocationRecord) : LevelRecords where
  institutions := records.filterMap fun
    | .institution id => some id
    | _ => none
  campuses := records.filterMap fun
    | .campus id institution => some (id, institution)
    | _ => none
  libraries := records.filterMap fun
    | .library id campus => some (id, campus)
    | _ => none
  locations := records.filterMap fun
    | .location id library => some (id, library)
    | _ => none

end LevelRecords

/-! ## Checks -/

inductive HierarchyError where
  /-- A record names a parent that the level above does not have. -/
  | unknownParent (level : Level) (id parent : String)
  | duplicateId (level : Level) (id : String)
deriving DecidableEq, Repr

namespace HierarchyError

def message : HierarchyError → String
  | unknownParent level id parent =>
      s!"{level.name} '{id}' references unknown parent '{parent}'"
  | duplicateId level id => s!"duplicate {level.name} id '{id}'"

end HierarchyError

namespace LevelRecords

/-- No institution repeats an earlier one or one of `seen`. -/
def checkInstitutions (seen : List String) : List String → Except HierarchyError Unit
  | [] => .ok ()
  | id :: rest =>
      if seen.contains id then .error (.duplicateId .institution id)
      else checkInstitutions (id :: seen) rest

/-- Every record of a level has its parent among `parents`, and none repeats the id of an earlier
one or one of `seen`. A record with both faults is reported for its parent. -/
def checkLinks (level : Level) (parents seen : List String) :
    List (String × String) → Except HierarchyError Unit
  | [] => .ok ()
  | (id, parent) :: rest =>
      if !parents.contains parent then .error (.unknownParent level id parent)
      else if seen.contains id then .error (.duplicateId level id)
      else checkLinks level parents (id :: seen) rest

/-- The first fault of the records, level by level from the widest and in the given order inside a
level. -/
def check (records : LevelRecords) : Except HierarchyError Unit := do
  checkInstitutions [] records.institutions
  checkLinks .campus records.institutions [] records.campuses
  checkLinks .library (records.campuses.map Prod.fst) [] records.libraries
  checkLinks .location (records.libraries.map Prod.fst) [] records.locations

/-- The chain above a place that belongs to `library`, if the records trace it to the top. -/
def chain? (records : LevelRecords) (library : String) : Option Ancestors := do
  let campus ← records.libraries.lookup library
  let institution ← records.campuses.lookup campus
  return ⟨library, campus, institution⟩

def chains (records : LevelRecords) : List (String × Ancestors) :=
  records.locations.filterMap fun (location, library) =>
    (records.chain? library).map fun ancestors => (location, ancestors)

end LevelRecords

/-! ## Hierarchies -/

/-- The shelving locations of a snapshot, each with what lies above it. -/
structure Hierarchy where
  chains : List (String × Ancestors)
deriving DecidableEq, Repr

namespace Hierarchy

def empty : Hierarchy :=
  ⟨[]⟩

/-- The hierarchy of location records, which may come in any order. -/
def build (records : List LocationRecord) : Except HierarchyError Hierarchy := do
  let levels := LevelRecords.ofRecords records
  levels.check
  return ⟨levels.chains⟩

/-- What lies above a shelving location, if it is known. -/
def ancestors? (hierarchy : Hierarchy) (location : String) : Option Ancestors :=
  hierarchy.chains.lookup location

def contains (hierarchy : Hierarchy) (location : String) : Bool :=
  (hierarchy.ancestors? location).isSome

def size (hierarchy : Hierarchy) : Nat :=
  hierarchy.chains.length

def isEmpty (hierarchy : Hierarchy) : Bool :=
  hierarchy.chains.isEmpty

def render (hierarchy : Hierarchy) : String :=
  s!"LocationHierarchyIndex({hierarchy.size} locations)"

end Hierarchy

end Circulation
