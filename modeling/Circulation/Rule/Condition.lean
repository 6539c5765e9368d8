import Circulation.Rule.Facet
import Circulation.Rule.IdSet

/-!
Contract: what a rule line demands of one facet, and of all seven.

Owns:
- `Condition`, its test and its written form;
- `Conditions`, one condition for every facet;
- the specificity of a line's conditions.

Does not own: where the tested values come from.
-/

namespace Circulation

/-! ## One facet -/

/-- What a rule line demands of one facet. -/
inductive Condition where
  /-- Every value is accepted, and the line becomes no more specific. -/
  | any
  /-- The members of the set are accepted. -/
  | isIn (ids : IdSet)
  /-- Everything but the members of the set is accepted. -/
  | notIn (ids : IdSet)
deriving DecidableEq, Repr

namespace Condition

def isAny : Condition → Bool
  | any => true
  | _ => false

def accepts : Condition → String → Bool
  | any, _ => true
  | isIn ids, value => ids.contains value
  | notIn ids, value => !ids.contains value

/-- The condition in the shortest spelling of rule text, with a star where nothing is demanded. -/
def render : Condition → String
  | any => "*"
  | isIn ids => ", ".intercalate ids.ids
  | notIn ids => "!" ++ ", ".intercalate ids.ids

@[simp] theorem isAny_eq_true_iff {condition : Condition} :
    condition.isAny = true ↔ condition = any := by
  cases condition <;> simp [isAny]

end Condition

/-! ## All facets -/

structure Conditions where
  itemType : Condition := .any
  loanType : Condition := .any
  patronGroup : Condition := .any
  institution : Condition := .any
  campus : Condition := .any
  library : Condition := .any
  location : Condition := .any
deriving DecidableEq, Repr

namespace Conditions

def unconstrained : Conditions :=
  {}

def get (conditions : Conditions) : Facet → Condition
  | .itemType => conditions.itemType
  | .loanType => conditions.loanType
  | .patronGroup => conditions.patronGroup
  | .place .institution => conditions.institution
  | .place .campus => conditions.campus
  | .place .library => conditions.library
  | .place .location => conditions.location

def set (conditions : Conditions) (facet : Facet) (condition : Condition) : Conditions :=
  match facet with
  | .itemType => { conditions with itemType := condition }
  | .loanType => { conditions with loanType := condition }
  | .patronGroup => { conditions with patronGroup := condition }
  | .place .institution => { conditions with institution := condition }
  | .place .campus => { conditions with campus := condition }
  | .place .library => { conditions with library := condition }
  | .place .location => { conditions with location := condition }

def toList (conditions : Conditions) : List Condition :=
  Facet.all.map conditions.get

/-- Seven conditions in facet order; any other number of conditions is refused. -/
def ofList? : List Condition → Option Conditions
  | [itemType, loanType, patronGroup, institution, campus, library, location] =>
      some ⟨itemType, loanType, patronGroup, institution, campus, library, location⟩
  | _ => none

/-- The conditions of a list of constraints, or the first facet that it constrains again. -/
def ofConstraints (constraints : List (Facet × Condition)) : Except Facet Conditions :=
  constraints.foldlM (fun conditions constraint =>
    if (conditions.get constraint.1).isAny then .ok (conditions.set constraint.1 constraint.2)
    else .error constraint.1) unconstrained

def constrained (conditions : Conditions) : List Facet :=
  Facet.all.filter fun facet => !(conditions.get facet).isAny

/-- How specific a line with these conditions is: one point for each constrained facet that is
compared directly, plus the rank of the deepest constrained place. -/
def specificity (conditions : Conditions) : UInt8 :=
  let direct := conditions.constrained.filter fun facet => !facet.isPlace
  let deepest := (conditions.constrained.filterMap Facet.rank?).foldl max 0
  UInt8.ofNat direct.length + deepest

theorem mem_constrained {conditions : Conditions} {facet : Facet} :
    facet ∈ conditions.constrained ↔ conditions.get facet ≠ .any := by
  simp [constrained, Facet.mem_all, ← Condition.isAny_eq_true_iff]

@[simp] theorem get_unconstrained (facet : Facet) : unconstrained.get facet = .any := by
  rcases facet with _ | _ | _ | level
  · rfl
  · rfl
  · rfl
  · cases level <;> rfl

@[simp] theorem get_set_self (conditions : Conditions) (facet : Facet) (condition : Condition) :
    (conditions.set facet condition).get facet = condition := by
  rcases facet with _ | _ | _ | level
  · rfl
  · rfl
  · rfl
  · cases level <;> rfl

theorem get_set_of_ne (conditions : Conditions) {facet other : Facet} (condition : Condition)
    (distinct : other ≠ facet) :
    (conditions.set facet condition).get other = conditions.get other := by
  rcases facet with _ | _ | _ | level <;> rcases other with _ | _ | _ | otherLevel
  all_goals try cases level
  all_goals try cases otherLevel
  all_goals simp_all [get, set]

theorem ext_get {left right : Conditions}
    (agree : ∀ facet, left.get facet = right.get facet) : left = right := by
  cases left
  cases right
  congr
  · exact agree .itemType
  · exact agree .loanType
  · exact agree .patronGroup
  · exact agree (.place .institution)
  · exact agree (.place .campus)
  · exact agree (.place .library)
  · exact agree (.place .location)

@[simp] theorem ofList?_toList (conditions : Conditions) :
    ofList? conditions.toList = some conditions :=
  rfl

theorem eq_toList_of_ofList? {list : List Condition} {conditions : Conditions}
    (counted : ofList? list = some conditions) : list = conditions.toList := by
  unfold ofList? at counted
  split at counted
  · rw [← Option.some.inj counted]
    rfl
  · simp at counted

end Conditions

end Circulation
