/-!
Contract: the kinds of circulation policy, and one value per kind.

Owns:
- the three policy kinds, their order and their two spellings in rule text;
- `PerKind`, a value for every kind;
- `PolicyMap`, at most one policy id per kind, and its written form.

Does not own: which line or fallback a policy id comes from.
-/

namespace Circulation

/-! ## Kinds -/

inductive PolicyKind where
  | loan
  | request
  | notice
deriving DecidableEq, Repr

namespace PolicyKind

/-- Every kind, in the order in which policies are written and checked. -/
def all : List PolicyKind :=
  [loan, request, notice]

/-- The one-letter spelling of a kind in rule text. -/
def letter : PolicyKind → Char
  | loan => 'l'
  | request => 'r'
  | notice => 'n'

/-- The long spelling of a kind in rule text, which is also its name. -/
def keyword : PolicyKind → String
  | loan => "loan"
  | request => "request"
  | notice => "notice"

/-- The kind that a word of rule text names, in either spelling. -/
def ofKeyword? (word : String) : Option PolicyKind :=
  all.find? fun kind => word == kind.keyword || word == kind.letter.toString

theorem mem_all (kind : PolicyKind) : kind ∈ all := by
  cases kind <;> decide

@[simp] theorem ofKeyword?_keyword (kind : PolicyKind) :
    ofKeyword? kind.keyword = some kind := by
  cases kind <;> decide

@[simp] theorem ofKeyword?_letter (kind : PolicyKind) :
    ofKeyword? kind.letter.toString = some kind := by
  cases kind <;> decide

end PolicyKind

/-! ## One value per kind -/

structure PerKind (α : Type) where
  loan : α
  request : α
  notice : α
deriving DecidableEq, Repr

namespace PerKind

variable {α β : Type}

def get (values : PerKind α) : PolicyKind → α
  | .loan => values.loan
  | .request => values.request
  | .notice => values.notice

def set (values : PerKind α) (kind : PolicyKind) (value : α) : PerKind α :=
  match kind with
  | .loan => { values with loan := value }
  | .request => { values with request := value }
  | .notice => { values with notice := value }

def ofFn (value : PolicyKind → α) : PerKind α :=
  ⟨value .loan, value .request, value .notice⟩

def toList (values : PerKind α) : List α :=
  [values.loan, values.request, values.notice]

/-- Three values in kind order; any other number of values is refused. -/
def ofList? : List α → Option (PerKind α)
  | [loan, request, notice] => some ⟨loan, request, notice⟩
  | _ => none

@[simp] theorem get_ofFn (value : PolicyKind → α) (kind : PolicyKind) :
    (ofFn value).get kind = value kind := by
  cases kind <;> rfl

@[simp] theorem get_set_self (values : PerKind α) (kind : PolicyKind) (value : α) :
    (values.set kind value).get kind = value := by
  cases kind <;> rfl

theorem get_set_of_ne (values : PerKind α) {kind other : PolicyKind} (value : α)
    (distinct : other ≠ kind) :
    (values.set kind value).get other = values.get other := by
  cases kind <;> cases other <;> simp_all [get, set]

theorem ext_get {left right : PerKind α}
    (agree : ∀ kind, left.get kind = right.get kind) : left = right := by
  obtain ⟨leftLoan, leftRequest, leftNotice⟩ := left
  obtain ⟨rightLoan, rightRequest, rightNotice⟩ := right
  have loanAgrees := agree .loan
  have requestAgrees := agree .request
  have noticeAgrees := agree .notice
  simp only [get] at loanAgrees requestAgrees noticeAgrees
  rw [loanAgrees, requestAgrees, noticeAgrees]

@[simp] theorem ofList?_toList (values : PerKind α) :
    ofList? values.toList = some values :=
  rfl

theorem eq_toList_of_ofList? {list : List α} {values : PerKind α}
    (counted : ofList? list = some values) : list = values.toList := by
  unfold ofList? at counted
  split at counted
  · rw [← Option.some.inj counted]
    rfl
  · simp at counted

end PerKind

/-! ## Policy ids per kind -/

/-- At most one policy id for each kind. -/
abbrev PolicyMap := PerKind (Option String)

namespace PolicyMap

def empty : PolicyMap :=
  ⟨none, none, none⟩

/-- Give `kind` the policy `id`, in place of any policy it had. -/
def insert (policies : PolicyMap) (kind : PolicyKind) (id : String) : PolicyMap :=
  policies.set kind (some id)

def contains (policies : PolicyMap) (kind : PolicyKind) : Bool :=
  (policies.get kind).isSome

/-- The kinds that have a policy, in kind order, each with its id. -/
def entries (policies : PolicyMap) : List (PolicyKind × String) :=
  PolicyKind.all.filterMap fun kind => (policies.get kind).map fun id => (kind, id)

def kinds (policies : PolicyMap) : List PolicyKind :=
  policies.entries.map Prod.fst

def isEmpty (policies : PolicyMap) : Bool :=
  policies.entries.isEmpty

@[simp] theorem get_empty (kind : PolicyKind) : empty.get kind = none := by
  cases kind <;> rfl

@[simp] theorem get_insert_self (policies : PolicyMap) (kind : PolicyKind) (id : String) :
    (policies.insert kind id).get kind = some id :=
  PerKind.get_set_self policies kind (some id)

theorem get_insert_of_ne (policies : PolicyMap) {kind other : PolicyKind} (id : String)
    (distinct : other ≠ kind) : (policies.insert kind id).get other = policies.get other :=
  PerKind.get_set_of_ne policies (some id) distinct

theorem mem_entries {policies : PolicyMap} {kind : PolicyKind} {id : String} :
    (kind, id) ∈ policies.entries ↔ policies.get kind = some id := by
  simp only [entries, List.mem_filterMap, Option.map_eq_some_iff, Prod.mk.injEq]
  constructor
  · rintro ⟨_, _, _, assigned, rfl, rfl⟩
    exact assigned
  · intro assigned
    exact ⟨kind, kind.mem_all, id, assigned, rfl, rfl⟩

theorem mem_kinds {policies : PolicyMap} {kind : PolicyKind} :
    kind ∈ policies.kinds ↔ policies.contains kind = true := by
  simp only [kinds, contains, List.mem_map, Option.isSome_iff_exists]
  constructor
  · rintro ⟨⟨_, id⟩, member, rfl⟩
    exact ⟨id, mem_entries.mp member⟩
  · rintro ⟨id, assigned⟩
    exact ⟨(kind, id), mem_entries.mpr assigned, rfl⟩

/-- The policies with one more assignment, if its kind had none. -/
def assign (policies : PolicyMap) (assignment : PolicyKind × String) :
    Except PolicyKind PolicyMap :=
  if policies.contains assignment.1 then .error assignment.1
  else .ok (policies.insert assignment.1 assignment.2)

/-- The policies of a list of assignments, or the first kind that it assigns again. -/
def ofAssignments (assignments : List (PolicyKind × String)) : Except PolicyKind PolicyMap :=
  assignments.foldlM assign empty

/-- One assignment as rule text writes it: the letter of the kind, then the id. -/
def renderEntry (entry : PolicyKind × String) : String :=
  entry.1.letter.toString ++ " " ++ entry.2

/-- The assignments as rule text writes them, in kind order. -/
def render (policies : PolicyMap) : String :=
  " ".intercalate (policies.entries.map renderEntry)

end PolicyMap

end Circulation
