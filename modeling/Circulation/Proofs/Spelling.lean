import Circulation.Proofs.Parsing

/-!
Contract: the ways in which the statement of a line can be spelled.

Owns:
- trees of everything that a spelling chooses: commas, keywords, the form of conditions, and order;
- the tokens of such a tree and the statement that it spells;
- that the tokens of trees are those that the grammar derives, each with the statement of its tree.

Does not own: which spellings are interchangeable, or the blanks between tokens.
-/

namespace Circulation

namespace RuleText

/-! ## Ids -/

/-- A list of ids, and for each behind the first whether a comma stands in front of it. -/
structure SpelledIds where
  first : String
  more : List (Bool × String)
deriving DecidableEq, Repr

namespace SpelledIds

def ids (spelled : SpelledIds) : List String :=
  spelled.first :: spelled.more.map Prod.snd

def tokensOfMore : List (Bool × String) → List Token
  | [] => []
  | (true, id) :: more => .mark .comma :: .word id :: tokensOfMore more
  | (false, id) :: more => .word id :: tokensOfMore more

def tokens (spelled : SpelledIds) : List Token :=
  .word spelled.first :: tokensOfMore spelled.more

end SpelledIds

theorem derivesMoreIds_iff {tokens : List Token} {ids : List String} :
    DerivesMoreIds tokens ids ↔
      ∃ more, SpelledIds.tokensOfMore more = tokens ∧ more.map Prod.snd = ids := by
  constructor
  · intro derives
    induction derives with
    | done => exact ⟨[], rfl, rfl⟩
    | @next id tokens ids others ih =>
      obtain ⟨more, rfl, rfl⟩ := ih
      exact ⟨(false, id) :: more, rfl, rfl⟩
    | @afterComma id tokens ids others ih =>
      obtain ⟨more, rfl, rfl⟩ := ih
      exact ⟨(true, id) :: more, rfl, rfl⟩
  · rintro ⟨more, rfl, rfl⟩
    induction more with
    | nil => exact .done
    | cons entry more ih =>
      obtain ⟨comma, id⟩ := entry
      cases comma with
      | true => exact .afterComma ih
      | false => exact .next ih

theorem derivesIds_iff {tokens : List Token} {ids : List String} :
    DerivesIds tokens ids ↔
      ∃ spelled : SpelledIds, spelled.tokens = tokens ∧ spelled.ids = ids := by
  constructor
  · intro derives
    cases derives with
    | @first id tokens ids others =>
      obtain ⟨more, rfl, rfl⟩ := derivesMoreIds_iff.mp others
      exact ⟨⟨id, more⟩, rfl, rfl⟩
  · rintro ⟨spelled, rfl, rfl⟩
    exact .first (derivesMoreIds_iff.mpr ⟨spelled.more, rfl, rfl⟩)

/-! ## Conditions -/

/-- A condition in one of its three forms. -/
inductive SpelledCondition where
  /-- The ids that are accepted. -/
  | bare (ids : SpelledIds)
  /-- The ids that are not, behind an exclamation mark. -/
  | exclaimed (ids : SpelledIds)
  /-- The ids that are not, in parentheses behind the word `not`. -/
  | enclosed (ids : SpelledIds)
deriving DecidableEq, Repr

namespace SpelledCondition

def condition : SpelledCondition → Condition
  | bare ids => .isIn (.ofList ids.ids)
  | exclaimed ids => .notIn (.ofList ids.ids)
  | enclosed ids => .notIn (.ofList ids.ids)

def tokens : SpelledCondition → List Token
  | bare ids => ids.tokens
  | exclaimed ids => .mark .exclamation :: ids.tokens
  | enclosed ids => .word "not" :: .mark .opening :: (ids.tokens ++ [.mark .closing])

end SpelledCondition

theorem derivesCondition_iff {tokens : List Token} {condition : Condition} :
    DerivesCondition tokens condition ↔
      ∃ spelled : SpelledCondition, spelled.tokens = tokens ∧ spelled.condition = condition := by
  constructor
  · intro derives
    cases derives with
    | excluded listed =>
      obtain ⟨ids, rfl, rfl⟩ := derivesIds_iff.mp listed
      exact ⟨.exclaimed ids, rfl, rfl⟩
    | enclosed listed =>
      obtain ⟨ids, rfl, rfl⟩ := derivesIds_iff.mp listed
      exact ⟨.enclosed ids, rfl, rfl⟩
    | included listed =>
      obtain ⟨ids, rfl, rfl⟩ := derivesIds_iff.mp listed
      exact ⟨.bare ids, rfl, rfl⟩
  · rintro ⟨spelled, rfl, rfl⟩
    cases spelled with
    | bare ids => exact .included (derivesIds_iff.mpr ⟨ids, rfl, rfl⟩)
    | exclaimed ids => exact .excluded (derivesIds_iff.mpr ⟨ids, rfl, rfl⟩)
    | enclosed ids => exact .enclosed (derivesIds_iff.mpr ⟨ids, rfl, rfl⟩)

/-! ## Constraints -/

end RuleText

/-- A facet in one of its two spellings. -/
def Facet.spelling (facet : Facet) (long : Bool) : String :=
  if long then facet.keyword else facet.letter.toString

/-- A kind in one of its two spellings. -/
def PolicyKind.spelling (kind : PolicyKind) (long : Bool) : String :=
  if long then kind.keyword else kind.letter.toString

theorem Facet.ofKeyword?_eq_some_iff {word : String} {facet : Facet} :
    ofKeyword? word = some facet ↔ ∃ long, facet.spelling long = word := by
  constructor
  · intro named
    rcases RuleText.spelling_of_facet named with rfl | rfl
    · exact ⟨true, rfl⟩
    · exact ⟨false, rfl⟩
  · rintro ⟨long, rfl⟩
    cases long with
    | true => exact facet.ofKeyword?_keyword
    | false => exact facet.ofKeyword?_letter

theorem PolicyKind.ofKeyword?_eq_some_iff {word : String} {kind : PolicyKind} :
    ofKeyword? word = some kind ↔ ∃ long, kind.spelling long = word := by
  constructor
  · intro named
    have spelled := List.find?_some named
    rw [Bool.or_eq_true, beq_iff_eq, beq_iff_eq] at spelled
    rcases spelled with rfl | rfl
    · exact ⟨true, rfl⟩
    · exact ⟨false, rfl⟩
  · rintro ⟨long, rfl⟩
    cases long with
    | true => exact kind.ofKeyword?_keyword
    | false => exact kind.ofKeyword?_letter

namespace RuleText

structure SpelledConstraint where
  facet : Facet
  long : Bool
  condition : SpelledCondition
deriving DecidableEq, Repr

namespace SpelledConstraint

def constraint (spelled : SpelledConstraint) : Facet × Condition :=
  (spelled.facet, spelled.condition.condition)

def tokens (spelled : SpelledConstraint) : List Token :=
  .word (spelled.facet.spelling spelled.long) :: spelled.condition.tokens

def tokensOfMore : List SpelledConstraint → List Token
  | [] => []
  | spelled :: more => .mark .plus :: (spelled.tokens ++ tokensOfMore more)

/-- The tokens in front of a colon. -/
def tokensOfAll : List SpelledConstraint → List Token
  | [] => [.word "all"]
  | first :: more => first.tokens ++ tokensOfMore more

end SpelledConstraint

theorem derivesConstraint_iff {tokens : List Token} {constraint : Facet × Condition} :
    DerivesConstraint tokens constraint ↔
      ∃ spelled : SpelledConstraint,
        spelled.tokens = tokens ∧ spelled.constraint = constraint := by
  constructor
  · intro derives
    cases derives with
    | @intro keyword facet tokens condition named demanded =>
      obtain ⟨long, rfl⟩ := Facet.ofKeyword?_eq_some_iff.mp named
      obtain ⟨spelled, rfl, rfl⟩ := derivesCondition_iff.mp demanded
      exact ⟨⟨facet, long, spelled⟩, rfl, rfl⟩
  · rintro ⟨spelled, rfl, rfl⟩
    exact .intro (Facet.ofKeyword?_eq_some_iff.mpr ⟨spelled.long, rfl⟩)
      (derivesCondition_iff.mpr ⟨spelled.condition, rfl, rfl⟩)

theorem derivesMoreConstraints_iff {tokens : List Token}
    {constraints : List (Facet × Condition)} :
    DerivesMoreConstraints tokens constraints ↔
      ∃ more, SpelledConstraint.tokensOfMore more = tokens ∧
        more.map SpelledConstraint.constraint = constraints := by
  constructor
  · intro derives
    induction derives with
    | done => exact ⟨[], rfl, rfl⟩
    | next here others ih =>
      obtain ⟨spelled, rfl, rfl⟩ := derivesConstraint_iff.mp here
      obtain ⟨more, rfl, rfl⟩ := ih
      exact ⟨spelled :: more, rfl, rfl⟩
  · rintro ⟨more, rfl, rfl⟩
    induction more with
    | nil => exact .done
    | cons spelled more ih => exact .next (derivesConstraint_iff.mpr ⟨spelled, rfl, rfl⟩) ih

theorem derivesConditions_iff {tokens : List Token} {constraints : List (Facet × Condition)} :
    DerivesConditions tokens constraints ↔
      ∃ spelled, SpelledConstraint.tokensOfAll spelled = tokens ∧
        spelled.map SpelledConstraint.constraint = constraints := by
  constructor
  · intro derives
    cases derives with
    | all => exact ⟨[], rfl, rfl⟩
    | first here others =>
      obtain ⟨first, rfl, rfl⟩ := derivesConstraint_iff.mp here
      obtain ⟨more, rfl, rfl⟩ := derivesMoreConstraints_iff.mp others
      exact ⟨first :: more, rfl, rfl⟩
  · rintro ⟨spelled, rfl, rfl⟩
    cases spelled with
    | nil => exact .all
    | cons first more =>
      exact .first (derivesConstraint_iff.mpr ⟨first, rfl, rfl⟩)
        (derivesMoreConstraints_iff.mpr ⟨more, rfl, rfl⟩)

/-! ## Assignments -/

structure SpelledAssignment where
  kind : PolicyKind
  long : Bool
  id : String
deriving DecidableEq, Repr

namespace SpelledAssignment

def assignment (spelled : SpelledAssignment) : PolicyKind × String :=
  (spelled.kind, spelled.id)

def tokensOfAll : List SpelledAssignment → List Token
  | [] => []
  | spelled :: more =>
      .word (spelled.kind.spelling spelled.long) :: .word spelled.id :: tokensOfAll more

end SpelledAssignment

theorem derivesMoreAssignments_iff {tokens : List Token}
    {assignments : List (PolicyKind × String)} :
    DerivesMoreAssignments tokens assignments ↔
      ∃ spelled, SpelledAssignment.tokensOfAll spelled = tokens ∧
        spelled.map SpelledAssignment.assignment = assignments := by
  constructor
  · intro derives
    induction derives with
    | done => exact ⟨[], rfl, rfl⟩
    | @next keyword id kind tokens assignments named others ih =>
      obtain ⟨long, rfl⟩ := PolicyKind.ofKeyword?_eq_some_iff.mp named
      obtain ⟨more, rfl, rfl⟩ := ih
      exact ⟨⟨kind, long, id⟩ :: more, rfl, rfl⟩
  · rintro ⟨spelled, rfl, rfl⟩
    induction spelled with
    | nil => exact .done
    | cons first more ih =>
      exact .next (PolicyKind.ofKeyword?_eq_some_iff.mpr ⟨first.long, rfl⟩) ih

/-- Assignments are further assignments, of which there is one at least. -/
theorem derivesAssignments_iff {tokens : List Token} {assignments : List (PolicyKind × String)} :
    DerivesAssignments tokens assignments ↔
      DerivesMoreAssignments tokens assignments ∧ assignments ≠ [] := by
  constructor
  · intro derives
    cases derives with
    | first named more => exact ⟨.next named more, List.cons_ne_nil _ _⟩
  · rintro ⟨derives, nonempty⟩
    cases derives with
    | done => exact absurd rfl nonempty
    | next named more => exact .first named more

/-! ## Lines -/

/-- A line as it is spelled. It assigns something. -/
inductive SpelledLine where
  | fallback (assignments : List SpelledAssignment) (assigns : assignments ≠ [])
  | rule (constraints : List SpelledConstraint) (assignments : List SpelledAssignment)
      (assigns : assignments ≠ [])
deriving DecidableEq, Repr

namespace SpelledLine

def statement : SpelledLine → Statement
  | fallback assignments _ => .fallback (assignments.map SpelledAssignment.assignment)
  | rule constraints assignments _ =>
      .rule (constraints.map SpelledConstraint.constraint)
        (assignments.map SpelledAssignment.assignment)

def tokens : SpelledLine → List Token
  | fallback assignments _ =>
      .word "fallback-policy" :: .mark .colon :: SpelledAssignment.tokensOfAll assignments
  | rule constraints assignments _ =>
      SpelledConstraint.tokensOfAll constraints ++
        .mark .colon :: SpelledAssignment.tokensOfAll assignments

end SpelledLine

/-- The grammar derives the statements of trees, from their tokens, and nothing else. -/
theorem derivesStatement_iff {tokens : List Token} {statement : Statement} :
    DerivesStatement tokens statement ↔
      ∃ spelled : SpelledLine, spelled.tokens = tokens ∧ spelled.statement = statement := by
  constructor
  · intro derives
    cases derives with
    | fallback assigned =>
      obtain ⟨more, nonempty⟩ := derivesAssignments_iff.mp assigned
      obtain ⟨assignments, rfl, rfl⟩ := derivesMoreAssignments_iff.mp more
      exact ⟨.fallback assignments fun none => nonempty (by simp [none]), rfl, rfl⟩
    | rule demanded assigned =>
      obtain ⟨constraints, rfl, rfl⟩ := derivesConditions_iff.mp demanded
      obtain ⟨more, nonempty⟩ := derivesAssignments_iff.mp assigned
      obtain ⟨assignments, rfl, rfl⟩ := derivesMoreAssignments_iff.mp more
      exact ⟨.rule constraints assignments fun none => nonempty (by simp [none]), rfl, rfl⟩
  · rintro ⟨spelled, rfl, rfl⟩
    cases spelled with
    | fallback assignments assigns =>
      have more := derivesMoreAssignments_iff.mpr ⟨assignments, rfl, rfl⟩
      exact .fallback (derivesAssignments_iff.mpr ⟨more, by simpa using assigns⟩)
    | rule constraints assignments assigns =>
      have more := derivesMoreAssignments_iff.mpr ⟨assignments, rfl, rfl⟩
      exact .rule (derivesConditions_iff.mpr ⟨constraints, rfl, rfl⟩)
        (derivesAssignments_iff.mpr ⟨more, by simpa using assigns⟩)

/-- A line derives the statements that are spelled by the tokens it consists of. -/
theorem derives_iff_exists_spelled {line : List Char} {statement : Statement} :
    Derives line statement ↔
      ∃ spelled : SpelledLine, Lexes line spelled.tokens ∧ spelled.statement = statement := by
  constructor
  · rintro ⟨tokens, lexes, derived⟩
    obtain ⟨spelled, rfl, same⟩ := derivesStatement_iff.mp derived
    exact ⟨spelled, lexes, same⟩
  · rintro ⟨spelled, lexes, same⟩
    exact ⟨spelled.tokens, lexes, derivesStatement_iff.mpr ⟨spelled, rfl, same⟩⟩

end RuleText

end Circulation
