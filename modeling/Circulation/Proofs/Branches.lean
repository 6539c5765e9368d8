import Circulation.Proofs.BestMatch
import Circulation.Proofs.Records

/-!
Contract: locations that belong to the same library, campus or institution.

Owns:
- that chains which agree at one level agree at every level above;
- that a line which constrains no place below a level does not tell the locations of one branch
  apart, and neither do answers that rest on such lines.

Does not own: where chains come from, or which lines a query makes use of.

A place belongs to one place of the level above, because no two records are for the same place. So
chains that meet stay together from there upwards.
-/

namespace Circulation

/-! ## Chains that meet -/

namespace LocationRecord

variable {records : List LocationRecord}

theorem Complete.eq_of_place_eq (complete : Complete records) {record other : LocationRecord}
    (member : record ∈ records) (otherMember : other ∈ records)
    (same : record.place = other.place) : record = other :=
  List.inj_on_of_nodup_map complete.unrepeated member otherMember same

end LocationRecord

section Chains

open LocationRecord

variable {records : List LocationRecord} {location other : String} {ancestors others : Ancestors}

theorem campus_eq_of_library_eq (complete : Complete records)
    (traced : Traced records location ancestors) (otherTraced : Traced records other others)
    (same : ancestors.library = others.library) : ancestors.campus = others.campus := by
  have placed : (LocationRecord.library ancestors.library ancestors.campus).place =
      (LocationRecord.library others.library others.campus).place :=
    congrArg (Prod.mk Level.library) same
  exact (LocationRecord.library.inj
    (complete.eq_of_place_eq traced.2.1 otherTraced.2.1 placed)).2

theorem institution_eq_of_campus_eq (complete : Complete records)
    (traced : Traced records location ancestors) (otherTraced : Traced records other others)
    (same : ancestors.campus = others.campus) : ancestors.institution = others.institution := by
  have placed : (LocationRecord.campus ancestors.campus ancestors.institution).place =
      (LocationRecord.campus others.campus others.institution).place :=
    congrArg (Prod.mk Level.campus) same
  exact (LocationRecord.campus.inj
    (complete.eq_of_place_eq traced.2.2 otherTraced.2.2 placed)).2

/-- Chains that have the same id at a level have the same ids at every level above. -/
theorem at?_eq_of_at?_eq (complete : Complete records)
    (traced : Traced records location ancestors) (otherTraced : Traced records other others)
    {level outer : Level} {id : String} (here : ancestors.at? level = some id)
    (there : others.at? level = some id) (above : outer.rank ≤ level.rank) :
    ancestors.at? outer = others.at? outer := by
  cases level with
  | institution =>
    cases outer with
    | institution => rw [here, there]
    | campus => exact absurd above (by decide)
    | library => exact absurd above (by decide)
    | location => rfl
  | campus =>
    have campuses : ancestors.campus = others.campus := Option.some.inj (here.trans there.symm)
    cases outer with
    | institution =>
      exact congrArg some (institution_eq_of_campus_eq complete traced otherTraced campuses)
    | campus => rw [here, there]
    | library => exact absurd above (by decide)
    | location => rfl
  | library =>
    have libraries : ancestors.library = others.library := Option.some.inj (here.trans there.symm)
    have campuses := campus_eq_of_library_eq complete traced otherTraced libraries
    cases outer with
    | institution =>
      exact congrArg some (institution_eq_of_campus_eq complete traced otherTraced campuses)
    | campus => exact congrArg some campuses
    | library => rw [here, there]
    | location => rfl
  | location => simp [Ancestors.at?] at here

end Chains

/-! ## Lines that look no deeper -/

/-- The conditions demand nothing of the places below a level. -/
def Conditions.NoneBelow (conditions : Conditions) (level : Level) : Prop :=
  ∀ inner : Level, level.rank < inner.rank → conditions.get (.place inner) = .any

/-- The same question, asked for another location. -/
def Query.atLocation (query : Query) (location : String) : Query :=
  { query with location := location }

@[simp] theorem Query.kind_atLocation (query : Query) (location : String) :
    (query.atLocation location).kind = query.kind :=
  rfl

section Lines

variable {ancestors others : Ancestors} {level : Level}

/-- Above a location, a query offers to the facet of a place what the chain has there. -/
theorem at?_eq_value (query : Query) (ancestors : Ancestors) {inner : Level}
    (notLocation : inner ≠ .location) :
    ancestors.at? inner = some (query.value ancestors (.place inner)) := by
  cases inner with
  | institution => rfl
  | campus => rfl
  | library => rfl
  | location => exact absurd rfl notLocation

/-- A line that looks no deeper than a level accepts a query for both locations or for neither, if
their chains agree from the level upwards. -/
theorem RuleLine.accepts_eq_of_noneBelow {line : RuleLine}
    (noneBelow : line.conditions.NoneBelow level) (notLocation : level ≠ .location)
    (agree : ∀ outer : Level, outer.rank ≤ level.rank → ancestors.at? outer = others.at? outer)
    (query : Query) (first second : String) :
    line.accepts (query.atLocation first) ancestors =
      line.accepts (query.atLocation second) others := by
  have narrow : level.rank < Level.location.rank := by
    cases level with
    | institution => decide
    | campus => decide
    | library => decide
    | location => exact absurd rfl notLocation
  have facets : ∀ facet : Facet,
      (line.conditions.get facet).accepts ((query.atLocation first).value ancestors facet) =
        (line.conditions.get facet).accepts ((query.atLocation second).value others facet) := by
    intro facet
    cases facet with
    | itemType => rfl
    | loanType => rfl
    | patronGroup => rfl
    | place inner =>
      by_cases below : level.rank < inner.rank
      · rw [noneBelow inner below]
        rfl
      · have above : inner.rank ≤ level.rank := Std.not_lt.mp below
        have notInner : inner ≠ .location := by
          rintro rfl
          exact below narrow
        have same := agree inner above
        rw [at?_eq_value (query.atLocation first) ancestors notInner,
          at?_eq_value (query.atLocation second) others notInner] at same
        rw [Option.some.inj same]
  rw [accepts, accepts]
  congr 1
  funext facet
  exact facets facet

end Lines

/-! ## Answers for one branch -/

namespace RuleSet

theorem mem_lines_of_mem_rankedLines {rules : RuleSet} {kind : PolicyKind} {line : RuleLine}
    (ranked : line ∈ rules.rankedLines kind) : line ∈ rules.lines := by
  obtain ⟨position, _, found⟩ := List.mem_filterMap.mp ranked
  exact Array.mem_of_getElem? found

/-- Answers are equal for two known locations if every line of the kind accepts both or neither. -/
theorem resolveAll_eq_of_accepts_eq {rules : RuleSet} (made : rules.Made) {hierarchy : Hierarchy}
    {first second : String} {ancestors others : Ancestors}
    (located : hierarchy.ancestors? first = some ancestors)
    (otherLocated : hierarchy.ancestors? second = some others) {query : Query}
    (same : ∀ line ∈ rules.lines, line.policies.contains query.kind = true →
      line.accepts (query.atLocation first) ancestors =
        line.accepts (query.atLocation second) others) :
    rules.resolveAll hierarchy (query.atLocation first) =
      rules.resolveAll hierarchy (query.atLocation second) := by
  cases declared : rules.defaults.get query.kind with
  | none =>
    have undeclared : ∀ location, rules.resolveAll hierarchy (query.atLocation location) =
        .error (.unknownPolicyKind query.kind) := by
      intro location
      exact (resolve_of_undeclared hierarchy (by simpa using declared)).2
    rw [undeclared, undeclared]
  | some policyId =>
    have accepting :
        ((rules.rankedLines query.kind).filter fun line =>
          line.accepts (query.atLocation first) ancestors) =
        (rules.rankedLines query.kind).filter fun line =>
          line.accepts (query.atLocation second) others := by
      apply List.filter_congr
      intro line ranked
      exact same line (mem_lines_of_mem_rankedLines ranked) (made.assigns_of_ranked ranked)
    rw [resolveAll_eq (by simpa using declared) located,
      resolveAll_eq (by simpa using declared) otherLocated, Query.kind_atLocation,
      Query.kind_atLocation, accepting]

/-- Two locations with the same place at a level have the same places at every level above. A line
that looks no deeper than the level accepts a query for both or for neither, and rules that assign
the kind of the query on such lines only give the same answers for both. -/
theorem answers_eq_of_sameBranch {records : List LocationRecord} {hierarchy : Hierarchy}
    (built : Hierarchy.build records = .ok hierarchy) {first second : String}
    {ancestors others : Ancestors} (located : hierarchy.ancestors? first = some ancestors)
    (otherLocated : hierarchy.ancestors? second = some others) {level : Level} {id : String}
    (here : ancestors.at? level = some id) (there : others.at? level = some id) :
    (∀ outer : Level, outer.rank ≤ level.rank → ancestors.at? outer = others.at? outer) ∧
    (∀ (line : RuleLine) (query : Query), line.conditions.NoneBelow level →
      line.accepts (query.atLocation first) ancestors =
        line.accepts (query.atLocation second) others) ∧
    ∀ rules : RuleSet, rules.Made → ∀ query : Query,
      (∀ line ∈ rules.lines, line.policies.contains query.kind = true →
        line.conditions.NoneBelow level) →
      rules.resolveOne hierarchy (query.atLocation first) =
          rules.resolveOne hierarchy (query.atLocation second) ∧
        rules.resolveAll hierarchy (query.atLocation first) =
          rules.resolveAll hierarchy (query.atLocation second) := by
  have complete := Hierarchy.builds_iff_complete.mp ⟨_, built⟩
  have traced := (Hierarchy.ancestors?_eq_some_iff built).mp located
  have otherTraced := (Hierarchy.ancestors?_eq_some_iff built).mp otherLocated
  have notLocation : level ≠ .location := by
    rintro rfl
    simp [Ancestors.at?] at here
  have agree : ∀ outer : Level, outer.rank ≤ level.rank →
      ancestors.at? outer = others.at? outer :=
    fun _ => at?_eq_of_at?_eq complete traced otherTraced here there
  have sameLine : ∀ (line : RuleLine) (query : Query), line.conditions.NoneBelow level →
      line.accepts (query.atLocation first) ancestors =
        line.accepts (query.atLocation second) others :=
    fun line query noneBelow =>
      line.accepts_eq_of_noneBelow noneBelow notLocation agree query first second
  refine ⟨agree, sameLine, ?_⟩
  intro rules made query noneBelow
  have all : rules.resolveAll hierarchy (query.atLocation first) =
      rules.resolveAll hierarchy (query.atLocation second) :=
    resolveAll_eq_of_accepts_eq made located otherLocated fun line member assigns =>
      sameLine line query (noneBelow line member assigns)
  exact ⟨resolveOne_congr made made all, all⟩

/-- Two libraries of one campus, each with a location. -/
def branchRecords : List LocationRecord :=
  [.institution "north", .campus "city" "north", .library "main" "city", .library "annex" "city",
    .location "desk" "main", .location "hall" "annex"]

/-- Rules that assign loan policies by campus and institution, and a notice policy by location. -/
def branchText : String :=
  "fallback-policy: l none n quiet\nb city + m book: l day\na north: l week\ns desk: n loud"

theorem answers_eq_of_sameBranch_branchText :
    ∃ rules hierarchy, ofText branchText = .ok rules ∧
      Hierarchy.build branchRecords = .ok hierarchy ∧
      hierarchy.ancestors? "desk" = some ⟨"main", "city", "north"⟩ ∧
      hierarchy.ancestors? "hall" = some ⟨"annex", "city", "north"⟩ ∧
      (Ancestors.mk "main" "city" "north").at? .institution =
        (Ancestors.mk "annex" "city" "north").at? .institution ∧
      rules.resolveAll hierarchy (sampleQuery.atLocation "desk") =
        .ok ⟨[⟨"day", 2, 3⟩, ⟨"week", 3, 1⟩, ⟨"none", 0, 0⟩]⟩ ∧
      rules.resolveAll hierarchy (sampleQuery.atLocation "hall") =
        .ok ⟨[⟨"day", 2, 3⟩, ⟨"week", 3, 1⟩, ⟨"none", 0, 0⟩]⟩ := by
  have built : Hierarchy.build branchRecords =
      .ok ⟨[("desk", ⟨"main", "city", "north"⟩), ("hall", ⟨"annex", "city", "north"⟩)]⟩ := by
    decide
  have compiled : ∃ rules, ofText branchText = .ok rules ∧
      rules.resolveAll ⟨[("desk", ⟨"main", "city", "north"⟩), ("hall", ⟨"annex", "city", "north"⟩)]⟩
        (sampleQuery.atLocation "desk") =
          .ok ⟨[⟨"day", 2, 3⟩, ⟨"week", 3, 1⟩, ⟨"none", 0, 0⟩]⟩ ∧
      rules.lines.all (fun line => !line.policies.contains .loan ||
        (line.conditions.get (.place .library)).isAny &&
          (line.conditions.get (.place .location)).isAny) = true :=
    ⟨_, by cbv, by cbv, by cbv⟩
  obtain ⟨rules, read, answered, shallow⟩ := compiled
  have desk : Hierarchy.ancestors? ⟨[("desk", ⟨"main", "city", "north"⟩),
      ("hall", ⟨"annex", "city", "north"⟩)]⟩ "desk" = some ⟨"main", "city", "north"⟩ := rfl
  have hall : Hierarchy.ancestors? ⟨[("desk", ⟨"main", "city", "north"⟩),
      ("hall", ⟨"annex", "city", "north"⟩)]⟩ "hall" = some ⟨"annex", "city", "north"⟩ := rfl
  have deskCampus : (Ancestors.mk "main" "city" "north").at? .campus = some "city" := rfl
  obtain ⟨agree, _, answers⟩ := answers_eq_of_sameBranch built desk hall deskCampus rfl
  have made : rules.Made := .fromText branchText read
  have same := (answers rules made sampleQuery (by
    intro line member assigns inner below
    have checked := Array.all_eq_true_iff_forall_mem.mp shallow line member
    have unconstrained := (Bool.or_eq_true_iff.mp checked).resolve_left (by
      rw [show line.policies.contains .loan = true from assigns]
      decide)
    rw [Bool.and_eq_true, Condition.isAny_eq_true_iff, Condition.isAny_eq_true_iff] at unconstrained
    cases inner with
    | institution => exact absurd below (by decide)
    | campus => exact absurd below (by decide)
    | library => exact unconstrained.1
    | location => exact unconstrained.2)).2
  exact ⟨rules, _, read, built, rfl, rfl, agree .institution (by decide), answered,
    same.symm.trans answered⟩

end RuleSet

end Circulation
