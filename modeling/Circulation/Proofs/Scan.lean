import Circulation.Proofs.Chains
import Circulation.Proofs.WellFormed
import Circulation.Resolution.Answer

/-!
Contract: answers found by scanning every line, against the answers that rankings give.

Owns:
- the plain reading of conditions, of acceptance and of specificity;
- the scan of all lines for the matches of a query, in the order of matches;
- that resolving a query gives the matches of the scan and then the default policy.

Does not own: the single best answer.
-/

namespace Circulation

/-! ## Conditions -/

/-- A value is one that the condition speaks of, or not, as it demands. -/
def Condition.Holds : Condition → String → Prop
  | .any, _ => True
  | .isIn ids, value => value ∈ ids.ids
  | .notIn ids, value => value ∉ ids.ids

instance (condition : Condition) (value : String) : Decidable (condition.Holds value) := by
  cases condition <;> unfold Condition.Holds <;> infer_instance

theorem Condition.accepts_iff_holds {condition : Condition} {value : String} :
    condition.accepts value = true ↔ condition.Holds value := by
  cases condition with
  | any => simp [accepts, Holds]
  | isIn ids => simp [accepts, Holds]
  | notIn ids =>
    rw [accepts, Bool.not_eq_true', ← Bool.not_eq_true, IdSet.contains_iff]
    rfl

/-! ## Specificity -/

namespace Conditions

/-- The number of constrained facets that are compared directly. -/
def directCount (conditions : Conditions) : Nat :=
  [conditions.itemType, conditions.loanType, conditions.patronGroup].countP
    fun condition => !condition.isAny

/-- The rank of the deepest constrained place, or 0 if no place is constrained. -/
def deepestRank (conditions : Conditions) : Nat :=
  if conditions.location ≠ .any then 4
  else if conditions.library ≠ .any then 3
  else if conditions.campus ≠ .any then 2
  else if conditions.institution ≠ .any then 1
  else 0

theorem length_filter_not_isPlace (conditions : Conditions) :
    (conditions.constrained.filter fun facet => !facet.isPlace).length =
      conditions.directCount := by
  rw [constrained, List.filter_filter, ← List.countP_eq_length_filter]
  simp only [Facet.all, List.countP_cons, List.countP_nil, Facet.isPlace, Facet.level?,
    Option.isSome_none, Option.isSome_some, Bool.not_false, Bool.true_and, Bool.not_true,
    Bool.false_and, get, directCount]
  rfl

/-- Only constrained places have ranks. -/
theorem filterMap_rank?_constrained (conditions : Conditions) :
    conditions.constrained.filterMap Facet.rank? =
      ([Level.institution, .campus, .library, .location].filter
        fun level => !(conditions.get (.place level)).isAny).map Level.rank := by
  have facets : Facet.all = [.itemType, .loanType, .patronGroup] ++
      [Level.institution, .campus, .library, .location].map Facet.place := rfl
  have unranked : ∀ chosen : List Facet, (∀ facet ∈ chosen, facet.isPlace = false) →
      chosen.filterMap Facet.rank? = [] := by
    intro chosen direct
    rw [List.filterMap_eq_nil_iff]
    intro facet member
    simpa [Facet.rank?, Facet.isPlace] using direct facet member
  rw [constrained, facets, List.filter_append, List.filterMap_append, unranked, List.nil_append,
    List.filter_map, List.filterMap_map]
  · exact congrFun List.filterMap_eq_map _
  · intro facet member
    have listed := (List.mem_filter.mp member).1
    simp only [List.mem_cons, List.not_mem_nil, or_false] at listed
    rcases listed with rfl | rfl | rfl <;> rfl

theorem foldl_max_rank (conditions : Conditions) :
    ((conditions.constrained.filterMap Facet.rank?).foldl max 0).toNat =
      conditions.deepestRank := by
  rw [filterMap_rank?_constrained]
  simp only [deepestRank, ne_eq, ← Condition.isAny_eq_true_iff, List.filter, get]
  cases conditions.institution.isAny <;> cases conditions.campus.isAny <;>
    cases conditions.library.isAny <;> cases conditions.location.isAny <;> rfl

theorem toNat_specificity (conditions : Conditions) :
    conditions.specificity.toNat = conditions.directCount + conditions.deepestRank := by
  have few : conditions.directCount ≤ 3 := List.countP_le_length
  have shallow : conditions.deepestRank ≤ 4 := by
    unfold deepestRank
    split_ifs <;> omega
  rw [specificity, UInt8.toNat_add, foldl_max_rank, length_filter_not_isPlace,
    UInt8.toNat_ofNat']
  omega

end Conditions

/-! ## The scan -/

/-- All seven conditions of a line hold: three of what the query names itself, three of the places
above its location, and one of the location. -/
def RuleLine.Holds (line : RuleLine) (query : Query) (ancestors : Ancestors) : Prop :=
  line.conditions.itemType.Holds query.itemType ∧
    line.conditions.loanType.Holds query.loanType ∧
    line.conditions.patronGroup.Holds query.patronGroup ∧
    line.conditions.institution.Holds ancestors.institution ∧
    line.conditions.campus.Holds ancestors.campus ∧
    line.conditions.library.Holds ancestors.library ∧
    line.conditions.location.Holds query.location

instance (line : RuleLine) (query : Query) (ancestors : Ancestors) :
    Decidable (line.Holds query ancestors) := by
  unfold RuleLine.Holds
  infer_instance

theorem RuleLine.accepts_iff_holds {line : RuleLine} {query : Query} {ancestors : Ancestors} :
    line.accepts query ancestors = true ↔ line.Holds query ancestors := by
  simp only [accepts, Facet.all, List.all_cons, List.all_nil, Bool.and_true, Bool.and_eq_true,
    Condition.accepts_iff_holds]
  rfl

namespace Match

/-- A match is no weaker than another: it is more specific, or as specific and from no earlier
line. -/
def precedes (found other : Match) : Bool :=
  other.specificity < found.specificity ||
    (found.specificity == other.specificity && other.line ≤ found.line)

/-- A match is strictly stronger than another. -/
def Outranks (found other : Match) : Prop :=
  other.specificity < found.specificity ∨
    found.specificity = other.specificity ∧ other.line < found.line

end Match

/-- The match of a line whose conditions hold, if it assigns the kind that is asked for. -/
def RuleLine.scan? (line : RuleLine) (query : Query) (ancestors : Ancestors) : Option Match :=
  if line.Holds query ancestors then
    (line.policies.get query.kind).map fun policyId =>
      ⟨policyId, line.number,
        UInt8.ofNat (line.conditions.directCount + line.conditions.deepestRank)⟩
  else none

/-- The matches of all lines, the strongest first. -/
def RuleSet.scan (rules : RuleSet) (query : Query) (ancestors : Ancestors) : List Match :=
  (rules.lines.toList.filterMap fun line => line.scan? query ancestors).mergeSort Match.precedes

/-! ## Answers -/

section Answers

variable {lines : List RuleLine} {query : Query} {ancestors : Ancestors}

/-- The match of a line that assigns a kind; another line has no policy id to give. -/
def RuleLine.matchFor (kind : PolicyKind) (line : RuleLine) : Match :=
  ⟨(line.policies.get kind).getD "", line.number, line.specificity⟩

/-- Whether the scan keeps a line. -/
def RuleLine.kept (query : Query) (ancestors : Ancestors) (line : RuleLine) : Bool :=
  line.policies.contains query.kind && line.accepts query ancestors

theorem filterMap_scan?_eq
    (scored : ∀ line ∈ lines, line.specificity = line.conditions.specificity) :
    lines.filterMap (fun line => line.scan? query ancestors) =
      (lines.filter (RuleLine.kept query ancestors)).map (RuleLine.matchFor query.kind) := by
  induction lines with
  | nil => rfl
  | cons line rest ih =>
    have others := ih fun other member => scored other (List.mem_cons_of_mem line member)
    have score : UInt8.ofNat (line.conditions.directCount + line.conditions.deepestRank) =
        line.specificity := by
      rw [scored line List.mem_cons_self, ← Conditions.toNat_specificity, UInt8.ofNat_toNat]
    rw [List.filterMap_cons, RuleLine.scan?, List.filter_cons, RuleLine.kept, PolicyMap.contains,
      others, score]
    by_cases holds : line.Holds query ancestors
    · rw [if_pos holds, RuleLine.accepts_iff_holds.mpr holds, Bool.and_true]
      cases assigned : line.policies.get query.kind with
      | none => simp
      | some policyId => simp [RuleLine.matchFor, assigned]
    · have refused : line.accepts query ancestors = false := by
        rw [← Bool.not_eq_true, RuleLine.accepts_iff_holds]
        exact holds
      rw [if_neg holds, refused, Bool.and_false]
      simp

theorem match?_eq_some_matchFor {kind : PolicyKind} {line : RuleLine}
    (assigns : line.policies.contains kind = true) :
    line.match? kind = some (line.matchFor kind) := by
  obtain ⟨policyId, assigned⟩ := Option.isSome_iff_exists.mp assigns
  simp [RuleLine.match?, RuleLine.matchFor, assigned]

/-- The scan sorts the matches of the lines it keeps as their lines are sorted. -/
theorem scan_ofLines (defaults : PolicyMap)
    (scored : ∀ line ∈ lines, line.specificity = line.conditions.specificity) :
    (RuleSet.ofLines lines defaults).scan query ancestors =
      ((lines.filter (RuleLine.kept query ancestors)).mergeSort RuleLine.precedes).map
        (RuleLine.matchFor query.kind) := by
  change (lines.filterMap fun line => line.scan? query ancestors).mergeSort Match.precedes = _
  rw [filterMap_scan?_eq scored]
  symm
  apply List.map_mergeSort
  intro line _ other _
  rfl

/-- The ranked lines that accept a query give the matches of the scan. -/
theorem matches_of_rankedLines (defaults : PolicyMap)
    (distinct : lines.Pairwise fun line other => line.number ≠ other.number)
    (scored : ∀ line ∈ lines, line.specificity = line.conditions.specificity) :
    (((RuleSet.ofLines lines defaults).rankedLines query.kind).filter fun line =>
        line.accepts query ancestors).filterMap (fun line => line.match? query.kind) =
      (RuleSet.ofLines lines defaults).scan query ancestors := by
  have accepted : ((RuleSet.ofLines lines defaults).rankedLines query.kind).filter
      (fun line => line.accepts query ancestors) =
        (lines.filter (RuleLine.kept query ancestors)).mergeSort RuleLine.precedes := by
    rw [rankedLines_ofLines, RuleLine.filter_mergeSort_precedes (distinct.filter _),
      List.filter_filter]
    congr 2
    funext line
    exact Bool.and_comm _ _
  rw [accepted, scan_ofLines defaults scored]
  apply List.filterMap_eq_map_iff_forall_eq_some.mpr
  intro line member
  have kept := (List.mem_filter.mp (List.mem_mergeSort.mp member)).2
  rw [RuleLine.kept, Bool.and_eq_true] at kept
  exact match?_eq_some_matchFor kept.1

theorem pairwise_scan_ofLines (defaults : PolicyMap)
    (distinct : lines.Pairwise fun line other => line.number ≠ other.number)
    (scored : ∀ line ∈ lines, line.specificity = line.conditions.specificity) :
    ((RuleSet.ofLines lines defaults).scan query ancestors).Pairwise Match.Outranks := by
  rw [scan_ofLines defaults scored, List.pairwise_map]
  exact RuleLine.pairwise_mergeSort_outranks (distinct.filter _)

end Answers

/-- All that a resolution needs is a default for the kind and the chain of the location. -/
theorem RuleSet.resolveAll_eq {rules : RuleSet} {hierarchy : Hierarchy} {query : Query}
    {policyId : String} {ancestors : Ancestors}
    (declared : rules.defaults.get query.kind = some policyId)
    (found : hierarchy.ancestors? query.location = some ancestors) :
    rules.resolveAll hierarchy query =
      .ok ⟨((rules.rankedLines query.kind).filter fun line =>
        line.accepts query ancestors).filterMap (fun line => line.match? query.kind) ++
          [.fallback policyId]⟩ := by
  rw [resolveAll, fallbackFor, declared, Hierarchy.ancestorsOf, found]
  rfl

/-- The answer to a query is the scan of all lines, strictly in order, and then the default policy.
The places above the location are those to which the records lead from it. -/
theorem RuleSet.resolveAll_eq_scan {rules : RuleSet} (obtained : rules.Obtained)
    {records : List LocationRecord} {hierarchy : Hierarchy}
    (built : Hierarchy.build records = .ok hierarchy) {query : Query} {policyId : String}
    (declared : rules.defaults.get query.kind = some policyId)
    (known : hierarchy.contains query.location = true) :
    ∃ ancestors, (∀ chain, Traced records query.location chain ↔ chain = ancestors) ∧
      rules.resolveAll hierarchy query =
        .ok ⟨rules.scan query ancestors ++ [⟨policyId, 0, 0⟩]⟩ ∧
      (rules.scan query ancestors).Pairwise Match.Outranks := by
  obtain ⟨lines, defaults, written, _, rfl⟩ := obtained.exists_ofLines
  have distinct : lines.Pairwise fun line other => line.number ≠ other.number :=
    written.increasing.imp Std.ne_of_lt
  obtain ⟨ancestors, found⟩ := Option.isSome_iff_exists.mp known
  refine ⟨ancestors, ?_, ?_, pairwise_scan_ofLines defaults distinct written.scored⟩
  · intro chain
    rw [← Hierarchy.ancestors?_eq_some_iff built, found, Option.some.injEq, eq_comm]
  · rw [resolveAll_eq declared found, matches_of_rankedLines defaults distinct written.scored]
    rfl

/-- A desk, in records of which none stands behind those it needs. -/
def sampleRecords : List LocationRecord :=
  [.location "desk" "main", .library "main" "city", .campus "city" "north", .institution "north"]

def sampleQuery : Query :=
  ⟨.loan, "book", "short", "staff", "desk"⟩

theorem resolveAll_eq_scan_sampleQuery :
    ∃ rules hierarchy ancestors,
      RuleSet.ofText RuleSet.sampleText = .ok rules ∧
      Hierarchy.build sampleRecords = .ok hierarchy ∧
      rules.resolveAll hierarchy sampleQuery =
        .ok ⟨rules.scan sampleQuery ancestors ++ [⟨"none", 0, 0⟩]⟩ ∧
      rules.scan sampleQuery ancestors = [⟨"hour", 6, 5⟩, ⟨"week", 4, 1⟩, ⟨"day", 5, 0⟩] := by
  have compiled : ∃ rules, RuleSet.ofText RuleSet.sampleText = .ok rules ∧
      rules.defaults.get sampleQuery.kind = some "none" ∧
      rules.scan sampleQuery ⟨"main", "city", "north"⟩ =
        [⟨"hour", 6, 5⟩, ⟨"week", 4, 1⟩, ⟨"day", 5, 0⟩] := ⟨_, by cbv, by rfl, by cbv⟩
  have built : Hierarchy.build sampleRecords =
      .ok ⟨[("desk", ⟨"main", "city", "north"⟩)]⟩ := by decide
  obtain ⟨rules, read, declared, scanned⟩ := compiled
  have obtained : rules.Obtained := .fromText RuleSet.sampleText (by decide +kernel) read
  obtain ⟨ancestors, unique, resolved, _⟩ :=
    RuleSet.resolveAll_eq_scan obtained built declared (by decide)
  have traced : (⟨"main", "city", "north"⟩ : Ancestors) = ancestors :=
    (unique _).mp (by simp [Traced, sampleRecords, sampleQuery])
  exact ⟨rules, _, ancestors, read, built, resolved, traced ▸ scanned⟩

end Circulation
