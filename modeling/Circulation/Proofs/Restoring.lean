import Circulation.Cache.Restoring
import Circulation.Proofs.Collecting
import Circulation.Proofs.Drafting
import Circulation.Proofs.Ranking
import Mathlib.Data.List.Forall2

/-!
Contract: the rule sets that payloads restore to.

Owns:
- when two payloads differ only in what a rule set does not keep;
- that a payload is restored to a rule set exactly if it differs from the stored form of the rule
  set only so.

Does not own: the bytes of payloads.
-/

namespace Circulation.Cache

/-! ## Payloads that say the same -/

/-- Stored conditions that differ at most in the order and the repetition of ids. -/
inductive StoredCondition.Same : StoredCondition → StoredCondition → Prop where
  | any : Same .any .any
  | isIn {ids others : List String} (members : ∀ id, id ∈ ids ↔ id ∈ others) :
      Same (.isIn ids) (.isIn others)
  | notIn {ids others : List String} (members : ∀ id, id ∈ ids ↔ id ∈ others) :
      Same (.notIn ids) (.notIn others)

/-- Stored lines that differ at most inside their conditions and in the order of assignments. -/
structure StoredLine.Same (stored other : StoredLine) : Prop where
  number : stored.number = other.number
  conditions : List.Forall₂ StoredCondition.Same stored.conditions other.conditions
  policies : stored.policies.Perm other.policies

/-- Payloads that differ at most in their digests, inside their lines and in the order of
defaults. -/
structure Payload.Same (payload other : Payload) : Prop where
  lineCount : payload.lineCount = other.lineCount
  defaults : payload.defaults.Perm other.defaults
  lines : List.Forall₂ StoredLine.Same payload.lines other.lines
  rankings : payload.rankings = other.rankings

/-- A stored condition is restored to a condition exactly if it says the same as its stored form. -/
theorem StoredCondition.toCondition_eq_iff {stored : StoredCondition} {condition : Condition} :
    stored.toCondition = condition ↔ stored.Same (ofCondition condition) := by
  constructor
  · rintro rfl
    cases stored with
    | any => exact .any
    | isIn ids => exact .isIn fun id => IdSet.mem_ofList.symm
    | notIn ids => exact .notIn fun id => IdSet.mem_ofList.symm
  · intro same
    cases condition with
    | any =>
      cases same
      rfl
    | isIn set =>
      cases same with
      | isIn members =>
        exact congrArg Condition.isIn
          (IdSet.eq_of_mem_iff fun id => IdSet.mem_ofList.trans (members id))
    | notIn set =>
      cases same with
      | notIn members =>
        exact congrArg Condition.notIn
          (IdSet.eq_of_mem_iff fun id => IdSet.mem_ofList.trans (members id))

namespace Payload

/-! ## Lines -/

/-- The least number that a line may have behind the line with a number, or in front. -/
def leastNumber : Option UInt32 → Nat
  | none => 1
  | some previous => previous.toNat + 1

theorem checkNumber_eq_ok_iff {previous : Option UInt32} {number : UInt32} :
    checkNumber previous number = .ok () ↔ leastNumber previous ≤ number.toNat := by
  rw [checkNumber]
  by_cases zero : number = 0
  · cases previous <;> simp [zero, leastNumber]
  · rw [if_neg zero]
    cases previous with
    | none =>
      have positive : 1 ≤ number.toNat :=
        Nat.one_le_iff_ne_zero.mpr fun isZero => zero (UInt32.toNat_inj.mp isZero)
      simp [leastNumber, positive]
    | some before =>
      by_cases ordered : number ≤ before
      · have notAbove := UInt32.le_iff_toNat_le.mp ordered
        simp [Option.filter, ordered, leastNumber]
        omega
      · have above := UInt32.lt_iff_toNat_lt.mp (UInt32.not_le.mp ordered)
        simp [Option.filter, ordered, leastNumber]
        omega

theorem restoreConditions_eq_ok_iff {line : UInt32} {stored : List StoredCondition}
    {conditions : Conditions} :
    restoreConditions line stored = .ok conditions ↔
      List.Forall₂ StoredCondition.Same stored
        (conditions.toList.map StoredCondition.ofCondition) := by
  have restored : restoreConditions line stored = .ok conditions ↔
      Conditions.ofList? (stored.map StoredCondition.toCondition) = some conditions := by
    rw [restoreConditions]
    cases Conditions.ofList? (stored.map StoredCondition.toCondition) <;> simp
  have counted : Conditions.ofList? (stored.map StoredCondition.toCondition) = some conditions ↔
      stored.map StoredCondition.toCondition = conditions.toList := by
    constructor
    · exact Conditions.eq_toList_of_ofList?
    · intro same
      rw [same, Conditions.ofList?_toList]
  rw [restored, counted, ← List.forall₂_eq_eq_eq, List.forall₂_map_left_iff,
    List.forall₂_map_right_iff]
  simp only [StoredCondition.toCondition_eq_iff]

theorem restorePolicies_eq_ok_iff {line : UInt32} {stored : List (PolicyKind × String)}
    {policies : PolicyMap} :
    restorePolicies line stored = .ok policies ↔ stored.Perm policies.entries :=
  mapError_eq_ok_iff.trans PolicyMap.ofAssignments_eq_ok_iff

/-- A stored line is restored to a line exactly if it says the same as its stored form, and the line
may stand there. -/
theorem restoreLine_eq_ok_iff {previous : Option UInt32} {stored : StoredLine}
    {line : RuleLine} :
    restoreLine previous stored = .ok line ↔
      leastNumber previous ≤ line.number.toNat ∧
        line.specificity = line.conditions.specificity ∧ stored.Same (ofLine line) := by
  rw [restoreLine, bind_eq_ok_iff]
  constructor
  · rintro ⟨_, checked, remaining⟩
    obtain ⟨conditions, conditionsRestored, remaining⟩ := bind_eq_ok_iff.mp remaining
    obtain ⟨policies, policiesRestored, same⟩ := bind_eq_ok_iff.mp remaining
    cases Except.ok.inj same
    exact ⟨checkNumber_eq_ok_iff.mp checked, rfl, rfl,
      restoreConditions_eq_ok_iff.mp conditionsRestored,
      restorePolicies_eq_ok_iff.mp policiesRestored⟩
  · rintro ⟨inOrder, scored, sameNumber, sameConditions, samePolicies⟩
    have number : stored.number = line.number := sameNumber
    refine ⟨(), checkNumber_eq_ok_iff.mpr (number ▸ inOrder), ?_⟩
    refine bind_eq_ok_iff.mpr
      ⟨line.conditions, restoreConditions_eq_ok_iff.mpr sameConditions, ?_⟩
    refine bind_eq_ok_iff.mpr ⟨line.policies, restorePolicies_eq_ok_iff.mpr samePolicies, ?_⟩
    rw [number, RuleLine.scored, ← scored]
    rfl

theorem restoreLines_cons_eq_ok_iff {previous : Option UInt32} {stored : StoredLine}
    {rest : List StoredLine} {restored : List RuleLine} :
    restoreLines previous (stored :: rest) = .ok restored ↔
      ∃ line lines, restoreLine previous stored = .ok line ∧
        restoreLines (some line.number) rest = .ok lines ∧ restored = line :: lines := by
  rw [restoreLines, bind_eq_ok_iff]
  constructor
  · rintro ⟨line, lineRestored, remaining⟩
    obtain ⟨lines, linesRestored, same⟩ := bind_eq_ok_iff.mp remaining
    exact ⟨line, lines, lineRestored, linesRestored, (Except.ok.inj same).symm⟩
  · rintro ⟨line, lines, lineRestored, linesRestored, rfl⟩
    exact ⟨line, lineRestored, bind_eq_ok_iff.mpr ⟨lines, linesRestored, rfl⟩⟩

/-- Stored lines are restored to lines exactly if they say the same as their stored forms, and the
lines stand in order above the line before them. -/
theorem restoreLines_eq_ok_iff {previous : Option UInt32} {stored : List StoredLine}
    {lines : List RuleLine} :
    restoreLines previous stored = .ok lines ↔
      LinesBetween (leastNumber previous) (2 ^ 32) lines ∧
        List.Forall₂ StoredLine.Same stored (lines.map ofLine) := by
  -- Each line sets the least number for the next one, so the line before is generalized.
  induction stored generalizing previous lines with
  | nil =>
    rw [restoreLines, List.forall₂_nil_left_iff, List.map_eq_nil_iff, Except.ok.injEq]
    constructor
    · rintro rfl
      exact ⟨.nil _ _, rfl⟩
    · rintro ⟨_, rfl⟩
      rfl
  | cons head rest ih =>
    rw [restoreLines_cons_eq_ok_iff]
    constructor
    · rintro ⟨line, others, headRestored, othersRestored, rfl⟩
      obtain ⟨inOrder, scored, same⟩ := restoreLine_eq_ok_iff.mp headRestored
      obtain ⟨written, othersSame⟩ := ih.mp othersRestored
      exact ⟨LinesBetween.cons_iff.mpr ⟨inOrder, line.number.toNat_lt, scored, written⟩,
        .cons same othersSame⟩
    · rintro ⟨written, sameAll⟩
      cases lines with
      | nil => cases sameAll
      | cons line others =>
        obtain ⟨same, othersSame⟩ := List.forall₂_cons.mp sameAll
        obtain ⟨inOrder, _, scored, othersWritten⟩ := LinesBetween.cons_iff.mp written
        exact ⟨line, others, restoreLine_eq_ok_iff.mpr ⟨inOrder, scored, same⟩,
          ih.mpr ⟨othersWritten, othersSame⟩, rfl⟩

/-! ## Rankings -/

/-- A stored ranking passes exactly if it is the one that the lines have. -/
theorem checkRanking_eq_ok_iff {lines : List RuleLine} {kind : PolicyKind} {stored : List Nat} :
    checkRanking lines kind stored = .ok () ↔ stored = ranking lines kind := by
  rw [checkRanking]
  constructor
  · intro passed
    split at passed
    · simp at passed
    · by_cases same : stored = ranking lines kind
      · exact same
      · simp [same] at passed
  · rintro rfl
    have inRange : ((ranking lines kind).find? fun position => lines.length ≤ position) = none := by
      rw [List.find?_eq_none]
      intro position member
      obtain ⟨entry, entryMember, rfl⟩ := List.mem_map.mp member
      have found := (mem_rankedEntries.mp entryMember).1
      have bound := (List.getElem?_eq_some_iff.mp found).1
      simpa using bound
    rw [inRange]
    simp

/-- Rankings are restored exactly if they are, kind by kind, those that the lines have. -/
theorem restoreRankings_eq_ok_iff {lines : List RuleLine} {stored : List (List Nat)}
    {ranked : PerKind (List Nat)} :
    restoreRankings lines stored = .ok ranked ↔
      stored = ranked.toList ∧ ranked = .ofFn (ranking lines) := by
  rw [restoreRankings]
  constructor
  · intro restored
    split at restored
    · simp at restored
    · next rankings counted =>
      obtain ⟨_, loanPassed, remaining⟩ := bind_eq_ok_iff.mp restored
      obtain ⟨_, requestPassed, remaining⟩ := bind_eq_ok_iff.mp remaining
      obtain ⟨_, noticePassed, same⟩ := bind_eq_ok_iff.mp remaining
      cases Except.ok.inj same
      refine ⟨PerKind.eq_toList_of_ofList? counted, PerKind.ext_get fun kind => ?_⟩
      rw [PerKind.get_ofFn]
      cases kind with
      | loan => exact checkRanking_eq_ok_iff.mp loanPassed
      | request => exact checkRanking_eq_ok_iff.mp requestPassed
      | notice => exact checkRanking_eq_ok_iff.mp noticePassed
  · rintro ⟨rfl, rfl⟩
    rw [PerKind.ofList?_toList]
    have passed : ∀ kind, checkRanking lines kind (ranking lines kind) = .ok () :=
      fun _ => checkRanking_eq_ok_iff.mpr rfl
    simp only [PerKind.ofFn, passed, ok_bind]
    rfl

/-! ## Rule sets -/

/-- A payload is restored exactly if it states its number of lines, its defaults and lines are
restored, the lines pass their checks, and its rankings are those that the lines have. -/
theorem toRuleSet_eq_ok_iff_parts {payload : Payload} {rules : RuleSet} :
    payload.toRuleSet = .ok rules ↔
      payload.lineCount = payload.lines.length ∧
        ∃ defaults lines,
          restorePolicies 0 payload.defaults = .ok defaults ∧
            restoreLines none payload.lines = .ok lines ∧
            checkLines defaults lines = .ok () ∧
            payload.rankings = (PerKind.ofFn (ranking lines)).toList ∧
            rules = .ofLines lines defaults := by
  rw [toRuleSet]
  by_cases counted : payload.lineCount = payload.lines.length
  · simp only [counted, ne_eq, not_true_eq_false, if_false, true_and]
    constructor
    · intro restored
      obtain ⟨defaults, defaultsRestored, remaining⟩ := bind_eq_ok_iff.mp restored
      obtain ⟨lines, linesRestored, remaining⟩ := bind_eq_ok_iff.mp remaining
      obtain ⟨_, checked, remaining⟩ := bind_eq_ok_iff.mp remaining
      obtain ⟨ranked, rankedRestored, same⟩ := bind_eq_ok_iff.mp remaining
      obtain ⟨stored, rfl⟩ := restoreRankings_eq_ok_iff.mp rankedRestored
      exact ⟨defaults, lines, defaultsRestored, linesRestored, mapError_eq_ok_iff.mp checked,
        stored, (Except.ok.inj same).symm⟩
    · rintro ⟨defaults, lines, defaultsRestored, linesRestored, checked, stored, rfl⟩
      have rankedRestored : restoreRankings lines payload.rankings =
          .ok (.ofFn (ranking lines)) := restoreRankings_eq_ok_iff.mpr ⟨stored, rfl⟩
      rw [defaultsRestored, ok_bind, linesRestored, ok_bind, checked, rankedRestored]
      rfl
  · simp [counted, bind, Except.bind]

/-- A payload is restored to a rule set exactly if it says the same as its stored form, and the rule
set has numbered lines that pass their checks and are ranked. -/
theorem toRuleSet_eq_ok_iff {payload : Payload} {rules : RuleSet} :
    payload.toRuleSet = .ok rules ↔
      ∃ lines defaults, LinesBetween 1 (2 ^ 32) lines ∧ checkLines defaults lines = .ok () ∧
        rules = .ofLines lines defaults ∧ payload.Same (ofRuleSet rules none) := by
  rw [toRuleSet_eq_ok_iff_parts]
  constructor
  · rintro ⟨counted, defaults, lines, defaultsRestored, linesRestored, checked, ranked, rfl⟩
    obtain ⟨written, linesSame⟩ := restoreLines_eq_ok_iff.mp linesRestored
    refine ⟨lines, defaults, written, checked, rfl, ?_,
      restorePolicies_eq_ok_iff.mp defaultsRestored, linesSame, ranked⟩
    rw [counted, linesSame.length_eq, List.length_map]
    rfl
  · rintro ⟨lines, defaults, written, checked, rfl, counted, sameDefaults, linesSame, ranked⟩
    refine ⟨?_, defaults, lines, restorePolicies_eq_ok_iff.mpr sameDefaults,
      restoreLines_eq_ok_iff.mpr ⟨written, linesSame⟩, checked, ranked, rfl⟩
    rw [counted, linesSame.length_eq]
    exact (List.length_map _).symm

end Payload

end Circulation.Cache
