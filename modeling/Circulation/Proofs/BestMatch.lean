import Circulation.Proofs.Scan

/-!
Contract: the best match of a query against the list of all its matches.

Owns:
- rule sets of any length, whichever way they came about;
- when a query has no answer, and that it then has neither of the two answers;
- that the best match is the first of all matches.

Does not own: in which order matches follow one another.

The best match is that of the first line that accepts the query, and the list of all matches leaves
out accepting lines that do not assign the kind. The two agree because every ranked line assigns it.
-/

namespace Circulation

namespace RuleSet

/-! ## Rule sets of any length -/

/-- A rule set that was read, made step by step or restored. Texts and step sequences may be so long
that the 32 bits of line numbers do not tell their lines apart. -/
inductive Made (rules : RuleSet) : Prop where
  | fromText (text : String) (compiled : ofText text = .ok rules)
  | fromSteps (steps : List DraftStep) (compiled : compile (.ofSteps steps) = .ok rules)
  | fromBytes (blob : List UInt8) (restored : Cache.toRuleSet blob = .ok rules)

theorem Obtained.made {rules : RuleSet} (obtained : rules.Obtained) : rules.Made := by
  cases obtained with
  | fromText text _ compiled => exact .fromText text compiled
  | fromSteps steps _ compiled => exact .fromSteps steps compiled
  | fromBytes blob restored => exact .fromBytes blob restored

/-- Whatever their numbers, the lines of a rule set passed their checks and are ranked. -/
theorem Made.exists_ofLines {rules : RuleSet} (made : rules.Made) :
    ∃ lines defaults, checkLines defaults lines = .ok () ∧ rules = .ofLines lines defaults := by
  cases made with
  | fromText text compiled =>
    obtain ⟨draft, _, compiledDraft⟩ := bind_eq_ok_iff.mp compiled
    obtain ⟨defaults, _, checked, same⟩ :=
      compile_eq_ok_iff.mp (mapError_eq_ok_iff.mp compiledDraft)
    exact ⟨draft.lines, defaults, checked, same⟩
  | fromSteps steps compiled =>
    obtain ⟨defaults, _, checked, same⟩ := compile_eq_ok_iff.mp compiled
    exact ⟨(RuleDraft.ofSteps steps).lines, defaults, checked, same⟩
  | fromBytes blob restored =>
    obtain ⟨payload, _, made⟩ := bind_eq_ok_iff.mp restored
    obtain ⟨lines, defaults, _, checked, same, _⟩ :=
      Cache.Payload.toRuleSet_eq_ok_iff.mp (mapError_eq_ok_iff.mp made)
    exact ⟨lines, defaults, checked, same⟩

/-- Every line that is tried for a kind assigns it. -/
theorem Made.assigns_of_ranked {rules : RuleSet} (made : rules.Made) {kind : PolicyKind}
    {line : RuleLine} (ranked : line ∈ rules.rankedLines kind) :
    line.policies.contains kind = true := by
  obtain ⟨lines, defaults, _, rfl⟩ := made.exists_ofLines
  rw [rankedLines_ofLines, List.mem_mergeSort] at ranked
  exact (List.mem_filter.mp ranked).2

/-- A kind without default is assigned by no line. -/
theorem Made.unassigned_of_undeclared {rules : RuleSet} (made : rules.Made) {kind : PolicyKind}
    (undeclared : rules.defaults.get kind = none) {line : RuleLine}
    (member : line ∈ rules.lines) : line.policies.get kind = none := by
  obtain ⟨lines, defaults, checked, rfl⟩ := made.exists_ofLines
  have passed := checkLines_eq_ok_iff.mp checked line (List.mem_toArray.mp member)
  have covered := (RuleLine.check_eq_ok_iff.mp passed).2 kind
  rw [← Option.not_isSome_iff_eq_none]
  intro assigned
  have declared : (defaults.get kind).isSome = true := covered assigned
  have undeclaredHere : defaults.get kind = none := undeclared
  simp [undeclaredHere] at declared

/-! ## Queries without answer -/

section Answers

variable {rules : RuleSet} {hierarchy : Hierarchy} {query : Query}

theorem resolve_of_undeclared (hierarchy : Hierarchy)
    (undeclared : rules.defaults.get query.kind = none) :
    rules.resolveOne hierarchy query = .error (.unknownPolicyKind query.kind) ∧
      rules.resolveAll hierarchy query = .error (.unknownPolicyKind query.kind) := by
  rw [resolveOne, resolveAll, fallbackFor, undeclared]
  exact ⟨rfl, rfl⟩

theorem resolve_of_unlocated {policyId : String}
    (declared : rules.defaults.get query.kind = some policyId)
    (unlocated : hierarchy.ancestors? query.location = none) :
    rules.resolveOne hierarchy query = .error (.unknownLocation query.location) ∧
      rules.resolveAll hierarchy query = .error (.unknownLocation query.location) := by
  rw [resolveOne, resolveAll, fallbackFor, declared, Hierarchy.ancestorsOf, unlocated]
  exact ⟨rfl, rfl⟩

/-! ## Queries with an answer -/

theorem resolveOne_eq {policyId : String} {ancestors : Ancestors}
    (declared : rules.defaults.get query.kind = some policyId)
    (located : hierarchy.ancestors? query.location = some ancestors) :
    rules.resolveOne hierarchy query =
      .ok ((((rules.rankedLines query.kind).find? fun line =>
        line.accepts query ancestors).bind fun line => line.match? query.kind).getD
          (.fallback policyId)) := by
  rw [resolveOne, fallbackFor, declared, Hierarchy.ancestorsOf, located]
  rfl

/-- Among lines that all assign a kind, the match of the first that accepts is the first match of
those that accept. -/
theorem head?_matches {lines : List RuleLine} {kind : PolicyKind} (accepts : RuleLine → Bool)
    (assigning : ∀ line ∈ lines, line.policies.contains kind = true) (fallback : Match) :
    ((lines.filter accepts).filterMap (fun line => line.match? kind) ++ [fallback]).head? =
      some (((lines.find? accepts).bind fun line => line.match? kind).getD fallback) := by
  have matched : (lines.filter accepts).filterMap (fun line => line.match? kind) =
      (lines.filter accepts).map (RuleLine.matchFor kind) := by
    apply List.filterMap_eq_map_iff_forall_eq_some.mpr
    intro line member
    exact match?_eq_some_matchFor (assigning line (List.mem_filter.mp member).1)
  rw [matched, List.head?_append, List.head?_map, List.head?_filter]
  cases found : lines.find? accepts with
  | none => rfl
  | some line =>
    have assigns := assigning line (List.mem_of_find?_eq_some found)
    rw [Option.map_some, Option.bind_some, match?_eq_some_matchFor assigns]
    rfl

/-- A query is answered in both ways or refused in both ways for the same cause. -/
theorem resolve_cases (made : rules.Made) (hierarchy : Hierarchy) (query : Query) :
    (∃ found others, rules.resolveOne hierarchy query = .ok found ∧
        rules.resolveAll hierarchy query = .ok ⟨found :: others⟩ ∧
        (∃ policyId, rules.defaults.get query.kind = some policyId) ∧
        hierarchy.contains query.location = true) ∨
      ∃ cause, rules.resolveOne hierarchy query = .error cause ∧
        rules.resolveAll hierarchy query = .error cause ∧
        (rules.defaults.get query.kind = none ∧ cause = .unknownPolicyKind query.kind ∨
          (∃ policyId, rules.defaults.get query.kind = some policyId) ∧
            hierarchy.contains query.location = false ∧
            cause = .unknownLocation query.location) := by
  cases declared : rules.defaults.get query.kind with
  | none =>
    obtain ⟨one, all⟩ := resolve_of_undeclared hierarchy declared
    exact Or.inr ⟨_, one, all, Or.inl ⟨rfl, rfl⟩⟩
  | some policyId =>
    cases located : hierarchy.ancestors? query.location with
    | none =>
      obtain ⟨one, all⟩ := resolve_of_unlocated declared located
      have unknown : hierarchy.contains query.location = false := by
        rw [Hierarchy.contains, located]
        rfl
      exact Or.inr ⟨_, one, all, Or.inr ⟨⟨policyId, rfl⟩, unknown, rfl⟩⟩
    | some ancestors =>
      have known : hierarchy.contains query.location = true := by
        rw [Hierarchy.contains, located]
        rfl
      have assigning : ∀ line ∈ rules.rankedLines query.kind,
          line.policies.contains query.kind = true := fun _ => made.assigns_of_ranked
      have first := head?_matches (fun line => line.accepts query ancestors) assigning
        (.fallback policyId)
      obtain ⟨others, all⟩ := List.head?_eq_some_iff.mp first
      refine Or.inl ⟨_, others, resolveOne_eq declared located, ?_, ⟨policyId, rfl⟩, known⟩
      rw [resolveAll_eq declared located, all]

/-- The best match follows from the list of all matches, whichever rule set and hierarchy gave it. -/
theorem resolveOne_congr {rules others : RuleSet} (made : rules.Made) (othersMade : others.Made)
    {hierarchy other : Hierarchy} {query otherQuery : Query}
    (same : others.resolveAll other otherQuery = rules.resolveAll hierarchy query) :
    others.resolveOne other otherQuery = rules.resolveOne hierarchy query := by
  rcases resolve_cases made hierarchy query with ⟨found, rest, one, all, _⟩ | ⟨cause, one, all, _⟩
  · rcases resolve_cases othersMade other otherQuery with
      ⟨otherFound, otherRest, otherOne, otherAll, _⟩ | ⟨otherCause, _, otherAll, _⟩
    · rw [all, otherAll] at same
      obtain ⟨rfl, _⟩ := List.cons.inj (MatchList.mk.inj (Except.ok.inj same))
      rw [one, otherOne]
    · rw [all, otherAll] at same
      simp at same
  · rcases resolve_cases othersMade other otherQuery with
      ⟨otherFound, otherRest, _, otherAll, _⟩ | ⟨otherCause, otherOne, otherAll, _⟩
    · rw [all, otherAll] at same
      simp at same
    · rw [all, otherAll] at same
      rw [one, otherOne, Except.error.inj same]

end Answers

/-! ## The two answers -/

/-- The best match is the first of all matches, and a query that has no best match has no matches
for the same cause. The cause is a kind without default, which then no line assigns, or else a
location that the hierarchy does not know. -/
theorem resolveOne_eq_first_of_resolveAll {rules : RuleSet} (made : rules.Made)
    (hierarchy : Hierarchy) (query : Query) :
    (∀ found, rules.resolveOne hierarchy query = .ok found ↔
      ∃ list, rules.resolveAll hierarchy query = .ok list ∧ list.entries.head? = some found) ∧
    (∀ cause, rules.resolveOne hierarchy query = .error cause ↔
      rules.resolveAll hierarchy query = .error cause) ∧
    (∀ cause, rules.resolveOne hierarchy query = .error cause ↔
      rules.defaults.get query.kind = none ∧ cause = .unknownPolicyKind query.kind ∨
        (∃ policyId, rules.defaults.get query.kind = some policyId) ∧
          hierarchy.contains query.location = false ∧
          cause = .unknownLocation query.location) ∧
    ∀ kind, rules.resolveOne hierarchy query = .error (.unknownPolicyKind kind) →
      ∀ line ∈ rules.lines, line.policies.get kind = none := by
  rcases resolve_cases made hierarchy query with
    ⟨found, others, one, all, ⟨policyId, declared⟩, known⟩ | ⟨cause, one, all, reason⟩
  · rw [one, all]
    refine ⟨?_, ?_, ?_, ?_⟩
    · intro other
      simp
    · intro cause
      simp
    · intro cause
      simp [declared, known]
    · intro kind failed
      simp at failed
  · rw [one, all]
    refine ⟨?_, ?_, ?_, ?_⟩
    · intro found
      simp
    · intro other
      simp
    · intro other
      rcases reason with ⟨undeclared, rfl⟩ | ⟨⟨policyId, declared⟩, unknown, rfl⟩
      · rw [Except.error.injEq, @eq_comm _ _ other]
        simp [undeclared]
      · rw [Except.error.injEq, @eq_comm _ _ other]
        simp [declared, unknown]
    · intro kind failed line member
      cases Except.error.inj failed
      rcases reason with ⟨undeclared, same⟩ | ⟨_, _, same⟩
      · cases ResolutionError.unknownPolicyKind.inj same
        exact made.unassigned_of_undeclared undeclared member
      · simp at same

theorem resolveOne_eq_first_of_resolveAll_sampleText :
    ∃ rules, RuleSet.ofText sampleText = .ok rules ∧
      (∃ list, rules.resolveAll ⟨[("desk", ⟨"main", "city", "north"⟩)]⟩ sampleQuery = .ok list ∧
        list.entries.head? = some ⟨"hour", 6, 5⟩) ∧
      rules.resolveAll .empty sampleQuery = .error (.unknownLocation "desk") ∧
      rules.resolveAll .empty (sampleQuery.withKind .notice) =
        .error (.unknownPolicyKind .notice) := by
  have compiled : ∃ rules, RuleSet.ofText sampleText = .ok rules ∧
      rules.resolveOne ⟨[("desk", ⟨"main", "city", "north"⟩)]⟩ sampleQuery =
        .ok ⟨"hour", 6, 5⟩ ∧
      rules.resolveOne .empty sampleQuery = .error (.unknownLocation "desk") ∧
      rules.resolveOne .empty (sampleQuery.withKind .notice) =
        .error (.unknownPolicyKind .notice) := ⟨_, by cbv, by cbv, by cbv, by cbv⟩
  obtain ⟨rules, read, best, unlocated, undeclared⟩ := compiled
  have made : rules.Made := .fromText sampleText read
  obtain ⟨first, _, _, _⟩ := resolveOne_eq_first_of_resolveAll made
    ⟨[("desk", ⟨"main", "city", "north"⟩)]⟩ sampleQuery
  obtain ⟨_, failure, _, _⟩ := resolveOne_eq_first_of_resolveAll made .empty sampleQuery
  obtain ⟨_, failureOfKind, _, _⟩ :=
    resolveOne_eq_first_of_resolveAll made .empty (sampleQuery.withKind .notice)
  exact ⟨rules, read, (first _).mp best, (failure _).mp unlocated,
    (failureOfKind _).mp undeclared⟩

end RuleSet

end Circulation
