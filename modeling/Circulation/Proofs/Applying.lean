import Circulation.Proofs.BestMatch

/-!
Contract: the matches of the lines that apply to a query, and that answers depend on nothing else.

Owns:
- the matches of the lines that assign the kind of a query and accept it, in the order of the lines;
- that the answer to a query is these matches, sorted, and then the default policy;
- that rule sets give the same answers to a query exactly if they have the same default and the same
  of these matches for it.

Does not own: the best match, or which lines apply.

Line numbers tell lines apart, so sorting loses nothing: from an answer the matches come back in the
order of their numbers.
-/

namespace Circulation

namespace RuleSet

/-- The matches of the lines that assign the kind of a query and accept it, in the order in which the
lines were written. -/
def applyingMatches (rules : RuleSet) (query : Query) (ancestors : Ancestors) : List Match :=
  (rules.acceptingLines query ancestors).filterMap fun line => line.match? query.kind

section Matches

variable {rules : RuleSet} {query : Query} {ancestors : Ancestors}

theorem mem_applyingMatches {entry : Match} :
    entry ∈ rules.applyingMatches query ancestors ↔
      ∃ line ∈ rules.lines, line.accepts query ancestors = true ∧
        line.policies.get query.kind = some entry.policyId ∧
        line.number = entry.line ∧ line.specificity = entry.specificity := by
  simp only [applyingMatches, acceptingLines, List.mem_filterMap, List.mem_filter,
    Array.mem_toList_iff, RuleLine.match?, Option.map_eq_some_iff]
  constructor
  · rintro ⟨line, ⟨member, accepted⟩, policyId, assigned, rfl⟩
    exact ⟨line, member, accepted, assigned, rfl, rfl⟩
  · rintro ⟨line, member, accepted, assigned, numbered, scored⟩
    exact ⟨line, ⟨member, accepted⟩, entry.policyId, assigned, by rw [numbered, scored]⟩

/-- The matches bear the numbers of their lines, so they stand in the order of these. -/
theorem increasing_applyingMatches (wellFormed : rules.WellFormed) :
    (rules.applyingMatches query ancestors).Pairwise fun earlier later =>
      earlier.line < later.line := by
  rw [applyingMatches, List.pairwise_filterMap]
  refine (wellFormed.increasing.filter _).imp ?_
  intro earlier later before entry matched other otherMatched
  obtain ⟨_, _, rfl⟩ := Option.map_eq_some_iff.mp matched
  obtain ⟨_, _, rfl⟩ := Option.map_eq_some_iff.mp otherMatched
  exact before

theorem applyingMatches_ofLines (lines : List RuleLine) (defaults : PolicyMap) :
    (ofLines lines defaults).applyingMatches query ancestors =
      (lines.filter (RuleLine.kept query ancestors)).map (RuleLine.matchFor query.kind) := by
  change (lines.filter fun line => line.accepts query ancestors).filterMap
    (fun line => line.match? query.kind) = _
  induction lines with
  | nil => rfl
  | cons line rest ih =>
    rw [List.filter_cons, List.filter_cons, RuleLine.kept, PolicyMap.contains]
    cases line.accepts query ancestors with
    | false => simpa using ih
    | true =>
      cases assigned : line.policies.get query.kind with
      | none => simpa [RuleLine.match?, assigned] using ih
      | some policyId => simpa [RuleLine.match?, RuleLine.matchFor, assigned] using ih

end Matches

/-! ## Answers -/

section Answers

variable {rules others : RuleSet} {hierarchy : Hierarchy} {query : Query} {ancestors : Ancestors}

/-- An answer is the matches of the lines that apply, the strongest first, and then the default
policy. -/
theorem resolveAll_eq_applyingMatches (obtained : rules.Obtained) {policyId : String}
    (declared : rules.defaults.get query.kind = some policyId)
    (located : hierarchy.ancestors? query.location = some ancestors) :
    rules.resolveAll hierarchy query =
      .ok ⟨(rules.applyingMatches query ancestors).mergeSort Match.precedes ++
        [.fallback policyId]⟩ := by
  obtain ⟨lines, defaults, written, _, rfl⟩ := obtained.exists_ofLines
  have distinct : lines.Pairwise fun line other => line.number ≠ other.number :=
    written.increasing.imp Std.ne_of_lt
  rw [resolveAll_eq declared located, matches_of_rankedLines defaults distinct written.scored,
    applyingMatches_ofLines, ← filterMap_scan?_eq written.scored]
  rfl

/-- Rule sets that agree on the default and on the matches of the lines that apply give the same
list. -/
theorem resolveAll_congr (obtained : rules.Obtained) (othersObtained : others.Obtained)
    (sameDefault : others.defaults.get query.kind = rules.defaults.get query.kind)
    (sameMatches : ∀ ancestors, hierarchy.ancestors? query.location = some ancestors →
      others.applyingMatches query ancestors = rules.applyingMatches query ancestors) :
    others.resolveAll hierarchy query = rules.resolveAll hierarchy query := by
  cases declared : rules.defaults.get query.kind with
  | none =>
    rw [declared] at sameDefault
    rw [(resolve_of_undeclared hierarchy declared).2, (resolve_of_undeclared hierarchy sameDefault).2]
  | some policyId =>
    rw [declared] at sameDefault
    cases located : hierarchy.ancestors? query.location with
    | none =>
      rw [(resolve_of_unlocated declared located).2, (resolve_of_unlocated sameDefault located).2]
    | some ancestors =>
      rw [resolveAll_eq_applyingMatches obtained declared located,
        resolveAll_eq_applyingMatches othersObtained sameDefault located,
        sameMatches ancestors located]

/-- A kind without default has no line that applies. -/
theorem applyingMatches_of_undeclared (made : rules.Made)
    (undeclared : rules.defaults.get query.kind = none) :
    rules.applyingMatches query ancestors = [] := by
  rw [List.eq_nil_iff_forall_not_mem]
  intro entry member
  obtain ⟨line, lineMember, _, assigned, _⟩ := mem_applyingMatches.mp member
  rw [made.unassigned_of_undeclared undeclared lineMember] at assigned
  simp at assigned

/-- Matches in the order of their lines are known once they are known in the order of their
strength. -/
theorem eq_of_mergeSort_precedes_eq {entries others : List Match}
    (increasing : entries.Pairwise fun earlier later => earlier.line < later.line)
    (othersIncreasing : others.Pairwise fun earlier later => earlier.line < later.line)
    (same : others.mergeSort Match.precedes = entries.mergeSort Match.precedes) :
    others = entries := by
  have perm : others.Perm entries := by
    have sorted := List.mergeSort_perm others Match.precedes
    rw [same] at sorted
    exact sorted.symm.trans (List.mergeSort_perm entries Match.precedes)
  refine perm.eq_of_pairwise ?_ othersIncreasing increasing
  intro entry other _ _ before after
  exact absurd after (UInt32.lt_asymm before)

/-- The list for a known location shows the default and the matches of the lines that apply. -/
theorem same_of_resolveAll_eq (obtained : rules.Obtained) (othersObtained : others.Obtained)
    (located : hierarchy.ancestors? query.location = some ancestors)
    (same : others.resolveAll hierarchy query = rules.resolveAll hierarchy query) :
    others.defaults.get query.kind = rules.defaults.get query.kind ∧
      others.applyingMatches query ancestors = rules.applyingMatches query ancestors := by
  cases declared : rules.defaults.get query.kind with
  | none =>
    rw [(resolve_of_undeclared hierarchy declared).2] at same
    cases otherDeclared : others.defaults.get query.kind with
    | none =>
      refine ⟨rfl, ?_⟩
      rw [applyingMatches_of_undeclared obtained.made declared,
        applyingMatches_of_undeclared othersObtained.made otherDeclared]
    | some otherId =>
      rw [resolveAll_eq otherDeclared located] at same
      simp at same
  | some policyId =>
    rw [resolveAll_eq_applyingMatches obtained declared located] at same
    cases otherDeclared : others.defaults.get query.kind with
    | none =>
      rw [(resolve_of_undeclared hierarchy otherDeclared).2] at same
      simp at same
    | some otherId =>
      rw [resolveAll_eq_applyingMatches othersObtained otherDeclared located] at same
      have entries := MatchList.mk.inj (Except.ok.inj same)
      obtain ⟨sorted, last⟩ := List.append_inj' entries rfl
      refine ⟨?_, ?_⟩
      · rw [(Match.mk.inj (List.cons.inj last).1).1]
      · exact eq_of_mergeSort_precedes_eq
          (increasing_applyingMatches (wellFormed_of_obtained obtained))
          (increasing_applyingMatches (wellFormed_of_obtained othersObtained)) sorted

end Answers

/-! ## What answers depend on -/

/-- Two rule sets, however they differ otherwise, give the same answers to a query if they have the
same default for its kind and the same matches of the lines that apply to it. What is compared does
decide: for a known location, rule sets with the same list agree on both. -/
theorem resolve_eq_of_applyingMatches_eq {rules others : RuleSet} (obtained : rules.Obtained)
    (othersObtained : others.Obtained) (hierarchy : Hierarchy) (query : Query) :
    (others.defaults.get query.kind = rules.defaults.get query.kind →
      (∀ ancestors, hierarchy.ancestors? query.location = some ancestors →
        others.applyingMatches query ancestors = rules.applyingMatches query ancestors) →
      others.resolveOne hierarchy query = rules.resolveOne hierarchy query ∧
        others.resolveAll hierarchy query = rules.resolveAll hierarchy query) ∧
    ∀ ancestors, hierarchy.ancestors? query.location = some ancestors →
      others.resolveAll hierarchy query = rules.resolveAll hierarchy query →
      others.defaults.get query.kind = rules.defaults.get query.kind ∧
        others.applyingMatches query ancestors = rules.applyingMatches query ancestors := by
  refine ⟨?_, ?_⟩
  · intro sameDefault sameMatches
    have sameList := resolveAll_congr obtained othersObtained sameDefault sameMatches
    exact ⟨resolveOne_congr obtained.made othersObtained.made sameList, sameList⟩
  · intro ancestors located sameList
    exact same_of_resolveAll_eq obtained othersObtained located sameList

/-- Steps whose lines for loans bear the numbers of those of the sample text, behind a line that
applies to no book. -/
def interleavedSteps : List DraftStep :=
  [.fallback .notice "quiet", .fallback .loan "none",
    .line [.condition .itemType (.isIn (.ofList ["dvd"])), .policy .loan "hour"],
    .line [.condition .itemType (.notIn (.ofList ["dvd"])), .policy .loan "week"],
    .line [.policy .notice "loud", .policy .loan "day"],
    .line [.condition .patronGroup (.isIn (.ofList ["staff"])),
      .condition (.place .location) (.isIn (.ofList ["desk"])), .policy .loan "hour"]]

theorem resolve_eq_of_applyingMatches_eq_interleavedSteps :
    ∃ rules others, ofText sampleText = .ok rules ∧
      compile (.ofSteps interleavedSteps) = .ok others ∧
      rules.ranked.get .loan = [2, 0, 1] ∧ others.ranked.get .loan = [3, 1, 0, 2] ∧
      others.resolveOne ⟨[("desk", ⟨"main", "city", "north"⟩)]⟩ sampleQuery =
        rules.resolveOne ⟨[("desk", ⟨"main", "city", "north"⟩)]⟩ sampleQuery ∧
      others.resolveAll ⟨[("desk", ⟨"main", "city", "north"⟩)]⟩ sampleQuery =
        rules.resolveAll ⟨[("desk", ⟨"main", "city", "north"⟩)]⟩ sampleQuery := by
  have applying : ∃ rules others, ofText sampleText = .ok rules ∧
      compile (.ofSteps interleavedSteps) = .ok others ∧
      rules.ranked.get .loan = [2, 0, 1] ∧ others.ranked.get .loan = [3, 1, 0, 2] ∧
      others.defaults.get .loan = rules.defaults.get .loan ∧
      others.applyingMatches sampleQuery ⟨"main", "city", "north"⟩ =
        rules.applyingMatches sampleQuery ⟨"main", "city", "north"⟩ :=
    ⟨_, _, by cbv, by cbv, by cbv, by cbv, by cbv, by cbv⟩
  obtain ⟨rules, others, read, made, ranked, othersRanked, sameDefault, sameMatches⟩ := applying
  have obtained : rules.Obtained := .fromText sampleText (by decide +kernel) read
  have othersObtained : others.Obtained := .fromSteps interleavedSteps (by decide) made
  obtain ⟨one, all⟩ := (resolve_eq_of_applyingMatches_eq obtained othersObtained
      ⟨[("desk", ⟨"main", "city", "north"⟩)]⟩ sampleQuery).1 sameDefault (by
    intro ancestors located
    cases Option.some.inj located
    exact sameMatches)
  exact ⟨rules, others, read, made, ranked, othersRanked, one, all⟩

end RuleSet

end Circulation
