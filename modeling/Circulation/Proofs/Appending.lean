import Circulation.Proofs.BestMatch
import Circulation.Proofs.Concatenation

/-!
Contract: rule texts with one more rule line behind.

Owns:
- where one more line goes among lines that are sorted by the order in which they are tried;
- that a text with one more rule line makes the rule set of the text with one more line;
- what that line does to the answers of every query.

Does not own: more lines than one, or lines that are not appended.

The new line has the greatest number. So it is tried before every line that is as specific, and
after those that are more specific only.
-/

namespace Circulation

/-! ## One more line that is tried -/

namespace RuleLine

/-- A line that was written after all others is tried directly before the first that is no more
specific. -/
theorem exists_mergeSort_append {lines : List RuleLine} {line : RuleLine}
    (distinct : lines.Pairwise fun earlier later => earlier.number ≠ later.number)
    (behind : ∀ other ∈ lines, other.number < line.number) :
    ∃ before after, lines.mergeSort precedes = before ++ after ∧
      (lines ++ [line]).mergeSort precedes = before ++ line :: after ∧
      (∀ other ∈ before, line.specificity < other.specificity) ∧
      ∀ other ∈ after, other.specificity ≤ line.specificity := by
  have allDistinct : (lines ++ [line]).Pairwise fun earlier later =>
      earlier.number ≠ later.number := by
    refine List.pairwise_append.mpr ⟨distinct, List.pairwise_singleton _ _, ?_⟩
    intro other member last isLast
    rw [List.mem_singleton.mp isLast]
    exact Std.ne_of_lt (behind other member)
  have member : line ∈ (lines ++ [line]).mergeSort precedes := by
    rw [List.mem_mergeSort]
    exact List.mem_append_right lines List.mem_cons_self
  obtain ⟨before, after, whole⟩ := List.append_of_mem member
  have strict := pairwise_mergeSort_outranks allDistinct
  rw [whole] at strict
  obtain ⟨beforeStrict, lineStrict, beforeLine⟩ := List.pairwise_append.mp strict
  obtain ⟨lineAfter, afterStrict⟩ := List.pairwise_cons.mp lineStrict
  -- Without the line, both the sorted lines and what surrounds it are the other lines in order.
  have others : (before ++ after).Perm lines := by
    have perm : (before ++ line :: after).Perm (lines ++ [line]) := by
      rw [← whole]
      exact List.mergeSort_perm _ _
    have front := List.perm_middle.symm.trans (perm.trans List.perm_append_comm)
    exact front.cons_inv
  have sorted : lines.mergeSort precedes = before ++ after := by
    have perm := (List.mergeSort_perm lines precedes).trans others.symm
    refine perm.eq_of_pairwise ?_ (pairwise_mergeSort_outranks distinct) ?_
    · intro first second _ _ outranks outranked
      exact absurd outranked outranks.asymm
    · refine List.pairwise_append.mpr ⟨beforeStrict, afterStrict, ?_⟩
      intro first firstMember second secondMember
      exact beforeLine first firstMember second (List.mem_cons_of_mem line secondMember)
  refine ⟨before, after, sorted, whole, ?_, ?_⟩
  · intro other otherMember
    rcases beforeLine other otherMember line List.mem_cons_self with more | ⟨_, later⟩
    · exact more
    · have earlier := behind other (others.subset (List.mem_append_left after otherMember))
      exact absurd later (UInt32.lt_asymm earlier)
  · intro other otherMember
    rcases lineAfter other otherMember with more | ⟨same, _⟩
    · exact Std.le_of_lt more
    · exact Std.le_of_eq same.symm

end RuleLine

/-! ## One more match -/

/-- The entries with one more among them, directly before the first that is no more specific. -/
def Match.Inserted (added : Match) (entries more : List Match) : Prop :=
  ∃ before first after, entries = before ++ first :: after ∧
    more = before ++ added :: first :: after ∧
    (∀ entry ∈ before, added.specificity < entry.specificity) ∧
    first.specificity ≤ added.specificity

/-- The first entry is replaced by the one that is added exactly if it is no more specific. -/
theorem Match.Inserted.head_cases {added found next : Match} {entries more others rest : List Match}
    (inserted : added.Inserted entries more) (first : entries = found :: others)
    (firstOfMore : more = next :: rest) :
    found.specificity ≤ added.specificity ∧ next = added ∨
      ¬found.specificity ≤ added.specificity ∧ next = found := by
  obtain ⟨before, weaker, after, rfl, rfl, stronger, atMost⟩ := inserted
  cases before with
  | nil =>
    obtain ⟨rfl, rfl⟩ := List.cons.inj first
    obtain ⟨rfl, rfl⟩ := List.cons.inj firstOfMore
    exact Or.inl ⟨atMost, rfl⟩
  | cons strongest before =>
    obtain ⟨rfl, _⟩ := List.cons.inj first
    obtain ⟨rfl, _⟩ := List.cons.inj firstOfMore
    exact Or.inr ⟨Std.not_le_of_gt (stronger strongest List.mem_cons_self), rfl⟩

/-! ## One more line of a text -/

namespace RuleText

/-- A line that says a rule writes down one rule line, under its own number. -/
theorem exists_line_of_says_rule {number : UInt32} {physicalLine : List Char}
    {constraints : List (Facet × Condition)} {assignments : List (PolicyKind × String)}
    {draft : RuleDraft} (said : Says physicalLine (.rule constraints assignments))
    (drafted : draftOfLine number physicalLine = .ok draft) :
    ∃ line : RuleLine, line.number = number ∧ line.specificity = line.conditions.specificity ∧
      draft = { lines := [line] } ∧
      (Statement.rule constraints assignments).Writes number { lines := [line] } := by
  rcases draftOfLine_eq_ok_iff.mp drafted with ⟨blank, _⟩ | ⟨statement, saidHere, writes⟩
  · exact absurd said (not_says_of_blank blank _)
  · cases (said.iff_eq statement).mp saidHere
    cases writes with
    | rule demanded assigned => exact ⟨_, rfl, rfl, rfl, .rule demanded assigned⟩

end RuleText

namespace RuleSet

open RuleText

/-- A text with a rule line behind makes the rule set of the text with one more line, which bears
the number of the place it stands at. -/
theorem exists_ofLines_append {text added : String} {physicalLine : List Char}
    {constraints : List (Facet × Condition)} {assignments : List (PolicyKind × String)}
    (ended : Text.Ended text) (short : (Text.linesOf text).length < 2 ^ 32 - 1)
    (single : Text.linesOf added = [physicalLine])
    (said : Says physicalLine (.rule constraints assignments)) {rules more : RuleSet}
    (compiled : ofText text = .ok rules) (compiledMore : ofText (text ++ added) = .ok more) :
    ∃ (lines : List RuleLine) (line : RuleLine) (defaults : PolicyMap),
      rules = .ofLines lines defaults ∧ more = .ofLines (lines ++ [line]) defaults ∧
      LinesBetween 1 (1 + (Text.linesOf text).length) lines ∧
      line.number.toNat = 1 + (Text.linesOf text).length ∧
      line.specificity = line.conditions.specificity ∧
      (Statement.rule constraints assignments).Writes line.number { lines := [line] } := by
  obtain ⟨draft, parsed, made⟩ := bind_eq_ok_iff.mp compiled
  obtain ⟨whole, parsedWhole, madeMore⟩ := bind_eq_ok_iff.mp compiledMore
  rw [mapError_eq_ok_iff] at parsed parsedWhole made madeMore
  obtain ⟨defaults, collected, _, rfl⟩ := compile_eq_ok_iff.mp made
  obtain ⟨sameDefaults, collectedMore, _, rfl⟩ := compile_eq_ok_iff.mp madeMore
  have written := linesBetween_draftOfLines parsed (by rw [← Text.linesOf]; omega)
  rw [parse, ← Text.linesOf, ended.linesOf_append, draftOfLines_append] at parsedWhole
  obtain ⟨start, parsedStart, remaining⟩ := bind_eq_ok_iff.mp parsedWhole
  obtain ⟨behind, parsedBehind, same⟩ := bind_eq_ok_iff.mp remaining
  cases Except.ok.inj (parsedStart.symm.trans parsed)
  cases Except.ok.inj same
  rw [single] at parsedBehind
  obtain ⟨first, others, drafted, none, rfl⟩ := draftOfLines_cons_eq_ok_iff.mp parsedBehind
  cases Except.ok.inj none
  obtain ⟨line, numbered, scored, rfl, writes⟩ := exists_line_of_says_rule said drafted
  have sameFallbacks : collectDefaults draft.fallbacks = .ok sameDefaults := by
    rw [← collectedMore]
    simp [RuleDraft.empty]
  cases Except.ok.inj (sameFallbacks.symm.trans collected)
  refine ⟨draft.lines, line, defaults, rfl, ?_, written, ?_, scored, ?_⟩
  · simp [RuleDraft.empty]
  · rw [numbered]
    exact UInt32.toNat_ofNat_of_lt' (by show _ < 2 ^ 32; omega)
  · rw [numbered]
    exact writes

/-! ## One more line of a rule set -/

section Answers

variable {lines : List RuleLine} {line : RuleLine} {defaults : PolicyMap} {hierarchy : Hierarchy}
  {query : Query} {ancestors : Ancestors} {policyId : String}

/-- The answer that numbered lines give: the matches of those that the scan keeps, in order. -/
theorem resolveAll_ofLines {first after : Nat} (written : LinesBetween first after lines)
    (declared : defaults.get query.kind = some policyId)
    (located : hierarchy.ancestors? query.location = some ancestors) :
    (ofLines lines defaults).resolveAll hierarchy query =
      .ok ⟨((lines.filter (RuleLine.kept query ancestors)).mergeSort RuleLine.precedes).map
        (RuleLine.matchFor query.kind) ++ [.fallback policyId]⟩ := by
  have distinct : lines.Pairwise fun line other => line.number ≠ other.number :=
    written.increasing.imp Std.ne_of_lt
  have declaredHere : (ofLines lines defaults).defaults.get query.kind = some policyId := declared
  rw [resolveAll_eq declaredHere located, matches_of_rankedLines defaults distinct written.scored,
    scan_ofLines defaults written.scored]

/-- Where a line goes among sorted lines, its match goes among their matches, of which the default
policy is the last. -/
theorem inserted_matchFor {before after : List RuleLine}
    (stronger : ∀ other ∈ before, line.specificity < other.specificity)
    (weaker : ∀ other ∈ after, other.specificity ≤ line.specificity) (policyId : String) :
    (line.matchFor query.kind).Inserted
      ((before ++ after).map (RuleLine.matchFor query.kind) ++ [.fallback policyId])
      ((before ++ line :: after).map (RuleLine.matchFor query.kind) ++ [.fallback policyId]) := by
  have strongerMatches : ∀ entry ∈ before.map (RuleLine.matchFor query.kind),
      (line.matchFor query.kind).specificity < entry.specificity := by
    intro entry member
    obtain ⟨other, otherMember, rfl⟩ := List.mem_map.mp member
    exact stronger other otherMember
  cases after with
  | nil => exact ⟨_, .fallback policyId, [], by simp, by simp, strongerMatches, UInt8.zero_le⟩
  | cons other after =>
    have atMost := weaker other List.mem_cons_self
    exact ⟨_, other.matchFor query.kind,
      after.map (RuleLine.matchFor query.kind) ++ [.fallback policyId], by simp, by simp,
      strongerMatches, atMost⟩

/-- A line behind all others leaves the answer as it is, unless the scan keeps it; then its match is
inserted. -/
theorem resolveAll_append {after : Nat} (written : LinesBetween 1 after (lines ++ [line]))
    (declared : defaults.get query.kind = some policyId)
    (located : hierarchy.ancestors? query.location = some ancestors) :
    ∃ entries more, (ofLines lines defaults).resolveAll hierarchy query = .ok ⟨entries⟩ ∧
      (ofLines (lines ++ [line]) defaults).resolveAll hierarchy query = .ok ⟨more⟩ ∧
      (∀ entry ∈ entries, entry.line < line.number) ∧
      (line.kept query ancestors = false → more = entries) ∧
      (line.kept query ancestors = true → (line.matchFor query.kind).Inserted entries more) := by
  have behind : ∀ other ∈ lines, other.number < line.number := by
    intro other member
    exact (List.pairwise_append.mp written.increasing).2.2 other member line List.mem_cons_self
  have writtenLines : LinesBetween 1 after lines :=
    ⟨(List.pairwise_append.mp written.increasing).1,
      fun other member => written.bounds other (List.mem_append_left _ member),
      fun other member => written.scored other (List.mem_append_left _ member)⟩
  refine ⟨_, _, resolveAll_ofLines writtenLines declared located,
    resolveAll_ofLines written declared located, ?_, ?_, ?_⟩
  · intro entry member
    rcases List.mem_append.mp member with member | isFallback
    · obtain ⟨other, otherMember, rfl⟩ := List.mem_map.mp member
      have kept := List.mem_filter.mp (List.mem_mergeSort.mp otherMember)
      exact behind other kept.1
    · rw [List.mem_singleton.mp isFallback, UInt32.lt_iff_toNat_lt]
      exact (written.bounds line (List.mem_append_right lines List.mem_cons_self)).1
  · intro notKept
    simp [notKept]
  · intro kept
    have distinct : (lines.filter (RuleLine.kept query ancestors)).Pairwise
        fun earlier later => earlier.number ≠ later.number :=
      (writtenLines.increasing.imp Std.ne_of_lt).filter _
    obtain ⟨before, behindLine, sorted, sortedMore, stronger, weaker⟩ :=
      RuleLine.exists_mergeSort_append distinct
        (fun other member => behind other (List.mem_filter.mp member).1)
    have keptLast : (lines ++ [line]).filter (RuleLine.kept query ancestors) =
        lines.filter (RuleLine.kept query ancestors) ++ [line] := by
      simp [kept]
    rw [keptLast, sorted, sortedMore]
    exact inserted_matchFor stronger weaker policyId

/-- The scan keeps the lines that assign the kind of the query and accept it. -/
theorem kept_iff : line.kept query ancestors = true ↔
    (∃ policyId, line.policies.get query.kind = some policyId) ∧
      line.accepts query ancestors = true := by
  rw [RuleLine.kept, Bool.and_eq_true, PolicyMap.contains, Option.isSome_iff_exists]

/-- The best match becomes another exactly if the scan keeps the line and the line is at least as
specific as the best match was. -/
theorem best_ne_iff {entries list others rest : List Match} {found next : Match}
    (first : entries = found :: others) (firstOfMore : list = next :: rest)
    (earlier : ∀ entry ∈ entries, entry.line < line.number)
    (unkept : line.kept query ancestors = false → list = entries)
    (kept : line.kept query ancestors = true →
      (line.matchFor query.kind).Inserted entries list) :
    next ≠ found ↔
      line.kept query ancestors = true ∧ found.specificity ≤ line.specificity := by
  cases applies : line.kept query ancestors with
  | false =>
    rw [unkept applies, first] at firstOfMore
    simp [(List.cons.inj firstOfMore).1]
  | true =>
    rcases (kept applies).head_cases first firstOfMore with
      ⟨atMost, replaced⟩ | ⟨notAtMost, stays⟩
    · have distinct : next ≠ found := by
        rintro rfl
        have older := earlier next (first ▸ List.mem_cons_self)
        rw [replaced] at older
        exact UInt32.lt_irrefl _ older
      exact iff_of_true distinct ⟨rfl, atMost⟩
    · exact iff_of_false (fun changed => changed stays) (fun both => notAtMost both.2)

/-- The best match is the first of all matches. -/
theorem resolveOne_of_resolveAll {rules : RuleSet} (made : rules.Made) {entries : List Match}
    (answered : rules.resolveAll hierarchy query = .ok ⟨entries⟩) :
    ∃ found others, entries = found :: others ∧ rules.resolveOne hierarchy query = .ok found := by
  rcases resolve_cases made hierarchy query with ⟨found, others, one, all, _⟩ | ⟨cause, _, all, _⟩
  · rw [all] at answered
    cases Except.ok.inj answered
    exact ⟨found, others, rfl, one⟩
  · simp [all] at answered

end Answers

/-! ## One more rule of a text -/

/-- A rule line behind a text takes the greatest number. A query without answer is refused for the
same cause as before. Another query gets the list that it got before, unless the line assigns its
kind and accepts it: then the match of the line is inserted, directly before the first match that is
no more specific. So the best match becomes another exactly if the line does both and is at least as
specific as the best match was. -/
theorem resolve_append {text added : String} {physicalLine : List Char}
    {constraints : List (Facet × Condition)} {assignments : List (PolicyKind × String)}
    (ended : Text.Ended text) (short : (Text.linesOf text).length < 2 ^ 32 - 1)
    (single : Text.linesOf added = [physicalLine])
    (said : Says physicalLine (.rule constraints assignments)) {rules more : RuleSet}
    (compiled : ofText text = .ok rules) (compiledMore : ofText (text ++ added) = .ok more) :
    ∃ line : RuleLine, line.number.toNat = 1 + (Text.linesOf text).length ∧
      (Statement.rule constraints assignments).Writes line.number { lines := [line] } ∧
      ∀ (hierarchy : Hierarchy) (query : Query),
        (∃ cause, rules.resolveAll hierarchy query = .error cause ∧
          more.resolveAll hierarchy query = .error cause ∧
          rules.resolveOne hierarchy query = .error cause ∧
          more.resolveOne hierarchy query = .error cause) ∨
        ∃ ancestors entries found next,
          hierarchy.ancestors? query.location = some ancestors ∧
          rules.resolveAll hierarchy query = .ok ⟨entries⟩ ∧
          rules.resolveOne hierarchy query = .ok found ∧
          more.resolveOne hierarchy query = .ok next ∧
          (line.policies.get query.kind = none ∨ line.accepts query ancestors = false →
            more.resolveAll hierarchy query = .ok ⟨entries⟩) ∧
          (∀ policyId, line.policies.get query.kind = some policyId →
            line.accepts query ancestors = true →
            ∃ list, more.resolveAll hierarchy query = .ok ⟨list⟩ ∧
              Match.Inserted ⟨policyId, line.number, line.specificity⟩ entries list ∧
              (found.specificity ≤ line.specificity →
                next = ⟨policyId, line.number, line.specificity⟩)) ∧
          (next ≠ found ↔ (∃ policyId, line.policies.get query.kind = some policyId) ∧
            line.accepts query ancestors = true ∧ found.specificity ≤ line.specificity) := by
  obtain ⟨lines, line, defaults, rfl, rfl, written, numbered, scored, writes⟩ :=
    exists_ofLines_append ended short single said compiled compiledMore
  have writtenMore : LinesBetween 1 (2 + (Text.linesOf text).length) (lines ++ [line]) := by
    refine written.append ?_ (by omega) (by omega)
    rw [LinesBetween.cons_iff]
    exact ⟨by omega, by omega, scored, .nil _ _⟩
  refine ⟨line, numbered, writes, ?_⟩
  intro hierarchy query
  cases declared : defaults.get query.kind with
  | none =>
    have refused := @resolve_of_undeclared (ofLines lines defaults) query hierarchy declared
    have refusedMore :=
      @resolve_of_undeclared (ofLines (lines ++ [line]) defaults) query hierarchy declared
    exact Or.inl ⟨_, refused.2, refusedMore.2, refused.1, refusedMore.1⟩
  | some fallback =>
    cases located : hierarchy.ancestors? query.location with
    | none =>
      have refused := @resolve_of_unlocated (ofLines lines defaults) _ _ _ declared located
      have refusedMore :=
        @resolve_of_unlocated (ofLines (lines ++ [line]) defaults) _ _ _ declared located
      exact Or.inl ⟨_, refused.2, refusedMore.2, refused.1, refusedMore.1⟩
    | some ancestors =>
      obtain ⟨entries, list, answered, answeredMore, earlier, unkept, kept⟩ :=
        resolveAll_append writtenMore declared located
      obtain ⟨found, others, first, one⟩ := resolveOne_of_resolveAll (.fromText _ compiled) answered
      obtain ⟨next, rest, firstOfMore, oneOfMore⟩ :=
        resolveOne_of_resolveAll (.fromText _ compiledMore) answeredMore
      refine Or.inr ⟨ancestors, entries, found, next, rfl, answered, one, oneOfMore, ?_, ?_, ?_⟩
      · intro unapplied
        have notKept : line.kept query ancestors = false := by
          rw [← Bool.not_eq_true, kept_iff]
          rintro ⟨⟨policyId, assigned⟩, accepted⟩
          simp [assigned, accepted] at unapplied
        rw [answeredMore, unkept notKept]
      · intro policyId assigned accepted
        have inserted := kept (kept_iff.mpr ⟨⟨policyId, assigned⟩, accepted⟩)
        rw [RuleLine.matchFor, assigned] at inserted
        refine ⟨list, answeredMore, inserted, ?_⟩
        intro atMost
        rcases inserted.head_cases first firstOfMore with ⟨_, replaced⟩ | ⟨notAtMost, _⟩
        · exact replaced
        · exact absurd atMost notAtMost
      · rw [← and_assoc, ← kept_iff]
        exact best_ne_iff first firstOfMore earlier unkept kept

theorem resolve_append_sampleStart :
    ∃ rules more, ofText sampleStart = .ok rules ∧
      ofText (sampleStart ++ "t short: l hour // new\n") = .ok more ∧
      rules.resolveOne ⟨[("desk", ⟨"main", "city", "north"⟩)]⟩ sampleQuery = .ok ⟨"week", 4, 1⟩ ∧
      more.resolveOne ⟨[("desk", ⟨"main", "city", "north"⟩)]⟩ sampleQuery = .ok ⟨"hour", 5, 1⟩ ∧
      ∃ line : RuleLine, line.number.toNat = 5 ∧
        Statement.Writes line.number
          (.rule [(.loanType, .isIn (.ofList ["short"]))] [(.loan, "hour")]) { lines := [line] } ∧
        line.accepts sampleQuery ⟨"main", "city", "north"⟩ = true ∧ 1 ≤ line.specificity := by
  have compiled : ∃ rules, ofText sampleStart = .ok rules ∧
      rules.resolveOne ⟨[("desk", ⟨"main", "city", "north"⟩)]⟩ sampleQuery =
        .ok ⟨"week", 4, 1⟩ := ⟨_, by cbv, by cbv⟩
  have compiledMore : ∃ more, ofText (sampleStart ++ "t short: l hour // new\n") = .ok more ∧
      more.resolveOne ⟨[("desk", ⟨"main", "city", "north"⟩)]⟩ sampleQuery =
        .ok ⟨"hour", 5, 1⟩ := ⟨_, by cbv, by cbv⟩
  obtain ⟨rules, read, one⟩ := compiled
  obtain ⟨more, readMore, oneOfMore⟩ := compiledMore
  have ended : Text.Ended sampleStart :=
    .inr ⟨"fallback-policy: l none r hold\r\n\n# notes\nm book: l week // kept\r", by decide⟩
  have counted : (Text.linesOf sampleStart).length = 4 := by cbv
  have said : Says "t short: l hour // new".toList
      (.rule [(.loanType, .isIn (.ofList ["short"]))] [(.loan, "hour")]) :=
    ⟨derives_of_readStatement (by cbv), by decide, by decide⟩
  obtain ⟨line, numbered, writes, answers⟩ :=
    resolve_append ended (by rw [counted]; decide) (by decide +kernel) said read readMore
  refine ⟨rules, more, read, readMore, one, oneOfMore, line, by omega, writes, ?_⟩
  rcases answers ⟨[("desk", ⟨"main", "city", "north"⟩)]⟩ sampleQuery with
    ⟨cause, _, _, refused, _⟩ |
      ⟨ancestors, _, found, next, located, _, oneHere, nextHere, _, _, changed⟩
  · simp [one] at refused
  · rw [one] at oneHere
    rw [oneOfMore] at nextHere
    cases Except.ok.inj oneHere
    cases Except.ok.inj nextHere
    have same : (⟨"main", "city", "north"⟩ : Ancestors) = ancestors := Option.some.inj located
    obtain ⟨_, accepted, atLeast⟩ := changed.mp (by decide)
    exact ⟨same ▸ accepted, atLeast⟩

end RuleSet

end Circulation
