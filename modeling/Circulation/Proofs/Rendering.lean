import Circulation.Proofs.Places
import Circulation.Proofs.Writing

/-!
Contract: rule lines as they are displayed, read back.

Owns:
- that whatever a line of rule text says can be written;
- what a written statement writes down as a text of its own;
- that the display of a rule line holds, in front of its arrow and behind it, what has to be written
  to get that line again.

Does not own: the written form of a statement, or rule lines that were not read from text. Those may
have ids that are no words, or demand something of a facet by an empty list.
-/

namespace Circulation

namespace RuleText

/-! ## What can be written -/

/-- The words among some tokens are ids. -/
def WordsAreIds (tokens : List Token) : Prop :=
  ∀ word, Token.word word ∈ tokens → IsId word

theorem Lexes.wordsAreIds {text : List Char} {tokens : List Token} (lexes : Lexes text tokens) :
    WordsAreIds tokens := by
  intro word member
  induction lexes with
  | nil => simp at member
  | blank separates others ih => exact ih member
  | mark others ih =>
    rcases List.mem_cons.mp member with same | member
    · simp at same
    · exact ih member
  | word nonempty inside longest others ih =>
    rcases List.mem_cons.mp member with same | member
    · rw [Token.word.inj same]
      exact ⟨nonempty, inside⟩
    · exact ih member

theorem WordsAreIds.of_subset {tokens others : List Token} (words : WordsAreIds tokens)
    (subset : others ⊆ tokens) : WordsAreIds others :=
  fun word member => words word (subset member)

/-- Further ids are words of the tokens that list them. -/
theorem DerivesMoreIds.isId {tokens : List Token} {ids : List String}
    (derives : DerivesMoreIds tokens ids) (words : WordsAreIds tokens) : ∀ id ∈ ids, IsId id := by
  induction derives with
  | done => simp
  | next more ih =>
    have others := ih (words.of_subset (List.subset_cons_self _ _))
    exact List.forall_mem_cons.mpr ⟨words _ List.mem_cons_self, others⟩
  | afterComma more ih =>
    have listed := words.of_subset (List.subset_cons_self _ _)
    have others := ih (listed.of_subset (List.subset_cons_self _ _))
    exact List.forall_mem_cons.mpr ⟨listed _ List.mem_cons_self, others⟩

theorem DerivesIds.writable {tokens : List Token} {ids : List String}
    (derives : DerivesIds tokens ids) (words : WordsAreIds tokens) :
    (IdSet.ofList ids).Writable := by
  cases derives with
  | @first id tokens ids more =>
    have others := more.isId (words.of_subset (List.subset_cons_self _ _))
    refine ⟨List.ne_nil_of_mem (IdSet.mem_ofList.mpr List.mem_cons_self), ?_⟩
    intro member listed
    rcases List.mem_cons.mp (IdSet.mem_ofList.mp listed) with rfl | listed
    · exact words _ List.mem_cons_self
    · exact others member listed

theorem DerivesCondition.writable {tokens : List Token} {condition : Condition}
    (derives : DerivesCondition tokens condition) (words : WordsAreIds tokens) :
    condition.Writable := by
  cases derives with
  | excluded listed => exact listed.writable (words.of_subset (List.subset_cons_self _ _))
  | enclosed listed =>
    exact listed.writable (words.of_subset fun token member => by simp [member])
  | included listed => exact listed.writable words

theorem DerivesConstraint.writable {tokens : List Token} {constraint : Facet × Condition}
    (derives : DerivesConstraint tokens constraint) (words : WordsAreIds tokens) :
    constraint.2.Writable := by
  cases derives with
  | intro named demanded => exact demanded.writable (words.of_subset (List.subset_cons_self _ _))

theorem DerivesMoreConstraints.writable {tokens : List Token}
    {constraints : List (Facet × Condition)} (derives : DerivesMoreConstraints tokens constraints)
    (words : WordsAreIds tokens) : ∀ constraint ∈ constraints, constraint.2.Writable := by
  induction derives with
  | done => simp
  | next here more ih =>
    have first := here.writable (words.of_subset (by simp))
    have others := ih (words.of_subset (by simp))
    exact List.forall_mem_cons.mpr ⟨first, others⟩

theorem DerivesConditions.writable {tokens : List Token} {constraints : List (Facet × Condition)}
    (derives : DerivesConditions tokens constraints) (words : WordsAreIds tokens) :
    ∀ constraint ∈ constraints, constraint.2.Writable := by
  cases derives with
  | all => simp
  | first here more =>
    have first := here.writable (words.of_subset (by simp))
    have others := more.writable (words.of_subset (by simp))
    exact List.forall_mem_cons.mpr ⟨first, others⟩

theorem DerivesMoreAssignments.isId {tokens : List Token}
    {assignments : List (PolicyKind × String)} (derives : DerivesMoreAssignments tokens assignments)
    (words : WordsAreIds tokens) : ∀ assignment ∈ assignments, IsId assignment.2 := by
  induction derives with
  | done => simp
  | next named more ih =>
    have others := ih (words.of_subset (by simp))
    exact List.forall_mem_cons.mpr ⟨words _ (by simp), others⟩

theorem DerivesAssignments.writable {tokens : List Token} {assignments : List (PolicyKind × String)}
    (derives : DerivesAssignments tokens assignments) (words : WordsAreIds tokens) :
    assignments ≠ [] ∧ ∀ assignment ∈ assignments, IsId assignment.2 := by
  cases derives with
  | first named more => exact ⟨by simp, (DerivesMoreAssignments.next named more).isId words⟩

/-- What a line says can be written. -/
theorem Derives.writable {line : List Char} {statement : Statement}
    (derives : Derives line statement) : statement.Writable := by
  obtain ⟨tokens, lexes, derived⟩ := derives
  have words := lexes.wordsAreIds
  cases derived with
  | fallback assigned => exact assigned.writable (words.of_subset (by simp))
  | rule demanded assigned =>
    exact ⟨demanded.writable (words.of_subset (by simp)),
      assigned.writable (words.of_subset (by simp))⟩

/-! ## Written statements as texts -/

/-- A statement that is written on a line of its own writes down what it does on line 1. -/
theorem parse_write {statement : Statement} (writable : statement.Writable) {draft : RuleDraft}
    (writes : statement.Writes 1 draft) : parse statement.write = .ok draft := by
  have derives := derives_write writable
  have ⟨tokens, lexes, _⟩ := derives
  obtain ⟨noLineFeed, _⟩ := lexes.single_line
  obtain ⟨noHash, noSlash⟩ := lexes.uncommented
  have nonempty : statement.write.toList ≠ [] := by
    intro isEmpty
    have notBlank := derives.not_blank
    simp [isEmpty, Text.isBlankLine] at notBlank
  have drafted : draftOfLine 1 statement.write.toList = .ok draft := by
    refine draftOfLine_of_writes ?_ writes
    rwa [Text.stripComment_eq_self noHash noSlash]
  rw [parse, Text.physicalLines_of_not_mem nonempty noLineFeed]
  refine draftOfLines_cons_eq_ok_iff.mpr ⟨draft, .empty, drafted, rfl, ?_⟩
  show draft = RuleDraft.mk _ _
  simp [RuleDraft.empty]

end RuleText

/-! ## Displayed lines -/

namespace RuleLine

/-- What has to be said for a line like this one. -/
def statement (line : RuleLine) : Statement :=
  .rule line.conditions.constraints line.policies.entries

/-- The displayed conditions and the displayed policies are those of the written statement. -/
theorem write_statement (line : RuleLine) :
    line.statement.write = line.renderConditions ++ ": " ++ line.policies.render := by
  have constraints : line.conditions.constraints.map Statement.writeConstraint =
      line.conditions.constrained.map (renderConstraint line.conditions) := by
    rw [Conditions.constraints, List.map_map]
    rfl
  have conditions : Statement.writeConstraints line.conditions.constraints =
      line.renderConditions := by
    rw [Statement.writeConstraints, constraints, renderConditions, isCatchAll,
      Conditions.constraints, List.isEmpty_map]
  show Statement.writeConstraints line.conditions.constraints ++ ": " ++ _ = _
  rw [conditions]
  rfl

end RuleLine

namespace RuleText

/-- A line that was read is as specific as its conditions, and can be written. -/
theorem writable_of_parse {text : String} {draft : RuleDraft} (parsed : parse text = .ok draft) :
    ∀ line ∈ draft.lines,
      line.specificity = line.conditions.specificity ∧ line.statement.Writable := by
  refine forall_lines_of_draftOfLines ?_ parsed
  intro number physicalLine part drafted line member
  rcases draftOfLine_eq_ok_iff.mp drafted with ⟨_, rfl⟩ | ⟨statement, said, writes⟩
  · simp [RuleDraft.empty] at member
  · cases writes with
    | fallback assigned => simp at member
    | @rule constraints assignments conditions policies demanded assigned =>
      obtain ⟨constraintsWritable, nonempty, words⟩ := said.1.writable
      rw [List.mem_singleton.mp member]
      refine ⟨rfl, ?_, ?_, ?_⟩
      · intro constraint constraintMember
        exact constraintsWritable constraint (demanded.mem_iff.mpr constraintMember)
      · intro none
        have noAssignments : assignments.Perm [] := none ▸ assigned
        exact nonempty noAssignments.eq_nil
      · intro assignment assignmentMember
        exact words assignment (assigned.mem_iff.mpr assignmentMember)

/-- The display of a line has one arrow, so what is in front of it and behind it is determined. -/
theorem eq_of_render_eq {line : RuleLine} (writable : line.statement.Writable)
    {conditions policies : String}
    (displayed : line.render =
      toString line.number ++ ": " ++ conditions ++ " => " ++ policies) :
    conditions = line.renderConditions ∧ policies = line.policies.render := by
  have ⟨tokens, lexes, _⟩ := derives_write writable
  have noArrow : '=' ∉ line.statement.write.toList :=
    lexes.not_mem rfl rfl (fun mark => by cases mark <;> decide)
  rw [RuleLine.write_statement, toList_append_append, List.mem_append, List.mem_append, not_or,
    not_or] at noArrow
  have chars := congrArg String.toList displayed
  simp only [RuleLine.render, String.toList_append, List.append_assoc,
    List.append_cancel_left_eq] at chars
  -- Both sides have one arrow, whose first character stands behind a blank.
  have divided : (line.renderConditions.toList ++ [' ']) ++
      '=' :: ('>' :: ' ' :: line.policies.render.toList) =
        (conditions.toList ++ [' ']) ++ '=' :: ('>' :: ' ' :: policies.toList) := by
    simpa using chars
  have noArrowBefore : '=' ∉ line.renderConditions.toList ++ [' '] := by
    simpa using noArrow.1
  have noArrowBehind : '=' ∉ '>' :: ' ' :: line.policies.render.toList := by
    simpa using noArrow.2.2
  obtain ⟨front, _, behind⟩ :=
    (List.append_cons_inj_of_notMem noArrowBefore noArrowBehind).mp divided
  constructor
  · exact String.toList_injective (List.append_cancel_right front.symm)
  · exact String.toList_injective (List.cons.inj (List.cons.inj behind.symm).2).2

/-- The display of a line that was read has a number, conditions and policies. The text that the
conditions and the policies make with a colon between them has no fallbacks and one rule line, and
that is the displayed line except for its number. -/
theorem parse_of_render {text : String} {draft : RuleDraft} (parsed : parse text = .ok draft)
    {line : RuleLine} (member : line ∈ draft.lines) :
    (∃ conditions policies, line.render =
      toString line.number ++ ": " ++ conditions ++ " => " ++ policies) ∧
    ∀ conditions policies, line.render =
      toString line.number ++ ": " ++ conditions ++ " => " ++ policies →
        ∃ again : RuleLine, parse (conditions ++ ": " ++ policies) = .ok { lines := [again] } ∧
          again.conditions = line.conditions ∧ again.policies = line.policies ∧
          again.specificity = line.specificity := by
  obtain ⟨scored, writable⟩ := writable_of_parse parsed line member
  refine ⟨⟨line.renderConditions, line.policies.render, rfl⟩, ?_⟩
  intro conditions policies displayed
  obtain ⟨rfl, rfl⟩ := eq_of_render_eq writable displayed
  refine ⟨.scored 1 line.conditions line.policies, ?_, rfl, rfl, scored.symm⟩
  rw [← RuleLine.write_statement]
  exact parse_write writable (.rule (.refl _) (.refl _))

/-- A line whose ids are keywords. -/
def keywordLine : RuleLine :=
  .scored 1
    { itemType := .notIn (.ofList ["fallback-policy", "item-type"])
      library := .isIn (.ofList ["l", "not"]) }
    ⟨some "not", some "all", none⟩

theorem parse_of_render_keywordLine :
    parse "c not l, not + m not (fallback-policy item-type): r all loan not // kept" =
        .ok { lines := [keywordLine] } ∧
      keywordLine.render = "1: m !fallback-policy, item-type + c l, not => l not r all" ∧
      ∃ again : RuleLine, parse "m !fallback-policy, item-type + c l, not: l not r all" =
          .ok { lines := [again] } ∧
        again.conditions = keywordLine.conditions ∧ again.policies = keywordLine.policies ∧
        again.specificity = keywordLine.specificity := by
  have parsed : parse "c not l, not + m not (fallback-policy item-type): r all loan not // kept" =
      .ok { lines := [keywordLine] } := by decide +kernel
  have displayed : keywordLine.render =
      "1: m !fallback-policy, item-type + c l, not => l not r all" := by decide +kernel
  have readBack := (parse_of_render parsed (List.mem_singleton_self _)).2
    "m !fallback-policy, item-type + c l, not" "l not r all"
  exact ⟨parsed, displayed, readBack (displayed.trans (by decide +kernel))⟩

end RuleText

end Circulation
