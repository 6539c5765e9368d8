import Circulation.Proofs.Derivation
import Mathlib

/-!
Contract: every line that the grammar derives is read, and as what it derives.

Owns:
- which tokens can follow ids and conditions;
- how reading goes on after what a text begins with, as chains of steps;
- that each reading function reads the tokens that derive what it is for, and stops after them;
- that the lines that are read are those that the grammar derives.

Does not own: the grammar, or that only its lines are read.

Reading never goes back, so each function has to stop where its part ends: a list of ids before a
mark that can neither separate ids nor follow the word `not`, and conditions before a colon.
-/

namespace Circulation.RuleText

/-! ## What follows -/

/-- Ids are followed by a mark that belongs to no list of ids and opens none. -/
def EndsIds (tokens : List Token) : Prop :=
  ∃ mark others, tokens = .mark mark :: others ∧ mark ≠ .comma ∧ mark ≠ .opening

theorem endsIds_colon (tokens : List Token) : EndsIds (.mark .colon :: tokens) :=
  ⟨.colon, tokens, rfl, by decide, by decide⟩

theorem DerivesMoreConstraints.endsIds {tokens : List Token}
    {constraints : List (Facet × Condition)} (derives : DerivesMoreConstraints tokens constraints)
    (more : List Token) : EndsIds (tokens ++ .mark .colon :: more) := by
  cases derives with
  | done => exact endsIds_colon more
  | next here others => exact ⟨.plus, _, rfl, by decide, by decide⟩

/-- Tokens of a text that goes on with a mark begin with that mark. -/
theorem eq_mark_cons_of_lexes {text rest : List Char} {mark : Mark} {tokens : List Token}
    (lexes : Lexes text tokens) (skipped : skipBlanks text = mark.char :: rest) :
    ∃ others, tokens = .mark mark :: others := by
  cases tokens with
  | nil => simp [lexes_nil_iff.mp lexes] at skipped
  | cons token others =>
    cases token with
    | word word =>
      obtain ⟨_, found, _⟩ := lexes_word_iff.mp lexes
      simp [skipped] at found
    | mark other =>
      obtain ⟨_, begins, _⟩ := lexes_mark_iff.mp lexes
      rw [skipped] at begins
      rw [Mark.char_injective (List.cons.inj begins).1]
      exact ⟨others, rfl⟩

/-! ## Ids -/

theorem ne_mark_cons_of_word? {text rest : List Char} {word : String}
    (found : word? text = some (word, rest)) (mark : Mark) (others : List Char) :
    text ≠ mark.char :: others := by
  rintro rfl
  simp at found

theorem skipSeparator_of_word? {text rest : List Char} {word : String}
    (found : word? (skipBlanks text) = some (word, rest)) :
    skipSeparator text = skipBlanks text := by
  unfold skipSeparator
  split
  · next afterComma begins => exact absurd begins (ne_mark_cons_of_word? found .comma afterComma)
  · rfl

theorem readMoreIds_of_word? {text rest : List Char} {id : String}
    (found : word? (skipSeparator text) = some (id, rest)) :
    readMoreIds text = (id :: (readMoreIds rest).1, (readMoreIds rest).2) := by
  rw [readMoreIds]
  split
  · next missing => simp [missing] at found
  · next otherId others otherFound =>
    rw [found] at otherFound
    obtain ⟨rfl, rfl⟩ := Prod.mk.inj (Option.some.inj otherFound)
    rfl

theorem readMoreIds_of_not_word? {text : List Char}
    (missing : word? (skipSeparator text) = none) : readMoreIds text = ([], text) := by
  rw [readMoreIds]
  split
  · rfl
  · next found => simp [missing] at found

theorem complete_readMoreIds {text : List Char} {tokens more : List Token} {ids : List String}
    (derives : DerivesMoreIds tokens ids) (ends : EndsIds more)
    (lexes : Lexes text (tokens ++ more)) :
    ∃ rest, readMoreIds text = (ids, rest) ∧ Lexes rest more := by
  induction derives generalizing text with
  | done =>
    obtain ⟨mark, others, rfl, notComma, _⟩ := ends
    obtain ⟨rest, begins, _⟩ := lexes_mark_iff.mp lexes
    refine ⟨text, ?_, lexes⟩
    apply readMoreIds_of_not_word?
    unfold skipSeparator
    split
    · next afterComma beginsComma =>
      rw [begins] at beginsComma
      have isComma : mark = .comma := Mark.char_injective (List.cons.inj beginsComma).1
      exact absurd isComma notComma
    · rw [begins]
      exact word?_mark mark rest
  | @next id tokens ids moreIds ih =>
    obtain ⟨afterId, found, lexesRest⟩ := lexes_word_iff.mp lexes
    obtain ⟨rest, read, lexesMore⟩ := ih lexesRest
    have separated : word? (skipSeparator text) = some (id, afterId) := by
      rw [skipSeparator_of_word? found]
      exact found
    refine ⟨rest, ?_, lexesMore⟩
    rw [readMoreIds_of_word? separated, read]
  | @afterComma id tokens ids moreIds ih =>
    obtain ⟨afterComma, begins, lexesId⟩ := lexes_mark_iff.mp lexes
    obtain ⟨afterId, found, lexesRest⟩ := lexes_word_iff.mp lexesId
    obtain ⟨rest, read, lexesMore⟩ := ih lexesRest
    have separated : word? (skipSeparator text) = some (id, afterId) := by
      unfold skipSeparator
      rw [begins]
      exact found
    refine ⟨rest, ?_, lexesMore⟩
    rw [readMoreIds_of_word? separated, read]

theorem complete_readIds {text : List Char} {tokens more : List Token} {ids : List String}
    (derives : DerivesIds tokens ids) (ends : EndsIds more)
    (lexes : Lexes text (tokens ++ more)) :
    ∃ rest, readIds text = .ok (ids, rest) ∧ Lexes rest more := by
  cases derives with
  | first moreIds =>
    obtain ⟨afterId, found, lexesRest⟩ := lexes_word_iff.mp lexes
    obtain ⟨rest, read, lexesMore⟩ := complete_readMoreIds moreIds ends lexesRest
    refine ⟨rest, ?_, lexesMore⟩
    simp only [readIds, found, read]

/-! ## Reading by what comes first -/

section Conditions

variable {text : List Char}

theorem readCondition_of_exclaimed {listed : List Char}
    (begins : skipBlanks text = Mark.exclamation.char :: listed) :
    readCondition text =
      (readIds listed >>= fun read => .ok (.notIn (.ofList read.1), read.2)) := by
  unfold readCondition
  rw [begins]
  rfl

variable (notExclaimed : ∀ rest, skipBlanks text ≠ Mark.exclamation.char :: rest)

include notExclaimed

theorem readCondition_of_enclosed {inside : List Char}
    (opened : skipNot? (skipBlanks text) = some inside) :
    readCondition text = (readIds inside >>= fun read =>
      skipClosing read.2 >>= fun rest => .ok (.notIn (.ofList read.1), rest)) := by
  unfold readCondition
  split
  · next rest begins => exact absurd begins (notExclaimed rest)
  · rw [opened]
    rfl

theorem readCondition_of_bare (closed : skipNot? (skipBlanks text) = none) :
    readCondition text = (readIds (skipBlanks text) >>= fun read =>
      .ok (.isIn (.ofList read.1), read.2)) := by
  unfold readCondition
  split
  · next rest begins => exact absurd begins (notExclaimed rest)
  · rw [closed]
    rfl

end Conditions

section Lists

variable {text : List Char}

theorem readMoreConstraints_of_plus {afterPlus : List Char}
    (begins : skipBlanks text = Mark.plus.char :: afterPlus) :
    readMoreConstraints text = (readConstraint afterPlus >>= fun read =>
      readMoreConstraints read.2 >>= fun more => .ok (read.1 :: more.1, more.2)) := by
  rw [readMoreConstraints]
  split
  · next otherStart otherBegins =>
    rw [begins] at otherBegins
    obtain ⟨_, rfl⟩ := List.cons.inj otherBegins
    split
    · next stopped =>
      rw [stopped]
      rfl
    · next constraint rest read =>
      rw [read, ok_bind]
      cases readMoreConstraints rest <;> rfl
  · next notPlus => exact absurd begins (notPlus afterPlus)

theorem readMoreConstraints_of_not_plus
    (ends : ∀ rest, skipBlanks text ≠ Mark.plus.char :: rest) :
    readMoreConstraints text = .ok ([], text) := by
  rw [readMoreConstraints]
  split
  · next rest begins => exact absurd begins (ends rest)
  · rfl

theorem readConditions_of_not_all (notAll : skipAll? (skipBlanks text) = none) :
    readConditions text = (readConstraint text >>= fun read =>
      readMoreConstraints read.2 >>= fun more => .ok (read.1 :: more.1, more.2)) := by
  rw [readConditions, notAll]
  rfl

theorem readMoreAssignments_of_kind? {kind : PolicyKind} {afterKind : List Char}
    (found : kind? text = some (kind, afterKind)) :
    readMoreAssignments text = (readPolicyId afterKind >>= fun read =>
      readMoreAssignments read.2 >>= fun more => .ok ((kind, read.1) :: more.1, more.2)) := by
  rw [readMoreAssignments]
  split
  · next missing => simp [found] at missing
  · next otherKind otherAfter otherFound =>
    rw [found] at otherFound
    obtain ⟨rfl, rfl⟩ := Prod.mk.inj (Option.some.inj otherFound)
    split
    · next stopped =>
      rw [stopped]
      rfl
    · next id rest read =>
      rw [read, ok_bind]
      cases readMoreAssignments rest <;> rfl

theorem readMoreAssignments_of_not_kind? (missing : kind? text = none) :
    readMoreAssignments text = .ok ([], text) := by
  rw [readMoreAssignments]
  split
  · rfl
  · next found => simp [missing] at found

end Lists

/-- The assignments of a line up to its end, behind its colon, and what they make of it. -/
def readAssigned (made : List (PolicyKind × String) → Statement) (text : List Char) :
    Except Stop Statement :=
  skipColon text >>= fun rest => readAssignments rest >>= fun read =>
    readEnd read.2 >>= fun _ => .ok (made read.1)

theorem readStatement_of_keyword {line rest : List Char}
    (begins : skipLiteral? fallbackKeyword (skipBlanks line) = some rest) :
    readStatement line = readAssigned .fallback rest := by
  rw [readStatement, begins]
  rfl

theorem readStatement_of_conditions {line : List Char}
    (begins : skipLiteral? fallbackKeyword (skipBlanks line) = none) :
    readStatement line = (readConditions line >>= fun read =>
      readAssigned (.rule read.1) read.2) := by
  rw [readStatement, begins]
  rfl

/-! ## Conditions -/

/-- Ids do not begin with `not` and a parenthesis. -/
theorem skipNot?_eq_none_of_ids {text : List Char} {tokens more : List Token}
    {ids : List String} (derives : DerivesIds tokens ids) (ends : EndsIds more)
    (lexes : Lexes text (tokens ++ more)) : skipNot? (skipBlanks text) = none := by
  obtain ⟨mark, after, rfl, _, notOpening⟩ := ends
  cases derives with
  | first moreIds =>
    obtain ⟨afterId, found, lexesRest⟩ := lexes_word_iff.mp lexes
    rw [Option.eq_none_iff_forall_ne_some]
    intro inside opened
    obtain ⟨afterNot, foundNot, opens⟩ := skipNot?_eq_some_iff.mp opened
    rw [found] at foundNot
    obtain ⟨_, rfl⟩ := Prod.mk.inj (Option.some.inj foundNot)
    obtain ⟨others, beginsOpening⟩ := eq_mark_cons_of_lexes lexesRest opens
    cases moreIds with
    | done => exact notOpening (Token.mark.inj (List.cons.inj beginsOpening).1)
    | next _ => simp at beginsOpening
    | afterComma _ => simp at beginsOpening

theorem complete_readCondition {text : List Char} {tokens more : List Token}
    {condition : Condition} (derives : DerivesCondition tokens condition) (ends : EndsIds more)
    (lexes : Lexes text (tokens ++ more)) :
    ∃ rest, readCondition text = .ok (condition, rest) ∧ Lexes rest more := by
  cases derives with
  | excluded listed =>
    obtain ⟨afterMark, begins, lexesIds⟩ := lexes_mark_iff.mp lexes
    obtain ⟨rest, read, lexesMore⟩ := complete_readIds listed ends lexesIds
    refine ⟨rest, ?_, lexesMore⟩
    rw [readCondition_of_exclaimed begins, read]
    rfl
  | @enclosed tokens ids listed =>
    rw [List.cons_append, List.cons_append, List.append_assoc] at lexes
    obtain ⟨afterNot, found, lexesOpening⟩ := lexes_word_iff.mp lexes
    obtain ⟨inside, opens, lexesIds⟩ := lexes_mark_iff.mp lexesOpening
    have closes : EndsIds ([.mark .closing] ++ more) := ⟨.closing, more, rfl, by decide, by decide⟩
    obtain ⟨afterIds, read, lexesClosing⟩ := complete_readIds listed closes lexesIds
    obtain ⟨rest, closed, lexesMore⟩ := lexes_mark_iff.mp lexesClosing
    have opened : skipNot? (skipBlanks text) = some inside :=
      skipNot?_eq_some_iff.mpr ⟨afterNot, found, opens⟩
    have closingSkipped : skipClosing afterIds = .ok rest := by
      unfold skipClosing
      rw [closed]
      rfl
    refine ⟨rest, ?_, lexesMore⟩
    rw [readCondition_of_enclosed (ne_mark_cons_of_word? found .exclamation) opened, read, ok_bind,
      closingSkipped]
    rfl
  | included listed =>
    obtain ⟨rest, read, lexesMore⟩ := complete_readIds listed ends (lexes_skipBlanks_iff.mpr lexes)
    have notOpened := skipNot?_eq_none_of_ids listed ends lexes
    refine ⟨rest, ?_, lexesMore⟩
    cases listed with
    | first moreIds =>
      obtain ⟨_, found, _⟩ := lexes_word_iff.mp lexes
      rw [readCondition_of_bare (ne_mark_cons_of_word? found .exclamation) notOpened, read]
      rfl

theorem complete_readConstraint {text : List Char} {tokens more : List Token}
    {constraint : Facet × Condition} (derives : DerivesConstraint tokens constraint)
    (ends : EndsIds more) (lexes : Lexes text (tokens ++ more)) :
    ∃ rest, readConstraint text = .ok (constraint, rest) ∧ Lexes rest more := by
  cases derives with
  | @intro keyword facet tokens condition named demanded =>
    obtain ⟨afterKeyword, found, lexesCondition⟩ := lexes_word_iff.mp lexes
    obtain ⟨rest, read, lexesMore⟩ := complete_readCondition demanded ends lexesCondition
    have facetRead : readFacet text = .ok (facet, afterKeyword) := by
      simp only [readFacet, found, named]
    refine ⟨rest, ?_, lexesMore⟩
    rw [readConstraint, facetRead, ok_bind]
    show (readCondition afterKeyword >>= _) = _
    rw [read]
    rfl

theorem complete_readMoreConstraints {text : List Char} {tokens more : List Token}
    {constraints : List (Facet × Condition)} (derives : DerivesMoreConstraints tokens constraints)
    (lexes : Lexes text (tokens ++ .mark .colon :: more)) :
    ∃ rest, readMoreConstraints text = .ok (constraints, rest) ∧
      Lexes rest (.mark .colon :: more) := by
  induction derives generalizing text with
  | done =>
    obtain ⟨afterColon, begins, _⟩ := lexes_mark_iff.mp lexes
    refine ⟨text, readMoreConstraints_of_not_plus ?_, lexes⟩
    intro afterPlus beginsPlus
    rw [begins] at beginsPlus
    exact absurd (List.cons.inj beginsPlus).1 (by decide)
  | @next tokens others constraint constraints here moreConstraints ih =>
    rw [List.cons_append, List.append_assoc] at lexes
    obtain ⟨afterPlus, begins, lexesConstraint⟩ := lexes_mark_iff.mp lexes
    obtain ⟨afterConstraint, read, lexesOthers⟩ :=
      complete_readConstraint here (moreConstraints.endsIds more) lexesConstraint
    obtain ⟨rest, readOthers, lexesMore⟩ := ih lexesOthers
    refine ⟨rest, ?_, lexesMore⟩
    rw [readMoreConstraints_of_plus begins, read, ok_bind, readOthers]
    rfl

/-! ## The words a rule begins with -/

theorem spelling_of_facet {keyword : String} {facet : Facet}
    (named : Facet.ofKeyword? keyword = some facet) :
    keyword = facet.keyword ∨ keyword = facet.letter.toString := by
  have spelled := List.find?_some named
  simpa only [Bool.or_eq_true, beq_iff_eq] using spelled

theorem ne_all_of_facet {keyword : String} {facet : Facet}
    (named : Facet.ofKeyword? keyword = some facet) : keyword ≠ "all" := by
  rintro rfl
  have unnamed : Facet.ofKeyword? "all" = none := by decide
  rw [unnamed] at named
  simp at named

theorem length_le_of_facet {keyword : String} {facet : Facet}
    (named : Facet.ofKeyword? keyword = some facet) : keyword.toList.length ≤ 12 := by
  have bounds : ∀ facet ∈ Facet.all,
      facet.keyword.toList.length ≤ 12 ∧ facet.letter.toString.toList.length ≤ 12 := by
    decide
  obtain ⟨long, short⟩ := bounds facet facet.mem_all
  rcases spelling_of_facet named with rfl | rfl
  · exact long
  · exact short

/-- A text whose first word is short does not begin with the keyword of fallbacks, not even as the
beginning of a longer word. -/
theorem skipLiteral?_fallbackKeyword_of_short {text rest : List Char} {word : String}
    (found : word? text = some (word, rest)) (short : word.toList.length ≤ 12) :
    skipLiteral? fallbackKeyword text = none := by
  rw [Option.eq_none_iff_forall_ne_some]
  intro afterKeyword begins
  have keywordInside : fallbackKeyword.all isWordChar = true := by decide
  have taken : text.takeWhile isWordChar =
      fallbackKeyword ++ afterKeyword.takeWhile isWordChar := by
    rw [skipLiteral?_eq_some_iff.mp begins,
      List.takeWhile_append_of_pos (List.all_eq_true.mp keywordInside)]
  have counted := congrArg List.length taken
  rw [← toList_of_word? found, List.length_append] at counted
  have keywordLength : fallbackKeyword.length = 15 := by decide
  omega

theorem skipAll?_of_word? {text rest : List Char} {word : String}
    (found : word? text = some (word, rest)) :
    skipAll? text = if word = "all" then some rest else none := by
  rw [skipAll?, found]

theorem complete_readConditions {text : List Char} {tokens more : List Token}
    {constraints : List (Facet × Condition)} (derives : DerivesConditions tokens constraints)
    (lexes : Lexes text (tokens ++ .mark .colon :: more)) :
    ∃ rest, readConditions text = .ok (constraints, rest) ∧ Lexes rest (.mark .colon :: more) := by
  cases derives with
  | all =>
    obtain ⟨rest, found, lexesMore⟩ := lexes_word_iff.mp lexes
    refine ⟨rest, ?_, lexesMore⟩
    rw [readConditions, skipAll?_of_word? found, if_pos rfl]
  | @first tokens others constraint constraints here moreConstraints =>
    rw [List.append_assoc] at lexes
    obtain ⟨afterConstraint, read, lexesOthers⟩ :=
      complete_readConstraint here (moreConstraints.endsIds more) lexes
    obtain ⟨rest, readOthers, lexesMore⟩ := complete_readMoreConstraints moreConstraints lexesOthers
    refine ⟨rest, ?_, lexesMore⟩
    cases here with
    | intro named demanded =>
      obtain ⟨afterKeyword, found, _⟩ := lexes_word_iff.mp lexes
      have notAll : skipAll? (skipBlanks text) = none := by
        rw [skipAll?_of_word? found, if_neg (ne_all_of_facet named)]
      rw [readConditions_of_not_all notAll, read, ok_bind, readOthers]
      rfl

/-! ## Assignments -/

theorem complete_readMoreAssignments {text : List Char} {tokens : List Token}
    {assignments : List (PolicyKind × String)}
    (derives : DerivesMoreAssignments tokens assignments) (lexes : Lexes text tokens) :
    ∃ rest, readMoreAssignments text = .ok (assignments, rest) ∧ Lexes rest [] := by
  induction derives generalizing text with
  | done =>
    have missing : kind? text = none := by simp [kind?, lexes_nil_iff.mp lexes]
    exact ⟨text, readMoreAssignments_of_not_kind? missing, lexes⟩
  | @next keyword id kind tokens assignments named moreAssignments ih =>
    obtain ⟨afterKind, keywordFound, lexesId⟩ := lexes_word_iff.mp lexes
    obtain ⟨afterId, idFound, lexesOthers⟩ := lexes_word_iff.mp lexesId
    obtain ⟨rest, readOthers, lexesMore⟩ := ih lexesOthers
    have kindRead : kind? text = some (kind, afterKind) :=
      kind?_eq_some_iff.mpr ⟨keyword, keywordFound, named⟩
    refine ⟨rest, ?_, lexesMore⟩
    rw [readMoreAssignments_of_kind? kindRead, readPolicyId_eq_ok_iff.mpr idFound, ok_bind,
      readOthers]
    rfl

theorem complete_readAssignments {text : List Char} {tokens : List Token}
    {assignments : List (PolicyKind × String)} (derives : DerivesAssignments tokens assignments)
    (lexes : Lexes text tokens) :
    ∃ rest, readAssignments text = .ok (assignments, rest) ∧ Lexes rest [] := by
  cases derives with
  | @first keyword id kind tokens assignments named moreAssignments =>
    obtain ⟨afterKind, found, _⟩ := lexes_word_iff.mp lexes
    obtain ⟨rest, read, lexesMore⟩ :=
      complete_readMoreAssignments (.next named moreAssignments) lexes
    have kindRead : kind? text = some (kind, afterKind) :=
      kind?_eq_some_iff.mpr ⟨keyword, found, named⟩
    refine ⟨rest, ?_, lexesMore⟩
    rw [readAssignments, kindRead]
    exact read

/-! ## Statements -/

theorem complete_skipColon {text : List Char} {tokens : List Token}
    (lexes : Lexes text (.mark .colon :: tokens)) :
    ∃ rest, skipColon text = .ok rest ∧ Lexes rest tokens := by
  obtain ⟨rest, begins, lexesRest⟩ := lexes_mark_iff.mp lexes
  refine ⟨rest, ?_, lexesRest⟩
  rw [skipColon, begins]
  rfl

theorem complete_readEnd {text : List Char} (lexes : Lexes text []) : readEnd text = .ok () := by
  rw [readEnd, lexes_nil_iff.mp lexes]

theorem complete_readAssigned {text : List Char} {tokens : List Token}
    {assignments : List (PolicyKind × String)} (derives : DerivesAssignments tokens assignments)
    (lexes : Lexes text (.mark .colon :: tokens))
    (made : List (PolicyKind × String) → Statement) :
    readAssigned made text = .ok (made assignments) := by
  obtain ⟨afterColon, colon, lexesAssignments⟩ := complete_skipColon lexes
  obtain ⟨rest, read, lexesEnd⟩ := complete_readAssignments derives lexesAssignments
  rw [readAssigned, colon, ok_bind, read, ok_bind, complete_readEnd lexesEnd]
  rfl

theorem skipLiteral?_fallbackKeyword_of_conditions {text : List Char} {tokens more : List Token}
    {constraints : List (Facet × Condition)} (derives : DerivesConditions tokens constraints)
    (lexes : Lexes text (tokens ++ more)) :
    skipLiteral? fallbackKeyword (skipBlanks text) = none := by
  cases derives with
  | all =>
    obtain ⟨_, found, _⟩ := lexes_word_iff.mp lexes
    exact skipLiteral?_fallbackKeyword_of_short found (by decide)
  | first here _ =>
    cases here with
    | intro named _ =>
      obtain ⟨_, found, _⟩ := lexes_word_iff.mp lexes
      exact skipLiteral?_fallbackKeyword_of_short found (length_le_of_facet named)

theorem readStatement_of_derives {line : List Char} {statement : Statement}
    (derives : Derives line statement) : readStatement line = .ok statement := by
  obtain ⟨tokens, lexes, derived⟩ := derives
  cases derived with
  | fallback assigned =>
    obtain ⟨afterKeyword, found, lexesColon⟩ := lexes_word_iff.mp lexes
    have begins : skipLiteral? fallbackKeyword (skipBlanks line) = some afterKeyword :=
      skipLiteral?_eq_some_iff.mpr (word?_eq_some_iff.mp found).1
    rw [readStatement_of_keyword begins, complete_readAssigned assigned lexesColon]
  | rule demanded assigned =>
    obtain ⟨afterConditions, conditionsRead, lexesColon⟩ := complete_readConditions demanded lexes
    rw [readStatement_of_conditions (skipLiteral?_fallbackKeyword_of_conditions demanded lexes),
      conditionsRead, ok_bind, complete_readAssigned assigned lexesColon]

/-- A line is read as a statement exactly if it derives that statement, and no line derives two. -/
theorem readStatement_iff_derives :
    (∀ (line : List Char) (statement : Statement),
      readStatement line = .ok statement ↔ Derives line statement) ∧
      ∀ (line : List Char) (statement other : Statement),
        Derives line statement → Derives line other → statement = other := by
  constructor
  · intro line statement
    exact ⟨derives_of_readStatement, readStatement_of_derives⟩
  · intro line statement other derives otherDerives
    have read := readStatement_of_derives derives
    rw [readStatement_of_derives otherDerives] at read
    exact (Except.ok.inj read).symm

/-- A line in which `not` is a keyword once and an id twice. -/
def sampleLine : List Char :=
  "g not (a,not b)+t not:l p r q".toList

/-- What the line says. -/
def sampleStatement : Statement :=
  .rule [(.patronGroup, .notIn (.ofList ["a", "not", "b"])), (.loanType, .isIn (.ofList ["not"]))]
    [(.loan, "p"), (.request, "q")]

theorem readStatement_iff_derives_sampleLine :
    Derives sampleLine sampleStatement ∧
      ∀ other, Derives sampleLine other → other = sampleStatement := by
  have derives := (readStatement_iff_derives.1 sampleLine sampleStatement).mp (by cbv)
  exact ⟨derives, fun other otherDerives =>
    readStatement_iff_derives.2 sampleLine other sampleStatement otherDerives derives⟩

end Circulation.RuleText
