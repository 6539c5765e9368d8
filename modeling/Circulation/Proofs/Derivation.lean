import Circulation.Proofs.Tokens
import Circulation.RuleText.Grammar

/-!
Contract: the grammar of lines of rule text, and that only its lines are read.

Owns:
- which tokens derive ids, constraints, conditions, assignments and statements;
- that whatever is read from a text is derived by the tokens it was read from.

Does not own: that every derivable line is read.
-/

namespace Circulation.RuleText

/-! ## The grammar -/

/-- `("," ? id)*` -/
inductive DerivesMoreIds : List Token → List String → Prop where
  | done : DerivesMoreIds [] []
  | next {id : String} {tokens : List Token} {ids : List String}
      (more : DerivesMoreIds tokens ids) : DerivesMoreIds (.word id :: tokens) (id :: ids)
  | afterComma {id : String} {tokens : List Token} {ids : List String}
      (more : DerivesMoreIds tokens ids) :
      DerivesMoreIds (.mark .comma :: .word id :: tokens) (id :: ids)

/-- `id ("," ? id)*` -/
inductive DerivesIds : List Token → List String → Prop where
  | first {id : String} {tokens : List Token} {ids : List String}
      (more : DerivesMoreIds tokens ids) : DerivesIds (.word id :: tokens) (id :: ids)

/-- `"!" ids | "not" "(" ids ")" | ids` -/
inductive DerivesCondition : List Token → Condition → Prop where
  | excluded {tokens : List Token} {ids : List String} (listed : DerivesIds tokens ids) :
      DerivesCondition (.mark .exclamation :: tokens) (.notIn (.ofList ids))
  | enclosed {tokens : List Token} {ids : List String} (listed : DerivesIds tokens ids) :
      DerivesCondition (.word "not" :: .mark .opening :: (tokens ++ [.mark .closing]))
        (.notIn (.ofList ids))
  | included {tokens : List Token} {ids : List String} (listed : DerivesIds tokens ids) :
      DerivesCondition tokens (.isIn (.ofList ids))

/-- `facet condition` -/
inductive DerivesConstraint : List Token → Facet × Condition → Prop where
  | intro {keyword : String} {facet : Facet} {tokens : List Token} {condition : Condition}
      (named : Facet.ofKeyword? keyword = some facet)
      (demanded : DerivesCondition tokens condition) :
      DerivesConstraint (.word keyword :: tokens) (facet, condition)

/-- `("+" constraint)*` -/
inductive DerivesMoreConstraints : List Token → List (Facet × Condition) → Prop where
  | done : DerivesMoreConstraints [] []
  | next {tokens others : List Token} {constraint : Facet × Condition}
      {constraints : List (Facet × Condition)} (here : DerivesConstraint tokens constraint)
      (more : DerivesMoreConstraints others constraints) :
      DerivesMoreConstraints (.mark .plus :: (tokens ++ others)) (constraint :: constraints)

/-- `"all" | constraint ("+" constraint)*` -/
inductive DerivesConditions : List Token → List (Facet × Condition) → Prop where
  | all : DerivesConditions [.word "all"] []
  | first {tokens others : List Token} {constraint : Facet × Condition}
      {constraints : List (Facet × Condition)} (here : DerivesConstraint tokens constraint)
      (more : DerivesMoreConstraints others constraints) :
      DerivesConditions (tokens ++ others) (constraint :: constraints)

/-- `(kind id)*` -/
inductive DerivesMoreAssignments : List Token → List (PolicyKind × String) → Prop where
  | done : DerivesMoreAssignments [] []
  | next {keyword id : String} {kind : PolicyKind} {tokens : List Token}
      {assignments : List (PolicyKind × String)}
      (named : PolicyKind.ofKeyword? keyword = some kind)
      (more : DerivesMoreAssignments tokens assignments) :
      DerivesMoreAssignments (.word keyword :: .word id :: tokens) ((kind, id) :: assignments)

/-- `(kind id)+` -/
inductive DerivesAssignments : List Token → List (PolicyKind × String) → Prop where
  | first {keyword id : String} {kind : PolicyKind} {tokens : List Token}
      {assignments : List (PolicyKind × String)}
      (named : PolicyKind.ofKeyword? keyword = some kind)
      (more : DerivesMoreAssignments tokens assignments) :
      DerivesAssignments (.word keyword :: .word id :: tokens) ((kind, id) :: assignments)

/-- `"fallback-policy" ":" assignments | conditions ":" assignments` -/
inductive DerivesStatement : List Token → Statement → Prop where
  | fallback {tokens : List Token} {assignments : List (PolicyKind × String)}
      (assigned : DerivesAssignments tokens assignments) :
      DerivesStatement (.word "fallback-policy" :: .mark .colon :: tokens) (.fallback assignments)
  | rule {tokens others : List Token} {constraints : List (Facet × Condition)}
      {assignments : List (PolicyKind × String)}
      (demanded : DerivesConditions tokens constraints)
      (assigned : DerivesAssignments others assignments) :
      DerivesStatement (tokens ++ .mark .colon :: others) (.rule constraints assignments)

/-- A line derives what the tokens it consists of derive. -/
def Derives (line : List Char) (statement : Statement) : Prop :=
  ∃ tokens, Lexes line tokens ∧ DerivesStatement tokens statement

/-! ## Tokens that were read -/

/-- Reading from one text to another passed these tokens. -/
def Passes (text : List Char) (tokens : List Token) (rest : List Char) : Prop :=
  ∀ more, Lexes rest more → Lexes text (tokens ++ more)

namespace Passes

theorem refl (text : List Char) : Passes text [] text :=
  fun _ lexes => lexes

theorem trans {text middle rest : List Char} {tokens others : List Token}
    (first : Passes text tokens middle) (second : Passes middle others rest) :
    Passes text (tokens ++ others) rest := by
  intro more lexes
  rw [List.append_assoc]
  exact first _ (second more lexes)

theorem mark {text rest : List Char} {mark : Mark} (skipped : skipBlanks text = mark.char :: rest) :
    Passes text [.mark mark] rest :=
  fun _ lexes => lexes_mark_iff.mpr ⟨rest, skipped, lexes⟩

theorem word {text rest : List Char} {word : String}
    (found : word? (skipBlanks text) = some (word, rest)) : Passes text [.word word] rest :=
  fun _ lexes => lexes_word_iff.mpr ⟨rest, found, lexes⟩

end Passes

/-- A literal before a mark is a whole word. -/
theorem word?_append_of_mark (mark : Mark) {literal text rest : List Char}
    (nonempty : literal ≠ []) (inside : literal.all isWordChar = true)
    (skipped : skipBlanks text = mark.char :: rest) :
    word? (literal ++ text) = some (String.ofList literal, text) := by
  rw [word?_eq_some_iff, String.toList_ofList]
  refine ⟨rfl, nonempty, List.all_eq_true.mp inside, ?_⟩
  intro char isHead
  cases text with
  | nil => simp at isHead
  | cons first others =>
    cases Option.some.inj isHead
    cases blank : isBlank char with
    | true =>
      rw [← Bool.not_eq_true]
      intro inWord
      rw [isBlank_eq_false_of_isWordChar inWord] at blank
      exact Bool.false_ne_true blank
    | false =>
      rw [skipBlanks_cons_of_not_blank others blank] at skipped
      rw [(List.cons.inj skipped).1]
      exact mark.isWordChar_char

/-! ## Ids -/

theorem sound_readMoreIds (text : List Char) :
    ∃ tokens, DerivesMoreIds tokens (readMoreIds text).1 ∧
      Passes text tokens (readMoreIds text).2 := by
  fun_induction readMoreIds text with
  | case1 text _ => exact ⟨[], .done, .refl text⟩
  | case2 text id rest found ids final more ih =>
    rw [more] at ih
    obtain ⟨tokens, derives, passes⟩ := ih
    unfold skipSeparator at found
    split at found
    · next afterComma begins =>
      refine ⟨.mark .comma :: .word id :: tokens, .afterComma derives, ?_⟩
      have comma : Passes text [.mark .comma] afterComma := .mark begins
      exact comma.trans ((Passes.word found).trans passes)
    · refine ⟨.word id :: tokens, .next derives, ?_⟩
      exact (Passes.word found).trans passes

theorem sound_readIds {text rest : List Char} {ids : List String}
    (read : readIds text = .ok (ids, rest)) :
    ∃ tokens, DerivesIds tokens ids ∧ Passes text tokens rest := by
  unfold readIds at read
  split at read
  · simp at read
  · next id afterFirst found =>
    obtain ⟨rfl, rfl⟩ := Prod.mk.inj (Except.ok.inj read)
    obtain ⟨tokens, derives, passes⟩ := sound_readMoreIds afterFirst
    exact ⟨.word id :: tokens, .first derives, (Passes.word found).trans passes⟩

/-! ## Conditions -/

theorem sound_readFacet {text rest : List Char} {facet : Facet}
    (read : readFacet text = .ok (facet, rest)) :
    ∃ keyword, Facet.ofKeyword? keyword = some facet ∧ Passes text [.word keyword] rest := by
  unfold readFacet at read
  split at read
  · simp at read
  · next keyword afterKeyword found =>
    split at read
    · simp at read
    · next named =>
      obtain ⟨rfl, rfl⟩ := Prod.mk.inj (Except.ok.inj read)
      exact ⟨keyword, named, .word found⟩

theorem skipNot?_eq_some_iff {text inside : List Char} :
    skipNot? text = some inside ↔
      ∃ afterNot, word? text = some ("not", afterNot) ∧
        skipBlanks afterNot = Mark.opening.char :: inside := by
  unfold skipNot?
  constructor
  · intro opened
    split at opened
    · simp at opened
    · next afterNot begins =>
      split at opened
      · next afterOpening opens =>
        cases Option.some.inj opened
        refine ⟨afterNot, ?_, opens⟩
        rw [skipLiteral?_eq_some_iff.mp begins]
        exact word?_append_of_mark .opening (by decide) (by decide) opens
      · simp at opened
  · rintro ⟨afterNot, found, opens⟩
    have begins : skipLiteral? "not".toList text = some afterNot :=
      skipLiteral?_eq_some_iff.mpr (word?_eq_some_iff.mp found).1
    rw [begins]
    simp only [opens]
    rfl

theorem sound_skipClosing {text rest : List Char} (closed : skipClosing text = .ok rest) :
    Passes text [.mark .closing] rest := by
  unfold skipClosing at closed
  split at closed
  · next afterClosing closes =>
    cases Except.ok.inj closed
    exact .mark closes
  · simp at closed

theorem sound_readCondition {text rest : List Char} {condition : Condition}
    (read : readCondition text = .ok (condition, rest)) :
    ∃ tokens, DerivesCondition tokens condition ∧ Passes text tokens rest := by
  unfold readCondition at read
  split at read
  · next listed begins =>
    obtain ⟨⟨ids, afterIds⟩, idsRead, same⟩ := bind_eq_ok_iff.mp read
    obtain ⟨rfl, rfl⟩ := Prod.mk.inj (Except.ok.inj same)
    obtain ⟨tokens, derives, passes⟩ := sound_readIds idsRead
    have exclamation : Passes text [.mark .exclamation] listed := .mark begins
    exact ⟨_, .excluded derives, exclamation.trans passes⟩
  · split at read
    · next inside opened =>
      obtain ⟨⟨ids, afterIds⟩, idsRead, remaining⟩ := bind_eq_ok_iff.mp read
      obtain ⟨afterClosing, closed, same⟩ := bind_eq_ok_iff.mp remaining
      obtain ⟨rfl, rfl⟩ := Prod.mk.inj (Except.ok.inj same)
      obtain ⟨tokens, derives, passes⟩ := sound_readIds idsRead
      obtain ⟨afterNot, found, opens⟩ := skipNot?_eq_some_iff.mp opened
      have notPasses : Passes text [.word "not"] afterNot := .word found
      have opening : Passes afterNot [.mark .opening] inside := .mark opens
      have closing := sound_skipClosing closed
      exact ⟨_, .enclosed derives, notPasses.trans (opening.trans (passes.trans closing))⟩
    · obtain ⟨⟨ids, afterIds⟩, idsRead, same⟩ := bind_eq_ok_iff.mp read
      obtain ⟨rfl, rfl⟩ := Prod.mk.inj (Except.ok.inj same)
      obtain ⟨tokens, derives, passes⟩ := sound_readIds idsRead
      refine ⟨tokens, .included derives, ?_⟩
      intro more lexes
      exact lexes_skipBlanks_iff.mp (passes more lexes)

theorem sound_readConstraint {text rest : List Char} {constraint : Facet × Condition}
    (read : readConstraint text = .ok (constraint, rest)) :
    ∃ tokens, DerivesConstraint tokens constraint ∧ Passes text tokens rest := by
  obtain ⟨⟨facet, afterFacet⟩, facetRead, remaining⟩ := bind_eq_ok_iff.mp read
  obtain ⟨⟨condition, afterCondition⟩, conditionRead, same⟩ := bind_eq_ok_iff.mp remaining
  obtain ⟨rfl, rfl⟩ := Prod.mk.inj (Except.ok.inj same)
  obtain ⟨keyword, named, keywordPasses⟩ := sound_readFacet facetRead
  obtain ⟨tokens, derives, passes⟩ := sound_readCondition conditionRead
  exact ⟨.word keyword :: tokens, .intro named derives, keywordPasses.trans passes⟩

theorem sound_readMoreConstraints {text rest : List Char}
    {constraints : List (Facet × Condition)}
    (read : readMoreConstraints text = .ok (constraints, rest)) :
    ∃ tokens, DerivesMoreConstraints tokens constraints ∧ Passes text tokens rest := by
  fun_induction readMoreConstraints text generalizing constraints rest with
  | case1 text afterPlus begins stop stopped => simp at read
  | case2 text afterPlus begins constraint afterConstraint here stop stopped ih => simp at read
  | case3 text afterPlus begins constraint afterConstraint here others final more ih =>
    obtain ⟨rfl, rfl⟩ := Prod.mk.inj (Except.ok.inj read)
    obtain ⟨tokens, derives, passes⟩ := sound_readConstraint here
    obtain ⟨moreTokens, moreDerives, morePasses⟩ := ih more
    have plus : Passes text [.mark .plus] afterPlus := .mark begins
    exact ⟨_, .next derives moreDerives, plus.trans (passes.trans morePasses)⟩
  | case4 text _ =>
    obtain ⟨rfl, rfl⟩ := Prod.mk.inj (Except.ok.inj read)
    exact ⟨[], .done, .refl text⟩

theorem sound_readConditions {text rest : List Char} {constraints : List (Facet × Condition)}
    (read : readConditions text = .ok (constraints, rest)) :
    ∃ tokens, DerivesConditions tokens constraints ∧ Passes text tokens rest := by
  unfold readConditions at read
  split at read
  · next afterAll skipped =>
    obtain ⟨rfl, rfl⟩ := Prod.mk.inj (Except.ok.inj read)
    unfold skipAll? at skipped
    split at skipped
    · next word afterWord found =>
      split at skipped
      · next isAll =>
        cases Option.some.inj skipped
        rw [isAll] at found
        exact ⟨_, .all, .word found⟩
      · simp at skipped
    · simp at skipped
  · obtain ⟨⟨constraint, afterConstraint⟩, here, remaining⟩ := bind_eq_ok_iff.mp read
    obtain ⟨⟨others, final⟩, more, same⟩ := bind_eq_ok_iff.mp remaining
    obtain ⟨rfl, rfl⟩ := Prod.mk.inj (Except.ok.inj same)
    obtain ⟨tokens, derives, passes⟩ := sound_readConstraint here
    obtain ⟨moreTokens, moreDerives, morePasses⟩ := sound_readMoreConstraints more
    exact ⟨_, .first derives moreDerives, passes.trans morePasses⟩

/-! ## Assignments -/

theorem kind?_eq_some_iff {text rest : List Char} {kind : PolicyKind} :
    kind? text = some (kind, rest) ↔
      ∃ keyword, word? (skipBlanks text) = some (keyword, rest) ∧
        PolicyKind.ofKeyword? keyword = some kind := by
  unfold kind?
  constructor
  · intro read
    obtain ⟨⟨keyword, afterKeyword⟩, found, remaining⟩ := Option.bind_eq_some_iff.mp read
    obtain ⟨namedKind, named, same⟩ := Option.bind_eq_some_iff.mp remaining
    obtain ⟨rfl, rfl⟩ := Prod.mk.inj (Option.some.inj same)
    exact ⟨keyword, found, named⟩
  · rintro ⟨keyword, found, named⟩
    simp [found, named]

theorem readPolicyId_eq_ok_iff {text rest : List Char} {id : String} :
    readPolicyId text = .ok (id, rest) ↔ word? (skipBlanks text) = some (id, rest) := by
  unfold readPolicyId
  cases word? (skipBlanks text) with
  | none => simp
  | some found => simp

theorem kind?_eq_none_of_readMoreAssignments {text rest : List Char}
    (read : readMoreAssignments text = .ok ([], rest)) : kind? text = none := by
  rw [readMoreAssignments] at read
  split at read
  · next unnamed => exact unnamed
  · split at read
    · simp at read
    · split at read
      · simp at read
      · simp at read

theorem sound_readMoreAssignments {text rest : List Char}
    {assignments : List (PolicyKind × String)}
    (read : readMoreAssignments text = .ok (assignments, rest)) :
    ∃ tokens, DerivesMoreAssignments tokens assignments ∧ Passes text tokens rest := by
  fun_induction readMoreAssignments text generalizing assignments rest with
  | case1 text _ =>
    obtain ⟨rfl, rfl⟩ := Prod.mk.inj (Except.ok.inj read)
    exact ⟨[], .done, .refl text⟩
  | case2 => simp at read
  | case3 => simp at read
  | case4 text kind afterKind kindRead id afterId idRead others final more ih =>
    obtain ⟨rfl, rfl⟩ := Prod.mk.inj (Except.ok.inj read)
    obtain ⟨keyword, keywordFound, named⟩ := kind?_eq_some_iff.mp kindRead
    obtain ⟨tokens, derives, passes⟩ := ih more
    have keywordPasses : Passes text [.word keyword] afterKind := .word keywordFound
    have idPasses : Passes afterKind [.word id] afterId := .word (readPolicyId_eq_ok_iff.mp idRead)
    exact ⟨_, .next named derives, keywordPasses.trans (idPasses.trans passes)⟩

theorem sound_readAssignments {text rest : List Char} {assignments : List (PolicyKind × String)}
    (read : readAssignments text = .ok (assignments, rest)) :
    ∃ tokens, DerivesAssignments tokens assignments ∧ Passes text tokens rest := by
  unfold readAssignments at read
  split at read
  · simp at read
  · next named =>
    obtain ⟨tokens, derives, passes⟩ := sound_readMoreAssignments read
    cases derives with
    | next keywordNamed more => exact ⟨_, .first keywordNamed more, passes⟩
    | done =>
      rw [kind?_eq_none_of_readMoreAssignments read] at named
      simp at named

/-! ## Statements -/

theorem sound_skipColon {text rest : List Char} (skipped : skipColon text = .ok rest) :
    skipBlanks text = Mark.colon.char :: rest := by
  unfold skipColon at skipped
  split at skipped
  · next afterColon begins =>
    cases Except.ok.inj skipped
    exact begins
  · simp at skipped

theorem sound_readEnd {text : List Char} (ended : readEnd text = .ok ()) : Lexes text [] := by
  unfold readEnd at ended
  split at ended
  · next nothing => exact lexes_nil_iff.mpr nothing
  · simp at ended

theorem derives_of_readStatement {line : List Char} {statement : Statement}
    (read : readStatement line = .ok statement) : Derives line statement := by
  unfold readStatement at read
  split at read
  · next afterKeyword begins =>
    obtain ⟨afterColon, colon, remaining⟩ := bind_eq_ok_iff.mp read
    obtain ⟨⟨assignments, afterAssignments⟩, assigned, remaining⟩ := bind_eq_ok_iff.mp remaining
    obtain ⟨_, ended, same⟩ := bind_eq_ok_iff.mp remaining
    cases Except.ok.inj same
    have found : word? (skipBlanks line) = some ("fallback-policy", afterKeyword) := by
      rw [skipLiteral?_eq_some_iff.mp begins]
      exact word?_append_of_mark .colon (by decide) (by decide) (sound_skipColon colon)
    obtain ⟨tokens, derives, passes⟩ := sound_readAssignments assigned
    have colonPasses : Passes afterKeyword [.mark .colon] afterColon :=
      .mark (sound_skipColon colon)
    have whole := (Passes.word found).trans (colonPasses.trans passes)
    refine ⟨_, ?_, .fallback derives⟩
    simpa using whole [] (sound_readEnd ended)
  · obtain ⟨⟨constraints, afterConditions⟩, demanded, remaining⟩ := bind_eq_ok_iff.mp read
    obtain ⟨afterColon, colon, remaining⟩ := bind_eq_ok_iff.mp remaining
    obtain ⟨⟨assignments, afterAssignments⟩, assigned, remaining⟩ := bind_eq_ok_iff.mp remaining
    obtain ⟨_, ended, same⟩ := bind_eq_ok_iff.mp remaining
    cases Except.ok.inj same
    obtain ⟨conditionTokens, conditionsDerive, conditionsPass⟩ := sound_readConditions demanded
    obtain ⟨tokens, derives, passes⟩ := sound_readAssignments assigned
    have colonPasses : Passes afterConditions [.mark .colon] afterColon :=
      .mark (sound_skipColon colon)
    have whole := conditionsPass.trans (colonPasses.trans passes)
    refine ⟨_, ?_, .rule conditionsDerive derives⟩
    simpa using whole [] (sound_readEnd ended)

end Circulation.RuleText
