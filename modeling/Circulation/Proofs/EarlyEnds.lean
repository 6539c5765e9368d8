import Circulation.Proofs.Continuations
import Circulation.Proofs.Parsing
import Circulation.Proofs.StepTexts
import Circulation.RuleText.Draft

/-!
Contract: the lines that end too early, and that the token of a fault tells them from other faulty
lines.

Owns:
- which continuations make a line a statement;
- that a line whose reading comes to its end has one that lengthens no word;
- that the token of a faulty line is empty exactly if the line ends too early, and which token there
  is if the line could still become a statement in another way.

Does not own: reading a line with something behind it.

A word that is not known yet and a comma that no id follows are tokens of faults, although a line
that ends in them can become a statement. So a line counts as ended too early only in front of
something that lengthens no word, and never behind a comma.
-/

namespace Circulation.RuleText

/-! ## Lines that end too early -/

/-- With the continuation behind it the line is a statement. -/
def Completes (line continuation : List Char) : Prop :=
  ∃ statement, Derives (line ++ continuation) statement

/-- Something that lengthens no word is missing behind the line, which does not end in a comma. -/
structure EndsEarly (line : List Char) : Prop where
  notComma : ¬EndsInComma line
  completed : ∃ continuation, Separated continuation ∧ Completes line continuation

/-- Reading stops at a character that is no blank, and from there on the line is white space. -/
def StopsAtSpace (line : List Char) : Prop :=
  ∃ fault char rest, readStatement line = .error ⟨fault, char :: rest⟩ ∧ isBlank char = false ∧
    ∀ space ∈ char :: rest, Text.isWhiteSpace space = true

/-! ## Parts that can be completed -/

/-- A text that is the beginning of something derived. -/
def Completable (derives : List Token → Prop) (text : List Char) : Prop :=
  ∃ tokens more continuation, Lexes text tokens ∧ Lexes continuation more ∧ derives (tokens ++ more)

namespace Completable

variable {derives derivesNext : List Token → Prop} {text rest continuation : List Char}
  {tokens : List Token}

theorem of_blank (blank : skipBlanks text = []) (lexes : Lexes continuation tokens)
    (derived : derives tokens) : Completable derives text :=
  ⟨[], tokens, continuation, lexes_nil_iff.mpr blank, lexes, derived⟩

/-- Behind tokens that were read. -/
theorem after (passes : Passes text tokens rest) (completable : Completable derives rest)
    (joins : ∀ others, derives others → derivesNext (tokens ++ others)) :
    Completable derivesNext text := by
  obtain ⟨begun, more, continuation, lexes, lexesMore, derived⟩ := completable
  refine ⟨tokens ++ begun, more, continuation, passes begun lexes, lexesMore, ?_⟩
  rw [List.append_assoc]
  exact joins (begun ++ more) derived

/-- In front of tokens that are missing as well. -/
theorem before (completable : Completable derives text) (lexes : Lexes continuation tokens)
    (joins : ∀ others, derives others → derivesNext (others ++ tokens)) :
    Completable derivesNext text := by
  obtain ⟨begun, more, first, lexesBegun, lexesMore, derived⟩ := completable
  have separated : Separated (' ' :: continuation) := separator_space.separated continuation
  refine ⟨begun, more ++ tokens, first ++ ' ' :: continuation, lexesBegun,
    lexesMore.append separated (.blank (by decide) lexes), ?_⟩
  rw [← List.append_assoc]
  exact joins (begun ++ more) derived

theorem mono (completable : Completable derives text)
    (implies : ∀ others, derives others → derivesNext others) : Completable derivesNext text :=
  after (.refl text) completable implies

end Completable

/-! ## Parts whose reading comes to the end of a text -/

section Parts

variable {text : List Char} {fault : SyntaxFault}

theorem completable_readPolicyId (stopped : readPolicyId text = .error ⟨fault, []⟩) :
    Completable (fun tokens => ∃ id, tokens = [.word id]) text := by
  unfold readPolicyId at stopped
  split at stopped
  · simp at stopped
  · obtain ⟨_, blank⟩ := Stop.mk.inj (Except.error.inj stopped)
    have lexes : Lexes "p".toList [.word "p"] := by decide
    exact .of_blank blank lexes ⟨"p", rfl⟩

theorem completable_readIds (stopped : readIds text = .error ⟨fault, []⟩) :
    Completable (fun tokens => ∃ ids, DerivesIds tokens ids) text := by
  unfold readIds at stopped
  split at stopped
  · obtain ⟨_, blank⟩ := Stop.mk.inj (Except.error.inj stopped)
    have lexes : Lexes "a".toList [.word "a"] := by decide
    exact .of_blank blank lexes ⟨["a"], .first .done⟩
  · simp at stopped

theorem skipBlanks_eq_nil_of_skipClosing (stopped : skipClosing text = .error ⟨fault, []⟩) :
    skipBlanks text = [] := by
  unfold skipClosing at stopped
  split at stopped
  · simp at stopped
  · exact (Stop.mk.inj (Except.error.inj stopped)).2

/-- Ids up to the parenthesis that closes them, whatever becomes of them. -/
theorem completable_enclosed (made : List String → Condition)
    (stopped : (readIds text >>= fun read => skipClosing read.2 >>= fun rest =>
      .ok (made read.1, rest)) = .error ⟨fault, []⟩) :
    Completable (fun tokens => ∃ listed ids, tokens = listed ++ [.mark .closing] ∧
      DerivesIds listed ids) text := by
  have closing : Lexes ")".toList [.mark .closing] := by decide
  rcases bind_eq_error_iff.mp stopped with stopped | ⟨read, idsRead, stopped⟩
  · apply (completable_readIds stopped).before closing
    rintro listed ⟨ids, derives⟩
    exact ⟨listed, ids, rfl, derives⟩
  · obtain ⟨listed, derives, passes⟩ := sound_readIds idsRead
    rcases bind_eq_error_iff.mp stopped with stopped | ⟨rest, _, stopped⟩
    · have closed : Completable (fun tokens => tokens = [.mark .closing]) read.2 :=
        .of_blank (skipBlanks_eq_nil_of_skipClosing stopped) closing rfl
      apply closed.after passes
      rintro _ rfl
      exact ⟨listed, read.1, rfl, derives⟩
    · simp at stopped

theorem completable_readCondition (stopped : readCondition text = .error ⟨fault, []⟩) :
    Completable (fun tokens => ∃ condition, DerivesCondition tokens condition) text := by
  by_cases exclaimed : ∃ listed, skipBlanks text = Mark.exclamation.char :: listed
  · obtain ⟨listed, begins⟩ := exclaimed
    rw [readCondition_of_exclaimed begins] at stopped
    rcases bind_eq_error_iff.mp stopped with stopped | ⟨read, _, stopped⟩
    · apply Completable.after (.mark begins) (completable_readIds stopped)
      rintro others ⟨ids, derives⟩
      exact ⟨_, .excluded derives⟩
    · simp at stopped
  · have notExclaimed (rest : List Char) : skipBlanks text ≠ Mark.exclamation.char :: rest :=
      fun begins => exclaimed ⟨rest, begins⟩
    cases opened : skipNot? (skipBlanks text) with
    | some inside =>
      obtain ⟨afterNot, found, opens⟩ := skipNot?_eq_some_iff.mp opened
      have begun : Passes text [.word "not", .mark .opening] inside :=
        (Passes.word found).trans (.mark opens)
      rw [readCondition_of_enclosed notExclaimed opened] at stopped
      apply (completable_enclosed (fun ids => .notIn (.ofList ids)) stopped).after begun
      rintro _ ⟨listed, ids, rfl, derives⟩
      exact ⟨_, .enclosed derives⟩
    | none =>
      rw [readCondition_of_bare notExclaimed opened] at stopped
      rcases bind_eq_error_iff.mp stopped with stopped | ⟨read, _, stopped⟩
      · have blanks : Passes text [] (skipBlanks text) :=
          fun _ lexes => lexes_skipBlanks_iff.mp lexes
        apply Completable.after blanks (completable_readIds stopped)
        rintro others ⟨ids, derives⟩
        exact ⟨_, .included derives⟩
      · simp at stopped

theorem completable_readConstraint (stopped : readConstraint text = .error ⟨fault, []⟩) :
    Completable (fun tokens => ∃ constraint, DerivesConstraint tokens constraint) text := by
  rcases bind_eq_error_iff.mp stopped with stopped | ⟨⟨facet, rest⟩, facetRead, stopped⟩
  · unfold readFacet at stopped
    split at stopped
    · obtain ⟨_, blank⟩ := Stop.mk.inj (Except.error.inj stopped)
      have lexes : Lexes "m b".toList [.word "m", .word "b"] := by decide
      have named : Facet.ofKeyword? "m" = some .itemType := by decide
      exact .of_blank blank lexes ⟨_, .intro named (.included (.first .done))⟩
    · next word rest found =>
      split at stopped
      · obtain ⟨_, blank⟩ := Stop.mk.inj (Except.error.inj stopped)
        simp [blank] at found
      · simp at stopped
  · obtain ⟨keyword, named, passes⟩ := sound_readFacet facetRead
    rcases bind_eq_error_iff.mp stopped with stopped | ⟨read, _, stopped⟩
    · apply Completable.after passes (completable_readCondition stopped)
      rintro others ⟨condition, derives⟩
      exact ⟨_, .intro named derives⟩
    · simp [pure, Except.pure] at stopped

theorem completable_readMoreConstraints (stopped : readMoreConstraints text = .error ⟨fault, []⟩) :
    Completable (fun tokens => ∃ constraints, DerivesMoreConstraints tokens constraints) text := by
  fun_induction readMoreConstraints text with
  | case1 text afterPlus begins stop read =>
    rw [Except.error.inj stopped] at read
    have plus : Passes text [.mark .plus] afterPlus := .mark begins
    apply Completable.after plus (completable_readConstraint read)
    rintro others ⟨constraint, derives⟩
    have derived := DerivesMoreConstraints.next derives .done
    rw [List.append_nil] at derived
    exact ⟨_, derived⟩
  | case2 text afterPlus begins constraint rest read stop failed ih =>
    rw [Except.error.inj stopped] at failed
    obtain ⟨tokens, derives, passes⟩ := sound_readConstraint read
    have plus : Passes text [.mark .plus] afterPlus := .mark begins
    apply Completable.after (plus.trans passes) (ih failed)
    rintro others ⟨constraints, more⟩
    exact ⟨_, .next derives more⟩
  | case3 => simp at stopped
  | case4 => simp at stopped

theorem completable_readConditions (stopped : readConditions text = .error ⟨fault, []⟩) :
    Completable (fun tokens => ∃ constraints, DerivesConditions tokens constraints) text := by
  cases all : skipAll? (skipBlanks text) with
  | some rest => simp [readConditions, all] at stopped
  | none =>
    rw [readConditions_of_not_all all] at stopped
    rcases bind_eq_error_iff.mp stopped with stopped | ⟨⟨constraint, rest⟩, read, stopped⟩
    · apply (completable_readConstraint stopped).mono
      rintro others ⟨constraint, derives⟩
      have derived := DerivesConditions.first derives .done
      rw [List.append_nil] at derived
      exact ⟨_, derived⟩
    · obtain ⟨tokens, derives, passes⟩ := sound_readConstraint read
      rcases bind_eq_error_iff.mp stopped with stopped | ⟨more, _, stopped⟩
      · apply Completable.after passes (completable_readMoreConstraints stopped)
        rintro others ⟨constraints, more⟩
        exact ⟨_, .first derives more⟩
      · simp at stopped

theorem completable_readMoreAssignments
    (stopped : readMoreAssignments text = .error ⟨fault, []⟩) :
    Completable (fun tokens => ∃ assignments, DerivesAssignments tokens assignments) text := by
  fun_induction readMoreAssignments text with
  | case1 => simp at stopped
  | case2 text kind afterKind kindRead stop read =>
    rw [Except.error.inj stopped] at read
    obtain ⟨keyword, found, named⟩ := kind?_eq_some_iff.mp kindRead
    apply Completable.after (.word found) (completable_readPolicyId read)
    rintro _ ⟨id, rfl⟩
    exact ⟨_, .first named .done⟩
  | case3 text kind afterKind kindRead id rest read stop failed ih =>
    rw [Except.error.inj stopped] at failed
    obtain ⟨keyword, found, named⟩ := kind?_eq_some_iff.mp kindRead
    have begun : Passes text [.word keyword, .word id] rest :=
      (Passes.word found).trans (.word (readPolicyId_eq_ok_iff.mp read))
    apply Completable.after begun (ih failed)
    rintro others ⟨assignments, derives⟩
    cases derives with
    | first namedNext more => exact ⟨_, .first named (.next namedNext more)⟩
  | case4 => simp at stopped

theorem completable_readAssignments (stopped : readAssignments text = .error ⟨fault, []⟩) :
    Completable (fun tokens => ∃ assignments, DerivesAssignments tokens assignments) text := by
  unfold readAssignments at stopped
  split at stopped
  · obtain ⟨_, blank⟩ := Stop.mk.inj (Except.error.inj stopped)
    have lexes : Lexes "l p".toList [.word "l", .word "p"] := by decide
    have named : PolicyKind.ofKeyword? "l" = some .loan := by decide
    exact .of_blank blank lexes ⟨_, .first named .done⟩
  · exact completable_readMoreAssignments stopped

/-! ## Lines whose reading comes to their end -/

/-- `":" assignments` -/
def DerivesAssigned (tokens : List Token) : Prop :=
  ∃ others assignments, tokens = .mark .colon :: others ∧ DerivesAssignments others assignments

theorem exists_derivesAssigned :
    ∃ text tokens, Lexes text tokens ∧ DerivesAssigned tokens := by
  have named : PolicyKind.ofKeyword? "l" = some .loan := by decide
  have lexes : Lexes ": l p".toList [.mark .colon, .word "l", .word "p"] := by decide
  exact ⟨_, _, lexes, _, _, rfl, .first named .done⟩

theorem readEnd_ne_nil : readEnd text ≠ .error ⟨fault, []⟩ := by
  intro stopped
  unfold readEnd at stopped
  split at stopped
  · simp at stopped
  · next visible => exact visible (Stop.mk.inj (Except.error.inj stopped)).2

theorem skipBlanks_eq_nil_of_skipColon (stopped : skipColon text = .error ⟨fault, []⟩) :
    skipBlanks text = [] := by
  unfold skipColon at stopped
  split at stopped
  · simp at stopped
  · exact (Stop.mk.inj (Except.error.inj stopped)).2

theorem completable_readAssigned {made : List (PolicyKind × String) → Statement}
    (stopped : readAssigned made text = .error ⟨fault, []⟩) :
    Completable DerivesAssigned text := by
  rcases bind_eq_error_iff.mp stopped with stopped | ⟨rest, colon, stopped⟩
  · obtain ⟨_, _, lexes, derived⟩ := exists_derivesAssigned
    exact .of_blank (skipBlanks_eq_nil_of_skipColon stopped) lexes derived
  · rcases bind_eq_error_iff.mp stopped with stopped | ⟨read, _, stopped⟩
    · apply Completable.after (.mark (sound_skipColon colon)) (completable_readAssignments stopped)
      rintro others ⟨assignments, derives⟩
      exact ⟨others, assignments, rfl, derives⟩
    · rcases bind_eq_error_iff.mp stopped with stopped | ⟨_, _, stopped⟩
      · exact absurd stopped readEnd_ne_nil
      · simp at stopped

/-- The keyword of fallbacks is a whole word if reading comes to the end of the line. -/
theorem word?_of_readAssigned {made : List (PolicyKind × String) → Statement} {rest : List Char}
    (begins : skipLiteral? fallbackKeyword text = some rest)
    (stopped : readAssigned made rest = .error ⟨fault, []⟩) :
    word? text = some ("fallback-policy", rest) := by
  rw [skipLiteral?_eq_some_iff.mp begins]
  rcases bind_eq_error_iff.mp stopped with stopped | ⟨_, colon, _⟩
  · have blank : AllBlank rest := skipBlanks_eq_nil_iff.mp (skipBlanks_eq_nil_of_skipColon stopped)
    have inside : fallbackKeyword.all isWordChar = true := by decide
    exact word?_eq_some_iff.mpr ⟨rfl, by decide, List.all_eq_true.mp inside, blank.separated⟩
  · exact word?_append_of_mark .colon (by decide) (by decide) (sound_skipColon colon)

theorem completable_readStatement {line : List Char}
    (stopped : readStatement line = .error ⟨fault, []⟩) :
    Completable (fun tokens => ∃ statement, DerivesStatement tokens statement) line := by
  cases begins : skipLiteral? fallbackKeyword (skipBlanks line) with
  | some rest =>
    rw [readStatement_of_keyword begins] at stopped
    apply Completable.after (.word (word?_of_readAssigned begins stopped))
      (completable_readAssigned stopped)
    rintro _ ⟨others, assignments, rfl, assigned⟩
    exact ⟨_, .fallback assigned⟩
  | none =>
    rw [readStatement_of_conditions begins] at stopped
    rcases bind_eq_error_iff.mp stopped with stopped | ⟨⟨constraints, rest⟩, read, stopped⟩
    · obtain ⟨_, _, lexes, others, assignments, rfl, assigned⟩ := exists_derivesAssigned
      apply (completable_readConditions stopped).before lexes
      rintro tokens ⟨constraints, derives⟩
      exact ⟨_, .rule derives assigned⟩
    · obtain ⟨tokens, derives, passes⟩ := sound_readConditions read
      apply Completable.after passes (completable_readAssigned stopped)
      rintro _ ⟨others, assignments, rfl, assigned⟩
      exact ⟨_, .rule derives assigned⟩

end Parts

/-- A line whose reading comes to its end goes on, behind a blank, to a statement. -/
theorem endsEarly_of_readStatement {line : List Char} {fault : SyntaxFault}
    (stopped : readStatement line = .error ⟨fault, []⟩) : EndsEarly line := by
  constructor
  · obtain ⟨passed, whole, notComma⟩ := (leaves_readStatement line).error _ stopped
    rwa [whole, List.append_nil]
  · obtain ⟨tokens, more, continuation, lexes, lexesMore, statement, derives⟩ :=
      completable_readStatement stopped
    have separated : Separated (' ' :: continuation) := separator_space.separated continuation
    exact ⟨' ' :: continuation, separated, statement, tokens ++ more,
      lexes.append separated (.blank (by decide) lexesMore), derives⟩

/-! ## Tokens of faults -/

/-- Where a text is unfinished, no token shows, or a comma that ends the line, or a word that is
lengthened. -/
theorem tokenAt_of_unfinished {tail line rest : List Char} (suffix : rest <:+ line)
    (unfinished : Unfinished tail rest) :
    tokenAt rest = "" ∨ (tokenAt rest = "," ∧ EndsInComma line) ∨
      ((tokenAt rest).toList <:+ line ∧ IsId (tokenAt rest) ∧ ¬Separated tail) := by
  cases unfinished with
  | separator visible separates =>
    cases separates with
    | blanks blank => exact .inl (tokenAt_eq_empty_iff.mpr blank.space)
    | @comma before after blankBefore blankAfter =>
      obtain ⟨front, rfl⟩ := suffix
      refine .inr (.inl ⟨?_, front ++ before, after, by simp, blankAfter⟩)
      rw [tokenAt_blanks_append blankBefore]
      exact tokenAt_mark .comma after
  | @word blanks word lengthens blank inside =>
    rw [tokenAt_blanks_append blank, tokenAt_word inside]
    by_cases isEmpty : word = []
    · rw [isEmpty]
      exact .inl rfl
    · refine .inr (.inr ⟨?_, ?_, lengthens⟩)
      · rw [String.toList_ofList]
        exact (List.suffix_append blanks word).trans suffix
      · rw [IsId, String.toList_ofList]
        exact ⟨isEmpty, inside⟩

/-- Unless reading stops at white space, the token of a faulty line is empty exactly if the line ends
early, and then the message says so. If a continuation makes the line a statement and still there is
a token, that is a comma which ends the line, or a word at its end which the continuation lengthens.
-/
theorem token_eq_empty_iff_endsEarly {number : UInt32} {line : List Char} {error : ParseError}
    (refused : parseStatement number line = .error error) (visible : ¬StopsAtSpace line) :
    (error.token = "" ↔ EndsEarly line) ∧
      (error.token = "" → error.message =
        s!"syntax error on line {number} at end of line: {error.fault.reason}") ∧
      ∀ continuation, Completes line continuation →
        error.token = "" ∨ (error.token = "," ∧ EndsInComma line) ∨
          (error.token.toList <:+ line ∧ IsId error.token ∧ ¬Separated continuation) := by
  unfold parseStatement at refused
  split at refused
  · simp at refused
  · next stop stopped =>
    cases Except.error.inj refused
    have leaves := leaves_readStatement line
    have tokens (continuation : List Char) (completes : Completes line continuation) :=
      tokenAt_of_unfinished (leaves.error stop stopped).suffix
        (unfinished_of_derives stopped completes.choose_spec)
    refine ⟨⟨?_, ?_⟩, ?_, tokens⟩
    · intro noToken
      have space := tokenAt_eq_empty_iff.mp noToken
      obtain ⟨fault, rest⟩ := stop
      cases rest with
      | nil => exact endsEarly_of_readStatement stopped
      | cons char rest =>
        have notBlank := isBlank_of_skipBlanks (leaves.pastBlanks _ stopped)
        exact absurd ⟨fault, char, rest, stopped, notBlank, space⟩ visible
    · intro early
      obtain ⟨continuation, separated, completes⟩ := early.completed
      rcases tokens continuation completes with noToken | ⟨_, comma⟩ | ⟨_, _, lengthens⟩
      · exact noToken
      · exact absurd comma early.notComma
      · exact absurd separated lengthens
    · intro noToken
      have isEmpty : (tokenAt stop.rest).isEmpty = true := String.isEmpty_iff.mpr noToken
      rw [ParseError.message, if_pos isEmpty]

/-- A line that ends inside a list in parentheses. -/
def openLine : List Char :=
  "m not (a, b".toList

theorem token_eq_empty_iff_endsEarly_openLine :
    parseStatement 3 openLine = .error ⟨3, "", .unclosedIdList⟩ ∧ ¬StopsAtSpace openLine ∧
      EndsEarly openLine := by
  have stopped : readStatement openLine = .error ⟨.unclosedIdList, []⟩ := by decide +kernel
  have refused : parseStatement 3 openLine = .error ⟨3, "", .unclosedIdList⟩ := by decide +kernel
  have visible : ¬StopsAtSpace openLine := by
    rintro ⟨fault, char, rest, stoppedThere, _⟩
    rw [stopped] at stoppedThere
    simp at stoppedThere
  exact ⟨refused, visible, (token_eq_empty_iff_endsEarly refused visible).1.mp rfl⟩

/-- A token shows at the word and at the comma of two lines that can become statements, and none at
the white space of a line that cannot. -/
theorem token_ne_empty_of_completes :
    (parseStatement 1 "item-typ".toList = .error ⟨1, "item-typ", .unknownFacet⟩ ∧
      Completes "item-typ".toList "e a: l p".toList) ∧
      (parseStatement 1 "m book,".toList = .error ⟨1, ",", .missingColon⟩ ∧
        Completes "m book,".toList " dvd: l p".toList) ∧
      (parseStatement 1 "m book: l p\u00a0".toList = .error ⟨1, "", .trailingText⟩ ∧
        ∀ continuation, ¬Completes "m book: l p\u00a0".toList continuation) := by
  refine ⟨⟨by decide +kernel, ?_⟩, ⟨by decide +kernel, ?_⟩, by decide +kernel, ?_⟩
  · have read : readStatement "item-type a: l p".toList =
        .ok (.rule [(.itemType, .isIn (.ofList ["a"]))] [(.loan, "p")]) := by decide +kernel
    exact ⟨_, derives_of_readStatement read⟩
  · have read : readStatement "m book, dvd: l p".toList =
        .ok (.rule [(.itemType, .isIn (.ofList ["book", "dvd"]))] [(.loan, "p")]) := by
      decide +kernel
    exact ⟨_, derives_of_readStatement read⟩
  · rintro continuation ⟨statement, tokens, lexes, _⟩
    have absent : '\u00a0' ∉ "m book: l p\u00a0".toList ++ continuation :=
      lexes.not_mem (by decide) (by decide) (by intro mark; cases mark <;> decide)
    exact absent (List.mem_append_left _ (by decide))

end Circulation.RuleText
