import Circulation.Proofs.Spelling

/-!
Contract: that a line has one tree at most.

Owns:
- that a text consists of one sequence of tokens at most;
- that the tokens of a tree show where each of its parts ends, and so the tree.

Does not own: which lines have a tree.

Parts of a tree are compared together with the tokens that follow them: two parts of one sort, each
before tokens that end it, are the same if the whole is.
-/

namespace Circulation

namespace RuleText

theorem Lexes.unique {text : List Char} {tokens others : List Token} (lexes : Lexes text tokens)
    (otherLexes : Lexes text others) : tokens = others := by
  induction tokens generalizing text others with
  | nil =>
    have blank := lexes_nil_iff.mp lexes
    cases others with
    | nil => rfl
    | cons token others =>
      cases token with
      | mark mark =>
        obtain ⟨_, begins, _⟩ := lexes_mark_iff.mp otherLexes
        simp [blank] at begins
      | word word =>
        obtain ⟨_, found, _⟩ := lexes_word_iff.mp otherLexes
        simp [blank] at found
  | cons token tokens ih =>
    cases token with
    | mark mark =>
      obtain ⟨rest, begins, lexesRest⟩ := lexes_mark_iff.mp lexes
      obtain ⟨further, rfl⟩ := eq_mark_cons_of_lexes otherLexes begins
      obtain ⟨otherRest, otherBegins, otherLexesRest⟩ := lexes_mark_iff.mp otherLexes
      rw [begins] at otherBegins
      obtain ⟨_, rfl⟩ := List.cons.inj otherBegins
      rw [ih lexesRest otherLexesRest]
    | word word =>
      obtain ⟨rest, found, lexesRest⟩ := lexes_word_iff.mp lexes
      cases others with
      | nil => simp [lexes_nil_iff.mp otherLexes] at found
      | cons other others =>
        cases other with
        | mark mark =>
          obtain ⟨_, begins, _⟩ := lexes_mark_iff.mp otherLexes
          simp [begins] at found
        | word otherWord =>
          obtain ⟨otherRest, otherFound, otherLexesRest⟩ := lexes_word_iff.mp otherLexes
          rw [found] at otherFound
          obtain ⟨rfl, rfl⟩ := Prod.mk.inj (Option.some.inj otherFound)
          rw [ih lexesRest otherLexesRest]

/-! ## Ids -/

section Parts

variable {rest otherRest : List Token}

namespace SpelledIds

/-- What ends ids is not taken for more of them. -/
theorem eq_nil_of_tokensOfMore {more : List (Bool × String)} (ends : EndsIds otherRest)
    (same : tokensOfMore more ++ rest = otherRest) : more = [] := by
  obtain ⟨mark, others, rfl, notComma, _⟩ := ends
  cases more with
  | nil => rfl
  | cons entry more =>
    obtain ⟨comma, id⟩ := entry
    cases comma with
    | true => exact absurd (Token.mark.inj (List.cons.inj same).1).symm notComma
    | false => simp [tokensOfMore] at same

theorem tokensOfMore_append_inj {more others : List (Bool × String)} (ends : EndsIds rest)
    (otherEnds : EndsIds otherRest)
    (same : tokensOfMore more ++ rest = tokensOfMore others ++ otherRest) :
    more = others ∧ rest = otherRest := by
  induction more generalizing others with
  | nil =>
    have noOthers : others = [] := eq_nil_of_tokensOfMore ends same.symm
    subst noOthers
    exact ⟨rfl, same⟩
  | cons entry more ih =>
    cases others with
    | nil => exact absurd (eq_nil_of_tokensOfMore otherEnds same) (List.cons_ne_nil _ _)
    | cons otherEntry others =>
      obtain ⟨comma, id⟩ := entry
      obtain ⟨otherComma, otherId⟩ := otherEntry
      have firsts : (comma, id) = (otherComma, otherId) ∧
          tokensOfMore more ++ rest = tokensOfMore others ++ otherRest := by
        cases comma <;> cases otherComma <;> simp [tokensOfMore] at same ⊢
        all_goals exact same
      obtain ⟨rfl, sameRest⟩ := ih firsts.2
      rw [firsts.1]
      exact ⟨rfl, sameRest⟩

theorem tokens_append_inj {spelled other : SpelledIds} (ends : EndsIds rest)
    (otherEnds : EndsIds otherRest) (same : spelled.tokens ++ rest = other.tokens ++ otherRest) :
    spelled = other ∧ rest = otherRest := by
  obtain ⟨first, more⟩ := spelled
  obtain ⟨otherFirst, others⟩ := other
  simp only [tokens, List.cons_append, List.cons.injEq, Token.word.injEq] at same
  obtain ⟨rfl, same⟩ := same
  obtain ⟨rfl, sameRest⟩ := tokensOfMore_append_inj ends otherEnds same
  exact ⟨rfl, sameRest⟩

/-- No list of ids goes on with a parenthesis, as the word `not` does. -/
theorem tokensOfMore_append_ne_opening {more : List (Bool × String)} (ends : EndsIds rest) :
    tokensOfMore more ++ rest ≠ .mark .opening :: otherRest := by
  intro same
  cases more with
  | nil =>
    obtain ⟨mark, others, rfl, _, notOpening⟩ := ends
    exact notOpening (Token.mark.inj (List.cons.inj same).1)
  | cons entry more =>
    obtain ⟨comma, id⟩ := entry
    cases comma <;> simp [tokensOfMore] at same

end SpelledIds

/-! ## Conditions -/

theorem endsIds_closing (tokens : List Token) : EndsIds (.mark .closing :: tokens) :=
  ⟨.closing, tokens, rfl, by decide, by decide⟩

theorem SpelledCondition.tokens_append_inj {spelled other : SpelledCondition} (ends : EndsIds rest)
    (otherEnds : EndsIds otherRest) (same : spelled.tokens ++ rest = other.tokens ++ otherRest) :
    spelled = other ∧ rest = otherRest := by
  -- The first token tells an exclamation mark, the second one the word `not` from an id.
  cases spelled with
  | bare ids =>
    cases other with
    | bare otherIds =>
      obtain ⟨rfl, sameRest⟩ := SpelledIds.tokens_append_inj ends otherEnds same
      exact ⟨rfl, sameRest⟩
    | exclaimed otherIds => simp [tokens, SpelledIds.tokens] at same
    | enclosed otherIds =>
      exact absurd (List.cons.inj same).2 (SpelledIds.tokensOfMore_append_ne_opening ends)
  | exclaimed ids =>
    cases other with
    | bare otherIds => simp [tokens, SpelledIds.tokens] at same
    | exclaimed otherIds =>
      obtain ⟨rfl, sameRest⟩ := SpelledIds.tokens_append_inj ends otherEnds (List.cons.inj same).2
      exact ⟨rfl, sameRest⟩
    | enclosed otherIds => simp [tokens] at same
  | enclosed ids =>
    cases other with
    | bare otherIds =>
      exact absurd (List.cons.inj same).2.symm
        (SpelledIds.tokensOfMore_append_ne_opening otherEnds)
    | exclaimed otherIds => simp [tokens] at same
    | enclosed otherIds =>
      simp only [tokens, List.cons_append, List.cons.injEq, true_and, List.append_assoc] at same
      obtain ⟨rfl, sameRest⟩ := SpelledIds.tokens_append_inj (endsIds_closing _)
        (endsIds_closing _) same
      exact ⟨rfl, (List.cons.inj sameRest).2⟩

end Parts

end RuleText

/-! ## Keywords -/

/-- Of two distinct spellings a word shows which one it is. -/
theorem eq_of_spelling_eq {keyword letter : String} (distinct : keyword ≠ letter)
    {long otherLong : Bool}
    (same : (if long then keyword else letter) = if otherLong then keyword else letter) :
    long = otherLong := by
  cases long <;> cases otherLong <;> simp_all

theorem Facet.spelling_inj {facet other : Facet} {long otherLong : Bool}
    (same : facet.spelling long = other.spelling otherLong) : facet = other ∧ long = otherLong := by
  have named := ofKeyword?_eq_some_iff.mpr ⟨long, same⟩
  rw [ofKeyword?_eq_some_iff.mpr ⟨otherLong, rfl⟩] at named
  obtain rfl := Option.some.inj named
  have distinct : ∀ facet ∈ all, facet.keyword ≠ facet.letter.toString := by decide
  exact ⟨rfl, eq_of_spelling_eq (distinct other other.mem_all) same⟩

theorem PolicyKind.spelling_inj {kind other : PolicyKind} {long otherLong : Bool}
    (same : kind.spelling long = other.spelling otherLong) : kind = other ∧ long = otherLong := by
  have named := ofKeyword?_eq_some_iff.mpr ⟨long, same⟩
  rw [ofKeyword?_eq_some_iff.mpr ⟨otherLong, rfl⟩] at named
  obtain rfl := Option.some.inj named
  have distinct : other.keyword ≠ other.letter.toString := by cases other <;> decide
  exact ⟨rfl, eq_of_spelling_eq distinct same⟩

namespace RuleText

/-! ## Constraints -/

namespace SpelledConstraint

variable {rest otherRest : List Token}

theorem tokens_append_inj {spelled other : SpelledConstraint} (ends : EndsIds rest)
    (otherEnds : EndsIds otherRest) (same : spelled.tokens ++ rest = other.tokens ++ otherRest) :
    spelled = other ∧ rest = otherRest := by
  obtain ⟨facet, long, condition⟩ := spelled
  obtain ⟨otherFacet, otherLong, otherCondition⟩ := other
  simp only [tokens, List.cons_append, List.cons.injEq, Token.word.injEq] at same
  obtain ⟨rfl, rfl⟩ := Facet.spelling_inj same.1
  obtain ⟨rfl, sameRest⟩ := SpelledCondition.tokens_append_inj ends otherEnds same.2
  exact ⟨rfl, sameRest⟩

theorem endsIds_tokensOfMore (more : List SpelledConstraint) (rest : List Token) :
    EndsIds (tokensOfMore more ++ .mark .colon :: rest) := by
  cases more with
  | nil => exact endsIds_colon rest
  | cons spelled more => exact ⟨.plus, _, rfl, by decide, by decide⟩

theorem tokensOfMore_append_inj {more others : List SpelledConstraint}
    (same : tokensOfMore more ++ .mark .colon :: rest =
      tokensOfMore others ++ .mark .colon :: otherRest) : more = others ∧ rest = otherRest := by
  induction more generalizing others with
  | nil =>
    cases others with
    | nil => exact ⟨rfl, (List.cons.inj same).2⟩
    | cons other others => simp [tokensOfMore] at same
  | cons spelled more ih =>
    cases others with
    | nil => simp [tokensOfMore] at same
    | cons other others =>
      simp only [tokensOfMore, List.cons_append, List.cons.injEq, true_and,
        List.append_assoc] at same
      obtain ⟨rfl, sameMore⟩ := tokens_append_inj (endsIds_tokensOfMore more rest)
        (endsIds_tokensOfMore others otherRest) same
      obtain ⟨rfl, sameRest⟩ := ih sameMore
      exact ⟨rfl, sameRest⟩

/-- The word `all` is no spelling of a facet. -/
theorem tokens_append_ne_all (spelled : SpelledConstraint) :
    spelled.tokens ++ rest ≠ .word "all" :: otherRest := by
  intro same
  have isAll : spelled.facet.spelling spelled.long = "all" :=
    Token.word.inj (List.cons.inj same).1
  exact ne_all_of_facet (Facet.ofKeyword?_eq_some_iff.mpr ⟨spelled.long, isAll⟩) rfl

theorem tokensOfAll_append_inj {spelled others : List SpelledConstraint}
    (same : tokensOfAll spelled ++ .mark .colon :: rest =
      tokensOfAll others ++ .mark .colon :: otherRest) : spelled = others ∧ rest = otherRest := by
  cases spelled with
  | nil =>
    cases others with
    | nil => simpa [tokensOfAll] using same
    | cons other others =>
      rw [tokensOfAll, tokensOfAll, List.append_assoc] at same
      exact absurd same.symm other.tokens_append_ne_all
  | cons first more =>
    cases others with
    | nil =>
      rw [tokensOfAll, tokensOfAll, List.append_assoc] at same
      exact absurd same first.tokens_append_ne_all
    | cons other others =>
      rw [tokensOfAll, tokensOfAll, List.append_assoc, List.append_assoc] at same
      obtain ⟨rfl, sameMore⟩ := tokens_append_inj (endsIds_tokensOfMore more rest)
        (endsIds_tokensOfMore others otherRest) same
      obtain ⟨rfl, sameRest⟩ := tokensOfMore_append_inj sameMore
      exact ⟨rfl, sameRest⟩

end SpelledConstraint

/-! ## Lines -/

theorem SpelledAssignment.tokensOfAll_inj {spelled others : List SpelledAssignment}
    (same : tokensOfAll spelled = tokensOfAll others) : spelled = others := by
  induction spelled generalizing others with
  | nil =>
    cases others with
    | nil => rfl
    | cons other others => simp [tokensOfAll] at same
  | cons first more ih =>
    cases others with
    | nil => simp [tokensOfAll] at same
    | cons other others =>
      obtain ⟨kind, long, id⟩ := first
      obtain ⟨otherKind, otherLong, otherId⟩ := other
      simp only [tokensOfAll, List.cons.injEq, Token.word.injEq] at same
      obtain ⟨sameWord, rfl, same⟩ := same
      obtain ⟨rfl, rfl⟩ := PolicyKind.spelling_inj sameWord
      rw [ih same]

namespace SpelledLine

/-- No rule begins with the keyword of fallbacks. -/
theorem tokensOfAll_append_ne_fallback {constraints : List SpelledConstraint}
    {rest otherRest : List Token} :
    SpelledConstraint.tokensOfAll constraints ++ rest ≠ .word "fallback-policy" :: otherRest := by
  intro same
  cases constraints with
  | nil => simp [SpelledConstraint.tokensOfAll] at same
  | cons first more =>
    have isFallback : first.facet.spelling first.long = "fallback-policy" :=
      Token.word.inj (List.cons.inj same).1
    have short := length_le_of_facet (Facet.ofKeyword?_eq_some_iff.mpr ⟨first.long, isFallback⟩)
    exact absurd short (by decide)

theorem tokens_inj {spelled other : SpelledLine} (same : spelled.tokens = other.tokens) :
    spelled = other := by
  cases spelled with
  | fallback assignments assigns =>
    cases other with
    | fallback others otherAssigns =>
      simp only [tokens, List.cons.injEq, true_and] at same
      obtain rfl := SpelledAssignment.tokensOfAll_inj same
      rfl
    | rule otherConstraints others otherAssigns =>
      exact absurd same.symm tokensOfAll_append_ne_fallback
  | rule constraints assignments assigns =>
    cases other with
    | fallback others otherAssigns => exact absurd same tokensOfAll_append_ne_fallback
    | rule otherConstraints others otherAssigns =>
      obtain ⟨rfl, sameAssignments⟩ := SpelledConstraint.tokensOfAll_append_inj same
      obtain rfl := SpelledAssignment.tokensOfAll_inj sameAssignments
      rfl

/-- A line has one tree at most. -/
theorem unique_of_lexes {line : List Char} {spelled other : SpelledLine}
    (lexes : Lexes line spelled.tokens) (otherLexes : Lexes line other.tokens) : spelled = other :=
  tokens_inj (lexes.unique otherLexes)

end SpelledLine

end RuleText

end Circulation
