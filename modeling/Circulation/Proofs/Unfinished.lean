import Circulation.Proofs.IdLists
import Circulation.Proofs.Remainders

/-!
Contract: texts with something behind them.

Owns:
- what of a text is unfinished, so that something behind it can change how it is read;
- that the same mark, word or keyword is found in a text and in the text with something behind it,
  unless the first is unfinished;
- that blanks around a text do not change its token.

Does not own: what is read from such texts.

Blanks behind a text change nothing at all, but reading may or may not skip them. So a text with
blanks behind it is compared with the text and any other blanks.
-/

namespace Circulation.RuleText

/-! ## What is behind a text -/

/-- A text with `tail` behind it. Where that is blank, other blanks are as good. -/
def Followed (tail text other : List Char) : Prop :=
  ∃ behind, other = text ++ behind ∧ (behind = tail ∨ AllBlank tail ∧ AllBlank behind)

theorem IdSeparator.blanks_append {blanks separator : List Char} (separates : IdSeparator separator)
    (blank : AllBlank blanks) : IdSeparator (blanks ++ separator) := by
  cases separates with
  | blanks others => exact .blanks (allBlank_append_iff.mpr ⟨blank, others⟩)
  | comma blankBefore blankAfter =>
    rw [← List.append_assoc]
    exact .comma (allBlank_append_iff.mpr ⟨blank, blankBefore⟩) blankAfter

/-- What is left of a text, if it depends on `tail` how that is read. -/
inductive Unfinished (tail : List Char) : List Char → Prop where
  /-- Another id can follow, or any other part if there is no comma. -/
  | separator {rest : List Char} (visible : ¬AllBlank tail) (separates : IdSeparator rest) :
      Unfinished tail rest
  /-- The last word can become longer. -/
  | word {blanks word : List Char} (lengthens : ¬Separated tail) (blank : AllBlank blanks)
      (inside : ∀ char ∈ word, isWordChar char = true) : Unfinished tail (blanks ++ word)

/-- Two texts, past their blanks, of which the second has `tail` behind it. -/
inductive SameStart (tail : List Char) : List Char → List Char → Prop where
  | nothing (blank : AllBlank tail) : SameStart tail [] []
  | char {rest other : List Char} (char : Char) (behind : Followed tail rest other) :
      SameStart tail (char :: rest) (char :: other)

section Starts

variable {tail text other : List Char}

theorem AllBlank.separated (blank : AllBlank tail) : Separated tail := by
  intro char isHead
  exact isWordChar_eq_false_of_isBlank (blank char (List.mem_of_mem_head? isHead))

theorem not_allBlank_of_not_separated (lengthens : ¬Separated tail) : ¬AllBlank tail :=
  fun blank => lengthens blank.separated

theorem Unfinished.not_allBlank (unfinished : Unfinished tail text) : ¬AllBlank tail := by
  cases unfinished with
  | separator visible separates => exact visible
  | word lengthens blank inside => exact not_allBlank_of_not_separated lengthens

theorem unfinished_nil (visible : ¬AllBlank tail) : Unfinished tail [] :=
  .separator visible (.blanks allBlank_nil)

/-- What is unfinished in a text is unfinished in each of its ends. -/
theorem Unfinished.of_append {front back : List Char}
    (unfinished : Unfinished tail (front ++ back)) :
    Unfinished tail back := by
  generalize whole : front ++ back = text at unfinished
  cases unfinished with
  | separator visible separates =>
    subst whole
    exact .separator visible separates.of_append
  | @word blanks word lengthens blank inside =>
    rcases List.append_eq_append_iff.mp whole with ⟨rest, rfl, rfl⟩ | ⟨rest, rfl, rfl⟩
    · exact .word lengthens (allBlank_append_iff.mp blank).2 inside
    · exact @word tail [] back lengthens allBlank_nil (List.forall_mem_append.mp inside).2

theorem Unfinished.of_reaches {rest : List Char} (unfinished : Unfinished tail text)
    (reaches : Reaches text rest) : Unfinished tail rest := by
  obtain ⟨passed, rfl, _⟩ := reaches
  exact unfinished.of_append

theorem Unfinished.of_skipBlanks (unfinished : Unfinished tail (skipBlanks text)) :
    Unfinished tail text := by
  obtain ⟨blanks, blank, whole⟩ := exists_append_skipBlanks text
  rw [whole]
  generalize skipBlanks text = start at unfinished
  cases unfinished with
  | separator visible separates => exact .separator visible (separates.blanks_append blank)
  | word lengthens between inside =>
    rw [← List.append_assoc]
    exact .word lengthens (allBlank_append_iff.mpr ⟨blank, between⟩) inside

theorem Followed.nil (blank : AllBlank tail) : Followed tail [] [] :=
  ⟨[], rfl, .inr ⟨blank, allBlank_nil⟩⟩

theorem SameStart.followed (same : SameStart tail text other) : Followed tail text other := by
  cases same with
  | nothing blank => exact .nil blank
  | char char behind =>
    obtain ⟨tail, rfl, isTail⟩ := behind
    exact ⟨tail, rfl, isTail⟩

/-- Past their blanks two such texts begin with the same character, if the first has one. -/
theorem Followed.skipBlanks (followed : Followed tail text other) :
    (AllBlank text ∧ ¬AllBlank tail) ∨ SameStart tail (skipBlanks text) (skipBlanks other) := by
  obtain ⟨behind, rfl, isTail⟩ := followed
  obtain ⟨blanks, blank, whole⟩ := exists_append_skipBlanks text
  cases start : RuleText.skipBlanks text with
  | nil =>
    have textBlank := skipBlanks_eq_nil_iff.mp start
    by_cases tailBlank : AllBlank tail
    · have behindBlank : AllBlank behind := by
        rcases isTail with rfl | ⟨_, behindBlank⟩
        · exact tailBlank
        · exact behindBlank
      rw [skipBlanks_append_of_blank textBlank, skipBlanks_eq_nil_iff.mpr behindBlank]
      exact .inr (.nothing tailBlank)
    · exact .inl ⟨textBlank, tailBlank⟩
  | cons char rest =>
    have notBlank := isBlank_of_skipBlanks start
    rw [whole, start, List.append_assoc, skipBlanks_append_of_blank blank, List.cons_append,
      skipBlanks_cons_of_not_blank _ notBlank]
    exact .inr (.char char ⟨behind, rfl, isTail⟩)

/-- Both texts go on with a mark or neither does, unless the first is unfinished. -/
theorem Followed.mark (followed : Followed tail text other) (mark : Mark) :
    Unfinished tail text ∨
      (∃ rest otherRest, RuleText.skipBlanks text = mark.char :: rest ∧
        RuleText.skipBlanks other = mark.char :: otherRest ∧ Followed tail rest otherRest) ∨
      SameStart tail (RuleText.skipBlanks text) (RuleText.skipBlanks other) ∧
        (∀ rest, RuleText.skipBlanks text ≠ mark.char :: rest) ∧
          ∀ rest, RuleText.skipBlanks other ≠ mark.char :: rest := by
  rcases followed.skipBlanks with ⟨blank, visible⟩ | starts
  · exact .inl (.separator visible (.blanks blank))
  · generalize RuleText.skipBlanks text = start at starts
    generalize RuleText.skipBlanks other = otherStart at starts
    by_cases begins : ∃ rest, start = mark.char :: rest
    · obtain ⟨rest, rfl⟩ := begins
      cases starts with
      | char _ behind => exact .inr (.inl ⟨rest, _, rfl, rfl, behind⟩)
    · refine .inr (.inr ⟨starts, fun rest same => begins ⟨rest, same⟩, ?_⟩)
      rintro rest rfl
      cases starts with
      | char _ behind => exact begins ⟨_, rfl⟩

/-- The same word is found at two such starts, unless the second text lengthens it. -/
theorem SameStart.word? (same : SameStart tail text other) :
    (∃ word, word? text = some (word, []) ∧ ¬Separated tail) ∨
      (word? text = none ∧ word? other = none) ∨
      ∃ word rest otherRest, word? text = some (word, rest) ∧ word? other = some (word, otherRest) ∧
        Followed tail rest otherRest := by
  cases same with
  | nothing blank => exact .inr (.inl ⟨rfl, rfl⟩)
  | @char rest other char behind =>
    obtain ⟨behind, rfl, isTail⟩ := behind
    rw [← List.cons_append]
    cases found : RuleText.word? (char :: rest) with
    | none =>
      have outside := word?_eq_none_iff.mp found
      refine .inr (.inl ⟨rfl, word?_eq_none_iff.mpr ?_⟩)
      simpa using outside
    | some result =>
      obtain ⟨word, left⟩ := result
      obtain ⟨whole, nonempty, inside, separated⟩ := word?_eq_some_iff.mp found
      by_cases stays : Separated (left ++ behind)
      · refine .inr (.inr ⟨word, left, left ++ behind, rfl, ?_, ⟨behind, rfl, isTail⟩⟩)
        rw [whole, List.append_assoc]
        exact word?_eq_some_iff.mpr ⟨rfl, nonempty, inside, stays⟩
      · -- Only a word that ends the text can become longer, and only through the tail.
        cases left with
        | nil =>
          refine .inl ⟨word, rfl, ?_⟩
          rcases isTail with rfl | ⟨_, behindBlank⟩
          · exact stays
          · exact absurd behindBlank.separated stays
        | cons next left => exact absurd separated stays

/-- A literal of word characters is found at both starts or at neither, unless the second text
completes it. -/
theorem SameStart.skipLiteral? (same : SameStart tail text other) {literal : List Char}
    (inside : ∀ char ∈ literal, isWordChar char = true) :
    Unfinished tail text ∨ (skipLiteral? literal text = none ∧ skipLiteral? literal other = none) ∨
      ∃ rest otherRest, skipLiteral? literal text = some rest ∧
        skipLiteral? literal other = some otherRest ∧ Followed tail rest otherRest := by
  obtain ⟨behind, rfl, isTail⟩ := same.followed
  cases begins : RuleText.skipLiteral? literal text with
  | some rest =>
    refine .inr (.inr ⟨rest, rest ++ behind, rfl, ?_, ⟨behind, rfl, isTail⟩⟩)
    rw [skipLiteral?_eq_some_iff, skipLiteral?_eq_some_iff.mp begins, List.append_assoc]
  | none =>
    have notBegun (rest : List Char) : text ≠ literal ++ rest := by
      intro whole
      rw [skipLiteral?_eq_some_iff.mpr whole] at begins
      simp at begins
    cases otherBegins : RuleText.skipLiteral? literal (text ++ behind) with
    | none => exact .inr (.inl ⟨rfl, rfl⟩)
    | some otherRest =>
      have whole := skipLiteral?_eq_some_iff.mp otherBegins
      rcases List.append_eq_append_iff.mp whole with ⟨missing, split, rfl⟩ | ⟨rest, split, _⟩
      · -- The text is a part of the literal, and what is behind it begins with the other part.
        subst split
        rw [List.forall_mem_append] at inside
        have lengthens : ¬Separated (missing ++ otherRest) := by
          cases missing with
          | nil => exact absurd (List.append_nil text).symm (notBegun [] ∘ by simp)
          | cons char missing =>
            intro separated
            simp [separated char rfl] at inside
        rcases isTail with same | ⟨_, behindBlank⟩
        · exact .inl (@Unfinished.word tail [] text (same ▸ lengthens) allBlank_nil inside.1)
        · exact absurd behindBlank.separated lengthens
      · exact absurd split (notBegun rest)

theorem skipNot?_eq_none_of_word? {rest : List Char} {word : String}
    (found : RuleText.word? text = some (word, rest))
    (closed : word = "not" → ∀ inside, skipBlanks rest ≠ Mark.opening.char :: inside) :
    skipNot? text = none := by
  rw [Option.eq_none_iff_forall_ne_some]
  intro inside opened
  obtain ⟨afterNot, foundNot, opens⟩ := skipNot?_eq_some_iff.mp opened
  rw [found] at foundNot
  obtain ⟨isNot, rfl⟩ := Prod.mk.inj (Option.some.inj foundNot)
  exact closed isNot inside opens

theorem skipNot?_eq_none_of_not_word? (missing : RuleText.word? text = none) :
    skipNot? text = none := by
  rw [Option.eq_none_iff_forall_ne_some]
  intro inside opened
  obtain ⟨afterNot, found, _⟩ := skipNot?_eq_some_iff.mp opened
  simp [missing] at found

/-- Both texts open a parenthesis with `not` or neither does, unless the second text opens it. -/
theorem SameStart.skipNot? (same : SameStart tail text other) :
    (∃ word rest, RuleText.word? text = some (word, rest) ∧ Unfinished tail rest) ∨
      (skipNot? text = none ∧ skipNot? other = none) ∨
      ∃ inside otherInside, skipNot? text = some inside ∧ skipNot? other = some otherInside ∧
        Followed tail inside otherInside := by
  rcases same.word? with ⟨word, found, lengthens⟩ | ⟨missing, otherMissing⟩ |
    ⟨word, rest, otherRest, found, otherFound, behind⟩
  · exact .inl ⟨word, [], found, unfinished_nil (not_allBlank_of_not_separated lengthens)⟩
  · exact .inr (.inl ⟨skipNot?_eq_none_of_not_word? missing,
      skipNot?_eq_none_of_not_word? otherMissing⟩)
  · rcases behind.skipBlanks with ⟨blank, visible⟩ | starts
    · exact .inl ⟨word, rest, found, .separator visible (.blanks blank)⟩
    · generalize start : skipBlanks rest = begun at starts
      generalize otherStart : skipBlanks otherRest = otherBegun at starts
      by_cases opens : word = "not" ∧ ∃ inside, begun = Mark.opening.char :: inside
      · obtain ⟨rfl, inside, rfl⟩ := opens
        cases starts with
        | @char _ otherInside _ behind =>
          exact .inr (.inr ⟨inside, otherInside, skipNot?_eq_some_iff.mpr ⟨rest, found, start⟩,
            skipNot?_eq_some_iff.mpr ⟨otherRest, otherFound, otherStart⟩, behind⟩)
      · refine .inr (.inl ⟨skipNot?_eq_none_of_word? found ?_,
          skipNot?_eq_none_of_word? otherFound ?_⟩)
        · intro isNot inside same
          exact opens ⟨isNot, inside, start.symm.trans same⟩
        · intro isNot inside same
          rw [otherStart] at same
          subst same
          cases starts with
          | char _ behind => exact opens ⟨isNot, _, rfl⟩

/-- Past their blanks the same word is found in both texts or in neither, unless the first is
unfinished. -/
theorem Followed.word? (followed : Followed tail text other) :
    Unfinished tail text ∨
      Followed tail (RuleText.skipBlanks text) (RuleText.skipBlanks other) ∧
        ((RuleText.word? (RuleText.skipBlanks text) = none ∧
            RuleText.word? (RuleText.skipBlanks other) = none) ∨
          ∃ word rest otherRest, RuleText.word? (RuleText.skipBlanks text) = some (word, rest) ∧
            RuleText.word? (RuleText.skipBlanks other) = some (word, otherRest) ∧
              Followed tail rest otherRest) := by
  rcases followed.skipBlanks with ⟨blank, visible⟩ | starts
  · exact .inl (.separator visible (.blanks blank))
  · rcases starts.word? with ⟨word, found, lengthens⟩ | alike
    · obtain ⟨blanks, blank, whole⟩ := exists_append_skipBlanks text
      obtain ⟨begins, _, inside, _⟩ := word?_eq_some_iff.mp found
      rw [begins, List.append_nil] at whole
      rw [whole]
      exact .inl (.word lengthens blank inside)
    · exact .inr ⟨starts.followed, alike⟩

/-- Past what may separate ids, both texts begin with the same character, if the first has one. -/
theorem Followed.skipSeparator (followed : Followed tail text other) :
    Unfinished tail text ∨
      SameStart tail (RuleText.skipSeparator text) (RuleText.skipSeparator other) := by
  rcases followed.mark .comma with unfinished | ⟨rest, otherRest, comma, otherComma, behind⟩ |
    ⟨starts, noComma, otherNoComma⟩
  · exact .inl unfinished
  · obtain ⟨before, blankBefore, whole⟩ := exists_append_skipBlanks text
    rw [RuleText.skipSeparator, RuleText.skipSeparator, comma, otherComma]
    rcases behind.skipBlanks with ⟨blankAfter, visible⟩ | afterComma
    · rw [whole, comma]
      exact .inl (.separator visible (.comma blankBefore blankAfter))
    · exact .inr afterComma
  · right
    rw [RuleText.skipSeparator, RuleText.skipSeparator]
    split
    · next rest same => exact absurd same (noComma rest)
    · split
      · next rest same => exact absurd same (otherNoComma rest)
      · exact starts

/-- Both texts go on with the word `all` or neither does, unless the first is unfinished. -/
theorem Followed.skipAll? (followed : Followed tail text other) :
    Unfinished tail text ∨
      (RuleText.skipAll? (RuleText.skipBlanks text) = none ∧
        RuleText.skipAll? (RuleText.skipBlanks other) = none) ∨
      ∃ rest otherRest, RuleText.skipAll? (RuleText.skipBlanks text) = some rest ∧
        RuleText.skipAll? (RuleText.skipBlanks other) = some otherRest ∧
          Followed tail rest otherRest := by
  rcases followed.word? with unfinished | ⟨_, ⟨missing, otherMissing⟩ |
    ⟨word, rest, otherRest, found, otherFound, behind⟩⟩
  · exact .inl unfinished
  · rw [RuleText.skipAll?, RuleText.skipAll?, missing, otherMissing]
    exact .inr (.inl ⟨rfl, rfl⟩)
  · rw [skipAll?_of_word? found, skipAll?_of_word? otherFound]
    by_cases isAll : word = "all"
    · rw [if_pos isAll, if_pos isAll]
      exact .inr (.inr ⟨rest, otherRest, rfl, rfl, behind⟩)
    · rw [if_neg isAll, if_neg isAll]
      exact .inr (.inl ⟨rfl, rfl⟩)

/-- Both texts go on with the same kind or neither does, unless the first is unfinished. -/
theorem Followed.kind? (followed : Followed tail text other) :
    Unfinished tail text ∨
      Followed tail (RuleText.skipBlanks text) (RuleText.skipBlanks other) ∧
        ((RuleText.kind? text = none ∧ RuleText.kind? other = none) ∨
          ∃ kind rest otherRest, RuleText.kind? text = some (kind, rest) ∧
            RuleText.kind? other = some (kind, otherRest) ∧ Followed tail rest otherRest) := by
  rcases followed.word? with unfinished | ⟨starts, ⟨missing, otherMissing⟩ |
    ⟨word, rest, otherRest, found, otherFound, behind⟩⟩
  · exact .inl unfinished
  · refine .inr ⟨starts, .inl ⟨?_, ?_⟩⟩
    · rw [RuleText.kind?, missing]
      rfl
    · rw [RuleText.kind?, otherMissing]
      rfl
  · refine .inr ⟨starts, ?_⟩
    cases named : PolicyKind.ofKeyword? word with
    | some kind =>
      exact .inr ⟨kind, rest, otherRest, kind?_eq_some_iff.mpr ⟨word, found, named⟩,
        kind?_eq_some_iff.mpr ⟨word, otherFound, named⟩, behind⟩
    | none =>
      refine .inl ⟨?_, ?_⟩
      · simp [RuleText.kind?, found, named]
      · simp [RuleText.kind?, otherFound, named]

end Starts

/-! ## Tokens of faults -/

section Tokens

variable {text blanks : List Char}

theorem isWhiteSpace_of_isBlank {char : Char} (blank : isBlank char = true) :
    Text.isWhiteSpace char = true := by
  unfold isBlank at blank
  rw [Bool.or_eq_true, beq_iff_eq, beq_iff_eq] at blank
  rcases blank with rfl | rfl
  · decide
  · decide

theorem AllBlank.space (blank : AllBlank blanks) :
    ∀ char ∈ blanks, Text.isWhiteSpace char = true :=
  fun char member => isWhiteSpace_of_isBlank (blank char member)

theorem tokenAt_blanks_append (blank : AllBlank blanks) (text : List Char) :
    tokenAt (blanks ++ text) = tokenAt text := by
  rw [tokenAt, tokenAt, List.dropWhile_append_of_pos blank.space]

theorem takeWhile_append_blanks (blank : AllBlank blanks) (text : List Char) :
    (text ++ blanks).takeWhile isWordChar = text.takeWhile isWordChar := by
  induction text with
  | nil => exact takeWhile_eq_nil_of_head? blank.separated
  | cons char text ih => cases inWord : isWordChar char <;> simp [inWord, ih]

/-- Blanks behind a text are no part of its token. -/
theorem tokenAt_append_blanks (blank : AllBlank blanks) (text : List Char) :
    tokenAt (text ++ blanks) = tokenAt text := by
  rw [tokenAt, tokenAt, List.dropWhile_append]
  cases start : text.dropWhile Text.isWhiteSpace with
  | nil => rw [List.isEmpty_nil, if_pos rfl, List.dropWhile_eq_nil_iff.mpr blank.space]
  | cons char rest =>
    rw [List.isEmpty_cons, if_neg (by decide), takeWhile_append_blanks blank]
    rfl

theorem tokenAt_word {word : List Char} (inside : ∀ char ∈ word, isWordChar char = true) :
    tokenAt word = String.ofList word := by
  have visible : word.dropWhile Text.isWhiteSpace = word := by
    cases word with
    | nil => rfl
    | cons char word =>
      have inWord := inside char List.mem_cons_self
      exact List.dropWhile_cons_of_neg (by simp [isWhiteSpace_eq_false_of_isWordChar inWord])
  rw [tokenAt, visible, List.takeWhile_eq_self_iff.mpr inside]
  cases word <;> rfl

theorem tokenAt_mark (mark : Mark) (text : List Char) :
    tokenAt (mark.char :: text) = mark.char.toString := by
  have visible : (mark.char :: text).dropWhile Text.isWhiteSpace = mark.char :: text :=
    List.dropWhile_cons_of_neg (by simp)
  rw [tokenAt, visible, List.takeWhile_cons_of_neg (by simp)]
  rfl

/-- No token is left of a text only if that is white space throughout. -/
theorem tokenAt_eq_empty_iff :
    tokenAt text = "" ↔ ∀ char ∈ text, Text.isWhiteSpace char = true := by
  rw [← List.dropWhile_eq_nil_iff, tokenAt]
  cases text.dropWhile Text.isWhiteSpace with
  | nil => simp
  | cons char rest =>
    cases inWord : isWordChar char <;> simp [inWord]

end Tokens

end Circulation.RuleText
