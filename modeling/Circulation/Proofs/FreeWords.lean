import Circulation.Proofs.Rendering

/-!
Contract: words that stand free in a line, with no mark but a colon next to them.

Owns:
- that the pieces of a text are the words that stand free in it;
- that a word which stands free in a line is one of its tokens, and that a token of a line stands
  free if no mark but a colon is next to it.

Does not own: what the words of a line mean.
-/

namespace Circulation

/-! ## Pieces -/

namespace Text

variable {isBoundary : Char → Bool} {word text : List Char}

theorem pieces_eq_splitOnP (isBoundary : Char → Bool) (text : List Char) :
    pieces isBoundary text = text.splitOnP isBoundary := by
  induction text with
  | nil => simp [pieces]
  | cons char text ih =>
    obtain ⟨first, others, split⟩ :=
      List.exists_cons_of_ne_nil (List.splitOnP_ne_nil isBoundary text)
    rw [pieces, List.splitOnP_cons_eq_if_modifyHead, ih, split]
    rfl

/-- A word stands free in a text if on either side a boundary or the end of the text is next to
it. -/
def StandsFree (isBoundary : Char → Bool) (word text : List Char) : Prop :=
  ∃ before after, text = before ++ (word ++ after) ∧
    (∀ char ∈ before.getLast?, isBoundary char = true) ∧
      ∀ char ∈ after.head?, isBoundary char = true

/-- A boundary in front of a text, or of one that a boundary ends, leaves a boundary at its end. -/
theorem boundary_of_getLast?_cons {char : Char} {before : List Char}
    (boundary : before = [] → isBoundary char = true)
    (left : ∀ last ∈ before.getLast?, isBoundary last = true) :
    ∀ last ∈ (char :: before).getLast?, isBoundary last = true := by
  cases before with
  | nil => simpa using boundary rfl
  | cons next before => simpa [List.getLast?_cons_cons] using left

theorem StandsFree.append_boundary {char : Char} (free : StandsFree isBoundary word text)
    (front : List Char) (boundary : isBoundary char = true) :
    StandsFree isBoundary word (front ++ char :: text) := by
  obtain ⟨before, after, rfl, left, right⟩ := free
  refine ⟨front ++ char :: before, after, by simp, ?_, right⟩
  rw [List.getLast?_append_of_ne_nil _ (List.cons_ne_nil _ _)]
  exact boundary_of_getLast?_cons (fun _ => boundary) left

theorem standsFree_of_mem_pieces (member : word ∈ pieces isBoundary text) :
    StandsFree isBoundary word text := by
  rw [pieces_eq_splitOnP] at member
  -- A text is one piece, or it is divided at its first boundary and the rest is shorter.
  induction size : text.length using Nat.strong_induction_on generalizing text with
  | _ length ih =>
    cases found : text.find? isBoundary with
    | none =>
      have outside : ∀ char ∈ text, isBoundary char = false := by
        simpa using List.find?_eq_none.mp found
      rw [List.splitOnP_eq_singleton outside, List.mem_singleton] at member
      exact ⟨[], [], by simp [member], by simp, by simp⟩
    | some char =>
      obtain ⟨boundary, front, rest, rfl, outside⟩ := List.find?_eq_some_iff_append.mp found
      have frontOutside : ∀ char ∈ front, isBoundary char = false := by simpa using outside
      rw [List.splitOnP_append_cons _ _ boundary, List.splitOnP_eq_singleton frontOutside] at member
      rcases List.mem_append.mp member with first | later
      · exact ⟨[], char :: rest, by simp [List.mem_singleton.mp first], by simp, by simpa⟩
      · have shorter : rest.length < length := by
          rw [← size, List.length_append, List.length_cons]
          omega
        exact (ih rest.length shorter later rfl).append_boundary front boundary

theorem mem_pieces_of_standsFree (inside : ∀ char ∈ word, isBoundary char = false)
    (free : StandsFree isBoundary word text) : word ∈ pieces isBoundary text := by
  obtain ⟨before, after, rfl, left, right⟩ := free
  have atStart : word ∈ (word ++ after).splitOnP isBoundary := by
    cases after with
    | nil => simp [List.splitOnP_eq_singleton inside]
    | cons char rest =>
      rw [List.splitOnP_append_cons _ _ (right char rfl), List.splitOnP_eq_singleton inside]
      exact List.mem_append_left _ (List.mem_singleton_self _)
  rw [pieces_eq_splitOnP]
  rcases List.eq_nil_or_concat' before with rfl | ⟨front, char, rfl⟩
  · exact atStart
  · rw [List.append_assoc, List.singleton_append,
      List.splitOnP_append_cons _ _ (left char (by simp))]
    exact List.mem_append_right _ atStart

end Text

/-! ## Words of lines -/

namespace RuleText

open Text

/-- What is next to a free word of a line: white space or a colon. -/
def endsKeyword (char : Char) : Bool :=
  isWhiteSpace char || char == ':'

theorem endsKeyword_of_isBlank {char : Char} (blank : isBlank char = true) :
    endsKeyword char = true := by
  unfold isBlank at blank
  rw [Bool.or_eq_true, beq_iff_eq, beq_iff_eq] at blank
  rcases blank with rfl | rfl
  · decide
  · decide

theorem endsKeyword_eq_false_of_isWordChar {char : Char} (inWord : isWordChar char = true) :
    endsKeyword char = false := by
  rw [endsKeyword, isWhiteSpace_eq_false_of_isWordChar inWord, Bool.false_or, beq_eq_false_iff_ne]
  rintro rfl
  exact absurd inWord (by decide)

theorem isWordChar_eq_false_of_endsKeyword {char : Char} (ends : endsKeyword char = true) :
    isWordChar char = false := by
  rw [← Bool.not_eq_true]
  intro inWord
  rw [endsKeyword_eq_false_of_isWordChar inWord] at ends
  simp at ends

theorem cons_ne_word_append {word : String} (isId : IsId word) {char : Char}
    (outside : isWordChar char = false) (text after : List Char) :
    char :: text ≠ word.toList ++ after := by
  intro same
  obtain ⟨first, others, isWord⟩ := List.exists_cons_of_ne_nil isId.1
  have inside := isId.2 first (by simp [isWord])
  rw [isWord] at same
  rw [(List.cons.inj same).1, inside] at outside
  simp at outside

/-- A whole word of a line, with no word character next to it, is one of its tokens. -/
theorem Lexes.word_mem {text : List Char} {tokens : List Token} (lexes : Lexes text tokens)
    {word : String} (isId : IsId word) {before after : List Char}
    (whole : text = before ++ (word.toList ++ after))
    (left : ∀ char ∈ before.getLast?, isWordChar char = false)
    (right : ∀ char ∈ after.head?, isWordChar char = false) : .word word ∈ tokens := by
  induction lexes generalizing before with
  | nil =>
    have none := List.append_eq_nil_iff.mp (List.append_eq_nil_iff.mp whole.symm).2
    exact absurd none.1 isId.1
  | @blank char text tokens separates others ih =>
    have outside : isWordChar char = false :=
      isWordChar_eq_false_of_endsKeyword (endsKeyword_of_isBlank separates)
    rcases List.cons_eq_append_iff.mp whole with ⟨_, starts⟩ | ⟨front, rfl, others⟩
    · exact absurd starts.symm (cons_ne_word_append isId outside _ _)
    · exact ih others fun last isLast => left last (List.mem_getLast?_cons isLast)
  | @mark mark text tokens others ih =>
    rcases List.cons_eq_append_iff.mp whole with ⟨_, starts⟩ | ⟨front, rfl, others⟩
    · exact absurd starts.symm (cons_ne_word_append isId mark.isWordChar_char _ _)
    · exact List.mem_cons_of_mem _
        (ih others fun last isLast => left last (List.mem_getLast?_cons isLast))
  | @word other text tokens nonempty inside longest others ih =>
    rcases List.append_eq_append_iff.mp whole with ⟨front, rfl, rest⟩ | ⟨back, split, rest⟩
    · exact List.mem_cons_of_mem _ (ih rest fun last isLast =>
        left last (List.mem_getLast?_append_of_mem_getLast? isLast))
    · -- The word begins inside this token, so at its start, and both are as long as they can be.
      have atStart : before = [] := by
        by_contra begun
        have isLast := List.getLast?_eq_some_getLast begun
        have outside := left _ isLast
        rw [inside _ (by rw [split]; exact List.mem_append_left _ (List.getLast_mem begun))]
          at outside
        simp at outside
      rw [atStart, List.nil_append] at split
      have found : word? (word.toList ++ after) = some (word, after) :=
        word?_eq_some_iff.mpr ⟨rfl, isId.1, isId.2, right⟩
      have otherFound : word? (word.toList ++ after) = some (other, text) :=
        word?_eq_some_iff.mpr ⟨by rw [rest, split], nonempty, inside, longest⟩
      rw [otherFound] at found
      rw [(Prod.mk.inj (Option.some.inj found)).1]
      exact List.mem_cons_self

/-- A word that stands free in a line is one of its tokens. -/
theorem Lexes.word_mem_of_standsFree {text : List Char} {tokens : List Token}
    (lexes : Lexes text tokens) {word : String} (isId : IsId word)
    (free : StandsFree endsKeyword word.toList text) : .word word ∈ tokens := by
  obtain ⟨before, after, whole, left, right⟩ := free
  exact lexes.word_mem isId whole
    (fun char isLast => isWordChar_eq_false_of_endsKeyword (left char isLast))
    (fun char isHead => isWordChar_eq_false_of_endsKeyword (right char isHead))

/-! ## Tokens that stand free -/

/-- A token next to which a word stands free: a word or a colon. -/
def Token.Apart (token : Token) : Prop :=
  ∀ mark, token = .mark mark → mark = .colon

/-- What follows a word ends it if no mark but a colon comes next. -/
theorem Lexes.endsKeyword_of_head? {text : List Char} {tokens : List Token}
    (lexes : Lexes text tokens) (longest : ∀ char ∈ text.head?, isWordChar char = false)
    (apart : ∀ token ∈ tokens.head?, token.Apart) : ∀ char ∈ text.head?, endsKeyword char = true := by
  intro char isHead
  cases lexes with
  | nil => simp at isHead
  | blank separates others =>
    rw [← Option.some.inj isHead]
    exact endsKeyword_of_isBlank separates
  | @mark mark text tokens others =>
    rw [← Option.some.inj isHead, apart (.mark mark) rfl mark rfl]
    decide
  | @word word text tokens nonempty inside further others =>
    have outside := longest char isHead
    rw [inside char (List.mem_of_mem_head? (by
      rwa [List.head?_append_of_ne_nil _ nonempty] at isHead))] at outside
    simp at outside

/-- A word stands free in a line if no mark but a colon is next to it among the tokens. -/
theorem Lexes.exists_free {text : List Char} {tokens : List Token} (lexes : Lexes text tokens)
    {word : String} {before after : List Token} (whole : tokens = before ++ .word word :: after)
    (left : ∀ token ∈ before.getLast?, token.Apart) (right : ∀ token ∈ after.head?, token.Apart) :
    ∃ front back, text = front ++ (word.toList ++ back) ∧
      (∀ char ∈ front.getLast?, endsKeyword char = true) ∧
      (∀ char ∈ back.head?, endsKeyword char = true) ∧ (front = [] → before = []) := by
  have isId : IsId word := lexes.wordsAreIds word (by simp [whole])
  induction lexes generalizing before with
  | nil => simp at whole
  | @blank char text tokens separates others ih =>
    obtain ⟨front, back, rfl, freeLeft, freeRight, _⟩ := ih whole left
    exact ⟨char :: front, back, rfl,
      boundary_of_getLast?_cons (fun _ => endsKeyword_of_isBlank separates) freeLeft, freeRight,
      fun empty => absurd empty (List.cons_ne_nil _ _)⟩
  | @mark mark text tokens others ih =>
    rcases List.cons_eq_append_iff.mp whole with ⟨_, starts⟩ | ⟨between, rfl, rest⟩
    · simp at starts
    · obtain ⟨front, back, rfl, freeLeft, freeRight, atStart⟩ :=
        ih rest fun token isLast => left token (List.mem_getLast?_cons isLast)
      refine ⟨mark.char :: front, back, rfl, boundary_of_getLast?_cons ?_ freeLeft, freeRight,
        fun empty => absurd empty (List.cons_ne_nil _ _)⟩
      intro adjacent
      rw [left (.mark mark) (by simp [atStart adjacent]) mark rfl]
      decide
  | @word other text tokens nonempty inside longest others ih =>
    rcases List.cons_eq_append_iff.mp whole with ⟨rfl, starts⟩ | ⟨between, rfl, rest⟩
    · obtain ⟨sameWord, rfl⟩ := List.cons.inj starts
      rw [Token.word.inj sameWord]
      exact ⟨[], text, rfl, by simp, others.endsKeyword_of_head? longest right, fun _ => rfl⟩
    · obtain ⟨front, back, rfl, freeLeft, freeRight, _⟩ :=
        ih rest fun token isLast => left token (List.mem_getLast?_cons isLast)
      -- Two words next to each other have a blank between them.
      have begun : front ≠ [] := by
        rintro rfl
        obtain ⟨first, further, isWord⟩ := List.exists_cons_of_ne_nil isId.1
        have outside := longest first (by simp [isWord])
        rw [isId.2 first (by simp [isWord])] at outside
        simp at outside
      refine ⟨other.toList ++ front, back, by simp, ?_, freeRight, ?_⟩
      · rwa [List.getLast?_append_of_ne_nil _ begun]
      · intro empty
        exact absurd (List.append_eq_nil_iff.mp empty).1 nonempty

theorem Lexes.standsFree {text : List Char} {tokens before after : List Token} {word : String}
    (lexes : Lexes text tokens) (whole : tokens = before ++ .word word :: after)
    (left : ∀ token ∈ before.getLast?, token.Apart) (right : ∀ token ∈ after.head?, token.Apart) :
    StandsFree endsKeyword word.toList text := by
  obtain ⟨front, back, split, freeLeft, freeRight, _⟩ := lexes.exists_free whole left right
  exact ⟨front, back, split, freeLeft, freeRight⟩

end RuleText

end Circulation
