import Circulation.RuleText.Word
import Mathlib.Data.List.TakeWhile

/-!
Contract: lines of rule text as words and marks.

Owns:
- the tokens of a line, and which tokens a text consists of;
- that a text consists of tokens exactly if a word, a mark or nothing is found past its blanks and
  the text after that consists of the others, which makes it decidable.

Does not own: how tokens follow one another in a line.
-/

namespace Circulation.RuleText

/-! ## Tokens -/

/-- The characters that stand by themselves. -/
inductive Mark where
  | exclamation
  | opening
  | closing
  | comma
  | plus
  | colon
deriving DecidableEq, Repr

/-- A mark as it is written. -/
def Mark.char : Mark → Char
  | exclamation => '!'
  | opening => '('
  | closing => ')'
  | comma => ','
  | plus => '+'
  | colon => ':'

/-- A part of a line that is not divided any further. -/
inductive Token where
  | word (word : String)
  | mark (mark : Mark)
deriving DecidableEq, Repr

/-- What a text consists of. Blanks may stand anywhere between tokens, and a word is as long as it
can be; a text with any other character consists of no tokens. -/
inductive Lexes : List Char → List Token → Prop where
  | nil : Lexes [] []
  | blank {char : Char} {text : List Char} {tokens : List Token}
      (separates : isBlank char = true) (others : Lexes text tokens) :
      Lexes (char :: text) tokens
  | mark {mark : Mark} {text : List Char} {tokens : List Token} (others : Lexes text tokens) :
      Lexes (mark.char :: text) (.mark mark :: tokens)
  | word {word : String} {text : List Char} {tokens : List Token} (nonempty : word.toList ≠ [])
      (inside : ∀ char ∈ word.toList, isWordChar char = true)
      (longest : ∀ char ∈ text.head?, isWordChar char = false) (others : Lexes text tokens) :
      Lexes (word.toList ++ text) (.word word :: tokens)

/-! ## Characters -/

theorem Mark.char_injective {mark other : Mark} (same : mark.char = other.char) :
    mark = other := by
  cases mark <;> cases other <;> first | rfl | exact absurd same (by decide)

@[simp] theorem Mark.isBlank_char (mark : Mark) : isBlank mark.char = false := by
  cases mark <;> decide

@[simp] theorem Mark.isWordChar_char (mark : Mark) : isWordChar mark.char = false := by
  cases mark <;> decide

theorem isBlank_eq_false_of_isWordChar {char : Char} (inWord : isWordChar char = true) :
    isBlank char = false := by
  rw [← Bool.not_eq_true]
  intro blank
  unfold isBlank at blank
  rw [Bool.or_eq_true, beq_iff_eq, beq_iff_eq] at blank
  rcases blank with rfl | rfl
  · exact absurd inWord (by decide)
  · exact absurd inWord (by decide)

theorem isWordChar_eq_false_of_isBlank {char : Char} (blank : isBlank char = true) :
    isWordChar char = false := by
  cases inWord : isWordChar char with
  | false => rfl
  | true => simp [isBlank_eq_false_of_isWordChar inWord] at blank

/-! ## Blanks -/

/-- A text of blanks. -/
def AllBlank (text : List Char) : Prop :=
  ∀ char ∈ text, isBlank char = true

@[simp] theorem allBlank_nil : AllBlank [] := by
  simp [AllBlank]

@[simp] theorem allBlank_append_iff {front back : List Char} :
    AllBlank (front ++ back) ↔ AllBlank front ∧ AllBlank back :=
  List.forall_mem_append

theorem skipBlanks_cons_of_blank {char : Char} (text : List Char) (blank : isBlank char = true) :
    skipBlanks (char :: text) = skipBlanks text :=
  List.dropWhile_cons_of_pos blank

theorem skipBlanks_cons_of_not_blank {char : Char} (text : List Char)
    (notBlank : isBlank char = false) : skipBlanks (char :: text) = char :: text :=
  List.dropWhile_cons_of_neg (by simp [notBlank])

theorem skipBlanks_append_of_blank {blanks : List Char} (blank : AllBlank blanks)
    (text : List Char) : skipBlanks (blanks ++ text) = skipBlanks text := by
  rw [skipBlanks, List.dropWhile_append_of_pos blank, ← skipBlanks]

theorem exists_append_skipBlanks (text : List Char) :
    ∃ blanks, AllBlank blanks ∧ text = blanks ++ skipBlanks text :=
  ⟨text.takeWhile isBlank, fun _ => List.mem_takeWhile_imp,
    List.takeWhile_append_dropWhile.symm⟩

@[simp] theorem skipBlanks_skipBlanks (text : List Char) :
    skipBlanks (skipBlanks text) = skipBlanks text := by
  obtain ⟨blanks, blank, whole⟩ := exists_append_skipBlanks text
  have skipped := skipBlanks_append_of_blank blank (skipBlanks text)
  rw [← whole] at skipped
  exact skipped.symm

theorem skipBlanks_eq_nil_iff {text : List Char} : skipBlanks text = [] ↔ AllBlank text :=
  List.dropWhile_eq_nil_iff

theorem lexes_skipBlanks_iff {text : List Char} {tokens : List Token} :
    Lexes (skipBlanks text) tokens ↔ Lexes text tokens := by
  constructor
  · intro lexes
    induction text with
    | nil => exact lexes
    | cons char text ih =>
      cases blank : isBlank char with
      | true =>
        rw [skipBlanks_cons_of_blank text blank] at lexes
        exact .blank blank (ih lexes)
      | false => rwa [skipBlanks_cons_of_not_blank text blank] at lexes
  · intro lexes
    induction lexes with
    | nil => exact .nil
    | @blank char text tokens separates others ih =>
      rw [skipBlanks_cons_of_blank text separates]
      exact ih
    | @mark mark text tokens others ih =>
      rw [skipBlanks_cons_of_not_blank text mark.isBlank_char]
      exact .mark others
    | @word word text tokens nonempty inside longest others ih =>
      have started := Lexes.word nonempty inside longest others
      obtain ⟨first, further, isWord⟩ := List.exists_cons_of_ne_nil nonempty
      have inWord : isWordChar first = true := by
        apply inside first
        rw [isWord]
        exact List.mem_cons_self
      rw [isWord, List.cons_append] at started ⊢
      rwa [skipBlanks_cons_of_not_blank _ (isBlank_eq_false_of_isWordChar inWord)]

/-! ## Words -/

@[simp] theorem word?_nil : word? [] = none :=
  rfl

@[simp] theorem word?_mark (mark : Mark) (text : List Char) :
    word? (mark.char :: text) = none := by
  rw [word?, List.takeWhile_cons_of_neg (by simp)]

theorem toList_of_word? {text rest : List Char} {word : String}
    (found : word? text = some (word, rest)) : word.toList = text.takeWhile isWordChar := by
  rw [word?] at found
  split at found
  · simp at found
  · obtain ⟨rfl, _⟩ := Prod.mk.inj (Option.some.inj found)
    exact String.toList_ofList

theorem takeWhile_eq_nil_of_head? {text : List Char}
    (stops : ∀ char ∈ text.head?, isWordChar char = false) : text.takeWhile isWordChar = [] := by
  cases text with
  | nil => rfl
  | cons char text => exact List.takeWhile_cons_of_neg (by simp [stops char rfl])

/-- The word at the start of a text is the longest run of word characters there. -/
theorem word?_eq_some_iff {text rest : List Char} {word : String} :
    word? text = some (word, rest) ↔
      text = word.toList ++ rest ∧ word.toList ≠ [] ∧
        (∀ char ∈ word.toList, isWordChar char = true) ∧
          ∀ char ∈ rest.head?, isWordChar char = false := by
  have whole : text.takeWhile isWordChar ++ text.dropWhile isWordChar = text :=
    List.takeWhile_append_dropWhile
  constructor
  · intro found
    rw [word?] at found
    split at found
    · simp at found
    · next nonempty =>
      obtain ⟨rfl, rfl⟩ := Prod.mk.inj (Option.some.inj found)
      rw [String.toList_ofList]
      refine ⟨whole.symm, nonempty, ?_, ?_⟩
      · intro char member
        exact List.mem_takeWhile_imp member
      · intro char isHead
        have stops := List.head?_dropWhile_not isWordChar text
        rw [Option.mem_def.mp isHead] at stops
        exact stops
  · rintro ⟨rfl, nonempty, inside, longest⟩
    have taken : (word.toList ++ rest).takeWhile isWordChar = word.toList := by
      rw [List.takeWhile_append_of_pos inside, takeWhile_eq_nil_of_head? longest, List.append_nil]
    have dropped : (word.toList ++ rest).dropWhile isWordChar = rest := by
      rw [taken] at whole
      exact List.append_cancel_left whole
    rw [word?, taken, dropped]
    split
    · next isEmpty => exact absurd isEmpty nonempty
    · rw [String.ofList_toList]

theorem word?_eq_none_iff {text : List Char} :
    word? text = none ↔ ∀ char ∈ text.head?, isWordChar char = false := by
  rw [word?]
  cases text with
  | nil => simp
  | cons char text => cases inWord : isWordChar char <;> simp [inWord]

/-! ## Reading tokens one by one -/

theorem isBlank_of_skipBlanks {text rest : List Char} {char : Char}
    (skipped : skipBlanks text = char :: rest) : isBlank char = false := by
  have stops := List.head?_dropWhile_not isBlank text
  rw [← skipBlanks, skipped] at stops
  exact stops

theorem lexes_nil_iff {text : List Char} : Lexes text [] ↔ skipBlanks text = [] := by
  rw [← lexes_skipBlanks_iff]
  constructor
  · intro lexes
    generalize skipped : skipBlanks text = start at lexes
    cases lexes with
    | nil => rfl
    | blank separates => simp [isBlank_of_skipBlanks skipped] at separates
  · intro nothing
    rw [nothing]
    exact .nil

theorem lexes_mark_iff {text : List Char} {mark : Mark} {tokens : List Token} :
    Lexes text (.mark mark :: tokens) ↔
      ∃ rest, skipBlanks text = mark.char :: rest ∧ Lexes rest tokens := by
  rw [← lexes_skipBlanks_iff]
  constructor
  · intro lexes
    generalize skipped : skipBlanks text = start at lexes
    cases lexes with
    | blank separates => simp [isBlank_of_skipBlanks skipped] at separates
    | mark others => exact ⟨_, rfl, others⟩
  · rintro ⟨rest, begins, others⟩
    rw [begins]
    exact .mark others

theorem lexes_word_iff {text : List Char} {word : String} {tokens : List Token} :
    Lexes text (.word word :: tokens) ↔
      ∃ rest, word? (skipBlanks text) = some (word, rest) ∧ Lexes rest tokens := by
  rw [← lexes_skipBlanks_iff]
  constructor
  · intro lexes
    generalize skipped : skipBlanks text = start at lexes
    cases lexes with
    | blank separates => simp [isBlank_of_skipBlanks skipped] at separates
    | word nonempty inside longest others =>
      exact ⟨_, word?_eq_some_iff.mpr ⟨rfl, nonempty, inside, longest⟩, others⟩
  · rintro ⟨rest, found, others⟩
    obtain ⟨whole, nonempty, inside, longest⟩ := word?_eq_some_iff.mp found
    rw [whole]
    exact .word nonempty inside longest others

instance decidableLexes : (text : List Char) → (tokens : List Token) → Decidable (Lexes text tokens)
  | text, [] => decidable_of_iff (skipBlanks text = []) lexes_nil_iff.symm
  | text, .mark mark :: tokens =>
      have : DecidablePred fun rest => Lexes rest tokens := fun rest => decidableLexes rest tokens
      decidable_of_iff
        (∃ rest ∈ (skipBlanks text).tail?,
          skipBlanks text = mark.char :: rest ∧ Lexes rest tokens) <| by
        rw [lexes_mark_iff]
        constructor
        · rintro ⟨rest, _, begins, others⟩
          exact ⟨rest, begins, others⟩
        · rintro ⟨rest, begins, others⟩
          exact ⟨rest, by simp [begins], begins, others⟩
  | text, .word word :: tokens =>
      have : DecidablePred fun rest => Lexes rest tokens := fun rest => decidableLexes rest tokens
      decidable_of_iff
        (∃ found ∈ word? (skipBlanks text), found.1 = word ∧ Lexes found.2 tokens) <| by
        rw [lexes_word_iff]
        constructor
        · rintro ⟨⟨_, rest⟩, found, rfl, others⟩
          exact ⟨rest, found, others⟩
        · rintro ⟨rest, found, others⟩
          exact ⟨(word, rest), found, rfl, others⟩

end Circulation.RuleText
