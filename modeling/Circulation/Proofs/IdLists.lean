import Circulation.Proofs.Writing
import Mathlib

/-!
Contract: how far a list of ids reaches.

Owns:
- the texts that are lists of ids, as characters;
- the words of a text, in order;
- that the longest list of ids at the start of a text is read, with all of its words, and that what
  is left cannot be added to it.

Does not own: what may follow a list of ids in a line.

Reading a list goes too far before it stops: it skips blanks and a comma and finds no word behind
them. What it leaves begins in front of these blanks.
-/

namespace Circulation.RuleText

/-! ## Lists of ids -/

/-- `blanks ","? blanks` -/
inductive IdSeparator : List Char → Prop where
  | blanks {blanks : List Char} (blank : AllBlank blanks) : IdSeparator blanks
  | comma {before after : List Char} (blankBefore : AllBlank before)
      (blankAfter : AllBlank after) : IdSeparator (before ++ ',' :: after)

/-- `(blanks ","? blanks id)*` -/
inductive MoreIdsText : List Char → Prop where
  | done : MoreIdsText []
  | next {separator more : List Char} {id : String} (separates : IdSeparator separator)
      (isId : IsId id) (others : MoreIdsText more) : MoreIdsText (separator ++ (id.toList ++ more))

/-- `blanks id (blanks ","? blanks id)*` -/
inductive IdsText : List Char → Prop where
  | first {blanks more : List Char} {id : String} (blank : AllBlank blanks) (isId : IsId id)
      (others : MoreIdsText more) : IdsText (blanks ++ (id.toList ++ more))

theorem IdSeparator.of_append {front back : List Char} (separates : IdSeparator (front ++ back)) :
    IdSeparator back := by
  generalize whole : front ++ back = text at separates
  cases separates with
  | blanks blank =>
    rw [← whole, allBlank_append_iff] at blank
    exact .blanks blank.2
  | @comma before after blankBefore blankAfter =>
    rcases List.append_eq_append_iff.mp whole with ⟨rest, rfl, rfl⟩ | ⟨rest, rfl, same⟩
    · exact .comma (allBlank_append_iff.mp blankBefore).2 blankAfter
    · rcases List.cons_eq_append_iff.mp same with ⟨rfl, rfl⟩ | ⟨further, rfl, rfl⟩
      · exact @comma [] after allBlank_nil blankAfter
      · exact .blanks (allBlank_append_iff.mp blankAfter).2

/-- The longest list of ids with which a text begins. -/
structure LongestIds (text consumed : List Char) : Prop where
  begins : consumed <+: text
  listed : IdsText consumed
  longest : ∀ other, other <+: text → IdsText other → other.length ≤ consumed.length

/-- A text with which no list of ids goes on. -/
def EndsList (text : List Char) : Prop :=
  ∀ separator char others, IdSeparator separator → text = separator ++ char :: others →
    isWordChar char = false

/-- A character that no word has. -/
def isGap (char : Char) : Bool :=
  !isWordChar char

/-- The runs of word characters in a text, each as long as it can be. -/
def wordsOf (text : List Char) : List String :=
  ((text.splitOnP isGap).filter fun run => !run.isEmpty).map String.ofList

/-! ## Separators -/

theorem IdSeparator.isWordChar_eq_false {separator : List Char}
    (separates : IdSeparator separator) :
    ∀ char ∈ separator, isWordChar char = false := by
  intro char member
  cases separates with
  | blanks blank => exact isWordChar_eq_false_of_isBlank (blank char member)
  | comma blankBefore blankAfter =>
    rcases List.mem_append.mp member with before | behind
    · exact isWordChar_eq_false_of_isBlank (blankBefore char before)
    · rcases List.mem_cons.mp behind with rfl | after
      · decide
      · exact isWordChar_eq_false_of_isBlank (blankAfter char after)

theorem exists_append_skipSeparator (text : List Char) :
    ∃ separator, IdSeparator separator ∧ text = separator ++ skipSeparator text := by
  obtain ⟨before, blankBefore, whole⟩ := exists_append_skipBlanks text
  unfold skipSeparator
  split
  · next rest begins =>
    obtain ⟨after, blankAfter, wholeRest⟩ := exists_append_skipBlanks rest
    refine ⟨before ++ ',' :: after, .comma blankBefore blankAfter, ?_⟩
    rw [List.append_assoc, List.cons_append, ← wholeRest, ← begins, ← whole]
  · exact ⟨before, .blanks blankBefore, whole⟩

theorem skipSeparator_append {separator : List Char} (separates : IdSeparator separator)
    {char : Char} (inWord : isWordChar char = true) (others : List Char) :
    skipSeparator (separator ++ char :: others) = char :: others := by
  have begins : skipBlanks (char :: others) = char :: others :=
    skipBlanks_cons_of_not_blank others (isBlank_eq_false_of_isWordChar inWord)
  cases separates with
  | blanks blank =>
    rw [skipSeparator, skipBlanks_append_of_blank blank, begins]
    split
    · next same =>
      obtain ⟨rfl, _⟩ := List.cons.inj same
      exact absurd inWord (by decide)
    · rfl
  | comma blankBefore blankAfter =>
    have comma : isBlank ',' = false := by decide
    rw [skipSeparator, List.append_assoc, skipBlanks_append_of_blank blankBefore, List.cons_append,
      skipBlanks_cons_of_not_blank _ comma]
    show skipBlanks _ = _
    rw [skipBlanks_append_of_blank blankAfter, begins]

/-! ## Words -/

theorem Separated.of_append {front back : List Char} (separated : Separated (front ++ back)) :
    Separated front := by
  intro char isHead
  exact separated char (List.mem_head?_append_of_mem_head? isHead)

theorem wordsOf_append {front : List Char} (outside : ∀ char ∈ front, isWordChar char = false)
    (text : List Char) : wordsOf (front ++ text) = wordsOf text := by
  induction front with
  | nil => rfl
  | cons char front ih =>
    rw [List.forall_mem_cons] at outside
    have gap : isGap char = true := by simp [isGap, outside.1]
    rw [← ih outside.2, wordsOf, List.cons_append, List.splitOnP_cons_eq_if_modifyHead, if_pos gap]
    rfl

theorem wordsOf_word_append {id : String} (isId : IsId id) {text : List Char}
    (separated : Separated text) : wordsOf (id.toList ++ text) = id :: wordsOf text := by
  have single : id.toList.splitOnP isGap = [id.toList] :=
    List.splitOnP_eq_singleton (by simpa [isGap] using isId.2)
  cases text with
  | nil => simp [wordsOf, single, isId.1]
  | cons char text =>
    have gap : isGap char = true := by simp [isGap, separated char rfl]
    have outside : ∀ other ∈ [char], isWordChar other = false := by simpa using separated char rfl
    have rest : wordsOf (char :: text) = wordsOf text := wordsOf_append outside text
    rw [rest, wordsOf, List.splitOnP_append_cons _ _ gap, single]
    simp [wordsOf, isId.1]

/-! ## Reading the longest list -/

theorem IdsText.more {text : List Char} (listed : IdsText text) : MoreIdsText text := by
  cases listed with
  | first blank isId others => exact .next (.blanks blank) isId others

/-- Past its blanks a list of ids begins with a word character. -/
theorem IdsText.exists_begin {text : List Char} (listed : IdsText text) (rest : List Char) :
    ∃ blanks char others, AllBlank blanks ∧ isWordChar char = true ∧
      text ++ rest = blanks ++ char :: others := by
  cases listed with
  | @first blanks more id blank isId others =>
    obtain ⟨char, word, isWord⟩ := List.exists_cons_of_ne_nil isId.1
    exact ⟨blanks, char, word ++ more ++ rest, blank, isId.2 char (by simp [isWord]),
      by simp [isWord]⟩

/-- The last character of a text, if it has one, is a character of words. -/
def EndsInWord (text : List Char) : Prop :=
  ∀ char ∈ text.getLast?, isWordChar char = true

theorem MoreIdsText.endsInWord {text : List Char} (listed : MoreIdsText text) :
    EndsInWord text := by
  induction listed with
  | done => simp [EndsInWord]
  | @next separator more id separates isId others ih =>
    rw [EndsInWord, List.getLast?_append_of_ne_nil _ (by simp [isId.1])]
    cases more with
    | nil =>
      rw [List.append_nil]
      intro char isLast
      exact isId.2 char (List.mem_of_getLast? isLast)
    | cons char more =>
      rw [List.getLast?_append_of_ne_nil _ (List.cons_ne_nil _ _)]
      exact ih

theorem not_endsList {separator : List Char} (separates : IdSeparator separator) {id : String}
    (isId : IsId id) (more : List Char) : ¬EndsList (separator ++ (id.toList ++ more)) := by
  obtain ⟨first, others, word⟩ := List.exists_cons_of_ne_nil isId.1
  intro ends
  have outside := ends separator first (others ++ more) separates (by rw [word, List.cons_append])
  rw [isId.2 first (by simp [word])] at outside
  simp at outside

theorem not_endsList_of_word {word : List Char} (nonempty : word ≠ [])
    (inside : ∀ char ∈ word, isWordChar char = true) (more : List Char) :
    ¬EndsList (word ++ more) := by
  have isId : IsId (String.ofList word) := by simpa [IsId] using ⟨nonempty, inside⟩
  simpa using not_endsList (.blanks allBlank_nil) isId more

/-- Wherever a list of ids is divided behind a word, the list goes on with what is left. -/
theorem MoreIdsText.not_endsList {text : List Char} (listed : MoreIdsText text)
    {front back : List Char} (whole : text = front ++ back) (ends : EndsInWord front)
    (nonempty : back ≠ []) : ¬EndsList back := by
  induction listed generalizing front with
  | done => exact absurd (List.append_eq_nil_iff.mp whole.symm).2 nonempty
  | @next separator more id separates isId others ih =>
    rcases List.append_eq_append_iff.mp whole with ⟨behind, rfl, rest⟩ | ⟨inside, rfl, rfl⟩
    · -- The division lies behind the separator: in the ids that follow the first, or inside that.
      have behindEnds : EndsInWord behind := fun char isLast =>
        ends char (List.mem_getLast?_append_of_mem_getLast? isLast)
      rcases List.append_eq_append_iff.mp rest with ⟨later, rfl, moreRest⟩ | ⟨part, word, rfl⟩
      · exact ih moreRest fun char isLast =>
          behindEnds char (List.mem_getLast?_append_of_mem_getLast? isLast)
      · by_cases atEnd : part = []
        · subst atEnd
          have unended : EndsInWord [] := by simp [EndsInWord]
          exact ih (by simp) unended
        · apply not_endsList_of_word atEnd
          intro char member
          exact isId.2 char (word ▸ List.mem_append_right _ member)
    · -- No word ends inside the separator, so the division lies in front of it.
      by_cases atStart : front = []
      · subst atStart
        exact RuleText.not_endsList separates isId more
      · have isLast := List.getLast?_eq_some_getLast atStart
        have outside := separates.isWordChar_eq_false (front.getLast atStart)
          (List.mem_append_left _ (List.getLast_mem atStart))
        rw [ends _ isLast] at outside
        simp at outside

/-- A list of ids with which no other goes on is the longest. -/
theorem longestIds_of_endsList {consumed rest : List Char} (listed : IdsText consumed)
    (ends : EndsList rest) : LongestIds (consumed ++ rest) consumed := by
  refine ⟨List.prefix_append consumed rest, listed, ?_⟩
  intro other begins otherListed
  by_contra longer
  obtain ⟨back, rfl⟩ := List.prefix_of_prefix_length_le (List.prefix_append consumed rest) begins
    (by omega)
  have nonempty : back ≠ [] := by
    rintro rfl
    simp at longer
  apply otherListed.more.not_endsList rfl listed.more.endsInWord nonempty
  intro separator char others separates whole
  obtain ⟨behind, same⟩ := (List.prefix_append_right_inj consumed).mp begins
  exact ends separator char (others ++ behind) separates (by simp [← same, whole])

theorem endsList_of_word?_eq_none {text : List Char} (missing : word? (skipSeparator text) = none) :
    EndsList text := by
  intro separator char others separates whole
  cases inWord : isWordChar char with
  | false => rfl
  | true =>
    rw [whole, skipSeparator_append separates inWord, word?_eq_none_iff] at missing
    simp [missing char rfl] at inWord

/-- The ids that are read are the words of a list, and no list goes on with what is left. -/
theorem exists_readMoreIds (text : List Char) :
    ∃ consumed, text = consumed ++ (readMoreIds text).2 ∧ MoreIdsText consumed ∧
      wordsOf consumed = (readMoreIds text).1 ∧ EndsList (readMoreIds text).2 := by
  fun_induction readMoreIds text with
  | case1 text missing => exact ⟨[], rfl, .done, rfl, endsList_of_word?_eq_none missing⟩
  | case2 text id rest found ids final more ih =>
    obtain ⟨consumed, whole, listed, words, ends⟩ := ih
    rw [more] at whole words ends
    obtain ⟨separator, separates, split⟩ := exists_append_skipSeparator text
    obtain ⟨begins, nonempty, inside, separated⟩ := word?_eq_some_iff.mp found
    refine ⟨separator ++ (id.toList ++ consumed), ?_, .next separates ⟨nonempty, inside⟩ listed, ?_,
      ends⟩
    · rw [split, begins, whole]
      simp
    · have consumedSeparated : Separated consumed := Separated.of_append (whole ▸ separated)
      rw [wordsOf_append separates.isWordChar_eq_false,
        wordsOf_word_append ⟨nonempty, inside⟩ consumedSeparated, words]

theorem exists_of_readIds {text rest : List Char} {ids : List String}
    (read : readIds text = .ok (ids, rest)) :
    ∃ consumed, text = consumed ++ rest ∧ IdsText consumed ∧ wordsOf consumed = ids ∧
      EndsList rest := by
  rw [readIds] at read
  split at read
  · simp at read
  · next id afterFirst found =>
    obtain ⟨rfl, rfl⟩ := Prod.mk.inj (Except.ok.inj read)
    obtain ⟨blanks, blank, split⟩ := exists_append_skipBlanks text
    obtain ⟨begins, nonempty, inside, separated⟩ := word?_eq_some_iff.mp found
    obtain ⟨more, whole, listed, words, ends⟩ := exists_readMoreIds afterFirst
    have moreSeparated : Separated more := Separated.of_append (whole ▸ separated)
    refine ⟨blanks ++ (id.toList ++ more), ?_, .first blank ⟨nonempty, inside⟩ listed, ?_, ends⟩
    · simp only [List.append_assoc]
      rw [← whole, ← begins, ← split]
    · rw [wordsOf_append (IdSeparator.blanks blank).isWordChar_eq_false,
        wordsOf_word_append ⟨nonempty, inside⟩ moreSeparated, words]

theorem exists_readIds_iff {text : List Char} :
    (∃ ids rest, readIds text = .ok (ids, rest)) ↔
      ∃ blanks char others, AllBlank blanks ∧ isWordChar char = true ∧
        text = blanks ++ char :: others := by
  constructor
  · rintro ⟨ids, rest, read⟩
    obtain ⟨consumed, rfl, listed, _, _⟩ := exists_of_readIds read
    exact listed.exists_begin rest
  · rintro ⟨blanks, char, others, blank, inWord, rfl⟩
    have begins : skipBlanks (blanks ++ char :: others) = char :: others := by
      rw [skipBlanks_append_of_blank blank,
        skipBlanks_cons_of_not_blank others (isBlank_eq_false_of_isWordChar inWord)]
    rw [readIds, begins]
    split
    · next missing => simp [word?_eq_none_iff.mp missing char rfl] at inWord
    · exact ⟨_, _, rfl⟩

theorem LongestIds.unique {text consumed other : List Char} (longest : LongestIds text consumed)
    (otherLongest : LongestIds text other) : consumed = other := by
  have shorter := longest.longest other otherLongest.begins otherLongest.listed
  have notShorter := otherLongest.longest consumed longest.begins longest.listed
  exact (List.prefix_of_prefix_length_le longest.begins otherLongest.begins notShorter).eq_of_length
    (by omega)

/-- Ids are read from a text exactly if a word character follows its blanks. The longest list of ids
with which the text begins is taken, and the ids are its words in order. What is left begins with no
word character, nor with blanks, at most one comma, and blanks in front of a word character. -/
theorem readIds_takes_longest (text : List Char) :
    ((∃ ids rest, readIds text = .ok (ids, rest)) ↔
      ∃ blanks char others, AllBlank blanks ∧ isWordChar char = true ∧
        text = blanks ++ char :: others) ∧
    ∀ ids rest,
      (readIds text = .ok (ids, rest) ↔
        ∃ consumed, text = consumed ++ rest ∧ LongestIds text consumed ∧ wordsOf consumed = ids) ∧
      (readIds text = .ok (ids, rest) → Separated rest ∧ EndsList rest) := by
  refine ⟨exists_readIds_iff, ?_⟩
  intro ids rest
  refine ⟨⟨?_, ?_⟩, ?_⟩
  · intro read
    obtain ⟨consumed, rfl, listed, words, ends⟩ := exists_of_readIds read
    exact ⟨consumed, rfl, longestIds_of_endsList listed ends, words⟩
  · rintro ⟨consumed, rfl, longest, rfl⟩
    -- Something is read, and that is the longest list as well.
    obtain ⟨ids, left, read⟩ := exists_readIds_iff.mpr (longest.listed.exists_begin rest)
    obtain ⟨taken, whole, listed, rfl, ends⟩ := exists_of_readIds read
    have takenLongest : LongestIds (consumed ++ rest) taken := by
      rw [whole]
      exact longestIds_of_endsList listed ends
    obtain rfl := longest.unique takenLongest
    rw [read, List.append_cancel_left whole]
  · intro read
    obtain ⟨consumed, _, _, _, ends⟩ := exists_of_readIds read
    refine ⟨?_, ends⟩
    intro char isHead
    obtain ⟨others, rfl⟩ := List.head?_eq_some_iff.mp (Option.mem_def.mp isHead)
    exact ends [] char others (.blanks allBlank_nil) rfl

/-- Ids with both separators in front of a comma too many. -/
def doubledComma : List Char :=
  "\ta,b  not , c ,, d".toList

theorem readIds_takes_longest_doubledComma :
    readIds doubledComma = .ok (["a", "b", "not", "c"], " ,, d".toList) ∧
      (∃ consumed, doubledComma = consumed ++ " ,, d".toList ∧ LongestIds doubledComma consumed ∧
        wordsOf consumed = ["a", "b", "not", "c"]) ∧
      EndsList " ,, d".toList := by
  have read : readIds doubledComma = .ok (["a", "b", "not", "c"], " ,, d".toList) := by cbv
  obtain ⟨taken, ends⟩ := (readIds_takes_longest doubledComma).2 _ _
  exact ⟨read, taken.mp read, (ends read).2⟩

end Circulation.RuleText
