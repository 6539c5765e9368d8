import Circulation.Proofs.FreeWords
import Circulation.Proofs.Unambiguity

/-!
Contract: the words of a line, and what each of them is there.

Owns:
- the keywords of facets and kinds, each in its two spellings;
- that the spelling which a line is taken to use is the long one exactly if that stands free in it;
- that every word of a line is a keyword that introduces something, an id, or one of the few others;
- that the keywords of kinds stand free wherever they introduce one.

Does not own: lines that introduce something more than once.
-/

namespace Circulation

open RuleText

/-! ## Keywords -/

/-- What a keyword of a line is for. -/
inductive Keyword where
  | ofFacet (facet : Facet)
  | ofKind (kind : PolicyKind)
deriving DecidableEq, Repr

namespace Keyword

def spelling : Keyword → Bool → String
  | .ofFacet facet, long => facet.spelling long
  | .ofKind kind, long => kind.spelling long

/-- The spelling that a line is taken to use. -/
def spellingIn (keyword : Keyword) (line : List Char) : String :=
  match keyword with
  | .ofFacet facet => RuleText.spellingIn line facet.keyword facet.letter
  | .ofKind kind => RuleText.spellingIn line kind.keyword kind.letter

/-- A spelling shows what it is for and whether it is the long one. -/
theorem spelling_inj {keyword other : Keyword} {long otherLong : Bool}
    (same : keyword.spelling long = other.spelling otherLong) :
    keyword = other ∧ long = otherLong := by
  have apart : ∀ facet ∈ Facet.all, ∀ kind ∈ PolicyKind.all, ∀ long otherLong,
      facet.spelling long ≠ kind.spelling otherLong := by decide
  cases keyword with
  | ofFacet facet =>
    cases other with
    | ofFacet otherFacet =>
      obtain ⟨rfl, rfl⟩ := Facet.spelling_inj same
      exact ⟨rfl, rfl⟩
    | ofKind kind => exact absurd same (apart facet facet.mem_all kind kind.mem_all _ _)
  | ofKind kind =>
    cases other with
    | ofFacet facet => exact absurd same.symm (apart facet facet.mem_all kind kind.mem_all _ _)
    | ofKind otherKind =>
      obtain ⟨rfl, rfl⟩ := PolicyKind.spelling_inj same
      exact ⟨rfl, rfl⟩

/-- The words of lines that are neither keywords of facets and kinds nor ids. -/
def reserved : List String :=
  ["all", "not", "fallback-policy"]

/-- Every spelling of a keyword is a word of its own. -/
theorem isId_spelling (keyword : Keyword) (long : Bool) :
    IsId (keyword.spelling long) ∧ keyword.spelling long ∉ reserved := by
  have facets : ∀ facet ∈ Facet.all, ∀ long,
      IsId (facet.spelling long) ∧ facet.spelling long ∉ reserved := by decide
  have kinds : ∀ kind ∈ PolicyKind.all, ∀ long,
      IsId (kind.spelling long) ∧ kind.spelling long ∉ reserved := by decide
  cases keyword with
  | ofFacet facet => exact facets facet facet.mem_all long
  | ofKind kind => exact kinds kind kind.mem_all long

/-- The long keyword is reported if it stands free in the line, and the letter if not. -/
theorem spellingIn_eq (keyword : Keyword) (line : List Char) :
    (Text.StandsFree endsKeyword (keyword.spelling true).toList line →
      keyword.spellingIn line = keyword.spelling true) ∧
    (¬Text.StandsFree endsKeyword (keyword.spelling true).toList line →
      keyword.spellingIn line = keyword.spelling false) := by
  have chosen : keyword.spellingIn line =
      keyword.spelling ((Text.pieces endsKeyword line).contains
        (keyword.spelling true).toList) := by
    cases keyword <;> rfl
  have inside : ∀ char ∈ (keyword.spelling true).toList, endsKeyword char = false :=
    fun char member =>
      endsKeyword_eq_false_of_isWordChar ((keyword.isId_spelling true).1.2 char member)
  rw [chosen]
  constructor
  · intro free
    rw [List.contains_iff_mem.mpr (Text.mem_pieces_of_standsFree inside free)]
  · intro notFree
    rw [Bool.eq_false_iff.mpr fun piece =>
      notFree (Text.standsFree_of_mem_pieces (List.contains_iff_mem.mp piece))]

end Keyword

/-- The facets and kinds of a statement, in order. -/
def Statement.keywords : Statement → List Keyword
  | .fallback assignments => assignments.map fun assignment => .ofKind assignment.1
  | .rule constraints assignments =>
      (constraints.map fun constraint => .ofFacet constraint.1) ++
        assignments.map fun assignment => .ofKind assignment.1

namespace RuleText

/-! ## Words of a tree -/

def SpelledConstraint.introduction (spelled : SpelledConstraint) : Keyword × Bool :=
  (.ofFacet spelled.facet, spelled.long)

def SpelledAssignment.introduction (spelled : SpelledAssignment) : Keyword × Bool :=
  (.ofKind spelled.kind, spelled.long)

def SpelledCondition.ids : SpelledCondition → List String
  | bare ids => ids.ids
  | exclaimed ids => ids.ids
  | enclosed ids => ids.ids

namespace SpelledLine

/-- The facets and kinds that a line introduces, each with whether it does so by the long keyword. -/
def introductions : SpelledLine → List (Keyword × Bool)
  | fallback assignments _ => assignments.map SpelledAssignment.introduction
  | rule constraints assignments _ =>
      constraints.map SpelledConstraint.introduction ++
        assignments.map SpelledAssignment.introduction

/-- The ids that a line lists and those of its policies. -/
def ids : SpelledLine → List String
  | fallback assignments _ => assignments.map SpelledAssignment.id
  | rule constraints assignments _ =>
      constraints.flatMap (fun spelled => spelled.condition.ids) ++
        assignments.map SpelledAssignment.id

theorem map_fst_introductions (spelled : SpelledLine) :
    spelled.introductions.map Prod.fst = spelled.statement.keywords := by
  cases spelled with
  | fallback assignments _ =>
    rw [introductions, statement, Statement.keywords, List.map_map, List.map_map]
    rfl
  | rule constraints assignments _ =>
    rw [introductions, statement, Statement.keywords, List.map_append, List.map_map, List.map_map,
      List.map_map, List.map_map]
    rfl

end SpelledLine

theorem SpelledIds.mem_of_word_tokensOfMore {more : List (Bool × String)} {word : String}
    (member : .word word ∈ tokensOfMore more) : word ∈ more.map Prod.snd := by
  induction more with
  | nil => simp [tokensOfMore] at member
  | cons entry more ih =>
    obtain ⟨comma, id⟩ := entry
    have parts : word = id ∨ .word word ∈ tokensOfMore more := by
      cases comma <;> simpa [tokensOfMore] using member
    rcases parts with rfl | later
    · exact List.mem_cons_self
    · exact List.mem_cons_of_mem _ (ih later)

theorem SpelledIds.mem_ids_of_word {spelled : SpelledIds} {word : String}
    (member : .word word ∈ spelled.tokens) : word ∈ spelled.ids := by
  rcases List.mem_cons.mp member with first | later
  · rw [Token.word.inj first]
    exact List.mem_cons_self
  · exact List.mem_cons_of_mem _ (mem_of_word_tokensOfMore later)

theorem SpelledCondition.mem_ids_or_eq_not {spelled : SpelledCondition} {word : String}
    (member : .word word ∈ spelled.tokens) : word ∈ spelled.ids ∨ word = "not" := by
  cases spelled with
  | bare ids => exact Or.inl (SpelledIds.mem_ids_of_word member)
  | exclaimed ids =>
    exact Or.inl (SpelledIds.mem_ids_of_word (by simpa [tokens] using member))
  | enclosed ids =>
    have parts : word = "not" ∨ .word word ∈ ids.tokens := by simpa [tokens] using member
    rcases parts with isNot | listed
    · exact Or.inr isNot
    · exact Or.inl (SpelledIds.mem_ids_of_word listed)

namespace SpelledConstraint

theorem exists_of_word_tokensOfMore {more : List SpelledConstraint} {word : String}
    (member : .word word ∈ tokensOfMore more) :
    ∃ spelled ∈ more, .word word ∈ spelled.tokens := by
  induction more with
  | nil => simp [tokensOfMore] at member
  | cons spelled more ih =>
    have parts : .word word ∈ spelled.tokens ∨ .word word ∈ tokensOfMore more := by
      simpa [tokensOfMore] using member
    rcases parts with here | later
    · exact ⟨spelled, List.mem_cons_self, here⟩
    · obtain ⟨other, otherMember, there⟩ := ih later
      exact ⟨other, List.mem_cons_of_mem _ otherMember, there⟩

theorem eq_all_or_exists_of_word {constraints : List SpelledConstraint} {word : String}
    (member : .word word ∈ tokensOfAll constraints) :
    word = "all" ∨ ∃ spelled ∈ constraints, .word word ∈ spelled.tokens := by
  cases constraints with
  | nil => exact Or.inl (by simpa [tokensOfAll] using member)
  | cons first more =>
    rcases List.mem_append.mp member with here | later
    · exact Or.inr ⟨first, List.mem_cons_self, here⟩
    · obtain ⟨other, otherMember, there⟩ := exists_of_word_tokensOfMore later
      exact Or.inr ⟨other, List.mem_cons_of_mem _ otherMember, there⟩

/-- A word in front of the colon is the keyword of a facet, an id, or has a meaning of its own. -/
theorem word_cases {constraints : List SpelledConstraint} {word : String}
    (member : .word word ∈ tokensOfAll constraints) :
    (∃ entry ∈ constraints.map introduction, entry.1.spelling entry.2 = word) ∨
      word ∈ constraints.flatMap (fun spelled => spelled.condition.ids) ∨
        word ∈ Keyword.reserved := by
  rcases eq_all_or_exists_of_word member with rfl | ⟨spelled, here, inside⟩
  · exact Or.inr (Or.inr (by decide))
  · rcases List.mem_cons.mp inside with keyword | demanded
    · exact Or.inl ⟨_, List.mem_map_of_mem here, (Token.word.inj keyword).symm⟩
    · rcases SpelledCondition.mem_ids_or_eq_not demanded with isId | rfl
      · exact Or.inr (Or.inl (List.mem_flatMap.mpr ⟨spelled, here, isId⟩))
      · exact Or.inr (Or.inr (by decide))

end SpelledConstraint

namespace SpelledAssignment

theorem tokensOfAll_eq_flatMap (assignments : List SpelledAssignment) :
    tokensOfAll assignments = assignments.flatMap fun spelled =>
      [.word (spelled.kind.spelling spelled.long), .word spelled.id] := by
  induction assignments with
  | nil => rfl
  | cons first more ih => rw [tokensOfAll, ih, List.flatMap_cons, List.cons_append,
      List.singleton_append]

/-- A word behind the colon is the keyword of a kind or an id. -/
theorem word_cases {assignments : List SpelledAssignment} {word : String}
    (member : .word word ∈ tokensOfAll assignments) :
    (∃ entry ∈ assignments.map introduction, entry.1.spelling entry.2 = word) ∨
      word ∈ assignments.map SpelledAssignment.id := by
  rw [tokensOfAll_eq_flatMap] at member
  obtain ⟨spelled, spelledMember, isWord⟩ := List.mem_flatMap.mp member
  rcases List.mem_pair.mp isWord with keyword | id
  · exact Or.inl ⟨_, List.mem_map_of_mem spelledMember, (Token.word.inj keyword).symm⟩
  · exact Or.inr (Token.word.inj id ▸ List.mem_map_of_mem spelledMember)

/-- Assignments consist of words only. -/
theorem apart_of_mem_tokensOfAll {assignments : List SpelledAssignment} {token : Token}
    (member : token ∈ tokensOfAll assignments) : token.Apart := by
  rw [tokensOfAll_eq_flatMap] at member
  obtain ⟨spelled, _, isWord⟩ := List.mem_flatMap.mp member
  rintro mark rfl
  simp at isWord

/-- The keyword of an assignment stands behind other assignments or a colon, and before an id. -/
theorem standsFree_spelling {line : List Char} {front : List Token}
    {assignments : List SpelledAssignment}
    (lexes : Lexes line (front ++ .mark .colon :: tokensOfAll assignments)) {kind : PolicyKind}
    {long : Bool} (introduced : (.ofKind kind, long) ∈ assignments.map introduction) :
    Text.StandsFree endsKeyword (kind.spelling long).toList line := by
  obtain ⟨spelled, member, same⟩ := List.mem_map.mp introduced
  obtain ⟨rfl, rfl⟩ : spelled.kind = kind ∧ spelled.long = long := by
    simpa [introduction] using same
  obtain ⟨before, after, rfl⟩ := List.append_of_mem member
  have whole : front ++ .mark .colon :: tokensOfAll (before ++ spelled :: after) =
      (front ++ .mark .colon :: tokensOfAll before) ++
        .word (spelled.kind.spelling spelled.long) :: .word spelled.id :: tokensOfAll after := by
    simp [tokensOfAll_eq_flatMap]
  refine lexes.standsFree whole ?_ ?_
  · rw [List.getLast?_append_of_ne_nil _ (List.cons_ne_nil _ _)]
    intro token isLast
    rcases List.mem_cons.mp (List.mem_of_mem_getLast? isLast) with rfl | earlier
    · rintro mark isColon
      exact (Token.mark.inj isColon).symm
    · exact apart_of_mem_tokensOfAll earlier
  · rintro token isNext mark rfl
    simp at isNext

end SpelledAssignment

namespace SpelledLine

/-- A word of a line is a keyword that introduces something, an id, or has a meaning of its own. -/
theorem word_cases {spelled : SpelledLine} {word : String} (member : .word word ∈ spelled.tokens) :
    (∃ entry ∈ spelled.introductions, entry.1.spelling entry.2 = word) ∨
      word ∈ spelled.ids ∨ word ∈ Keyword.reserved := by
  cases spelled with
  | fallback assignments _ =>
    rcases List.mem_cons.mp member with isFallback | member
    · rw [Token.word.inj isFallback]
      exact Or.inr (Or.inr (by decide))
    · rcases SpelledAssignment.word_cases (by simpa using member) with introduced | isId
      · exact Or.inl introduced
      · exact Or.inr (Or.inl isId)
  | rule constraints assignments _ =>
    rcases List.mem_append.mp member with member | member
    · rcases SpelledConstraint.word_cases member with
        ⟨entry, introduced, same⟩ | isId | isReserved
      · exact Or.inl ⟨entry, List.mem_append_left _ introduced, same⟩
      · exact Or.inr (Or.inl (List.mem_append_left _ isId))
      · exact Or.inr (Or.inr isReserved)
    · rcases SpelledAssignment.word_cases (by simpa using member) with
        ⟨entry, introduced, same⟩ | isId
      · exact Or.inl ⟨entry, List.mem_append_right _ introduced, same⟩
      · exact Or.inr (Or.inl (List.mem_append_right _ isId))

/-- The keyword of a kind stands free wherever it introduces one. -/
theorem standsFree_of_kind {line : List Char} {spelled : SpelledLine}
    (lexes : Lexes line spelled.tokens) {kind : PolicyKind} {long : Bool}
    (introduced : (.ofKind kind, long) ∈ spelled.introductions) :
    Text.StandsFree endsKeyword (kind.spelling long).toList line := by
  cases spelled with
  | fallback assignments _ =>
    have split : Lexes line
        ([.word "fallback-policy"] ++ .mark .colon :: SpelledAssignment.tokensOfAll assignments) :=
      lexes
    exact SpelledAssignment.standsFree_spelling split introduced
  | rule constraints assignments _ =>
    rcases List.mem_append.mp introduced with ofConstraint | ofAssignment
    · simp [SpelledConstraint.introduction] at ofConstraint
    · exact SpelledAssignment.standsFree_spelling lexes ofAssignment

end SpelledLine

end RuleText

end Circulation
