import Circulation.Proofs.Keywords

/-!
Contract: the token that is reported for a line which repeats a facet or a kind.

Owns:
- that reading a line stops for no repetition;
- that a repetition is reported for a line that has a tree and introduces something again;
- when the reported token is a keyword by which that line introduces what it repeats.

Does not own: which line is reported.

The token is looked for in the text of the line: it is the long keyword if that stands free there, and
else the letter. So it can be an id, if the line has the letter where the keyword is due, and a word
that the line does not have, if each long keyword is next to a mark.
-/

namespace Circulation

/-- What a line introduces again, if that is what is wrong with it. -/
def SyntaxFault.repeated? : SyntaxFault → Option Keyword
  | repeatedFacet facet => some (.ofFacet facet)
  | repeatedKind kind => some (.ofKind kind)
  | _ => none

namespace RuleText

/-! ## Lines that cannot be read -/

/-- Reading stops for no repetition. -/
def StopsForSyntax {α : Type} (step : Except Stop α) : Prop :=
  ∀ stop, step = .error stop → stop.fault.repeated? = none

namespace StopsForSyntax

variable {α β : Type}

theorem ok (value : α) : StopsForSyntax (.ok value) := by
  intro stop stopped
  simp at stopped

theorem error {fault : SyntaxFault} (rest : List Char) (other : fault.repeated? = none) :
    StopsForSyntax (.error ⟨fault, rest⟩ : Except Stop α) := by
  intro stop stopped
  rw [← Except.error.inj stopped]
  exact other

theorem bind {first : Except Stop α} {next : α → Except Stop β} (here : StopsForSyntax first)
    (there : ∀ value, StopsForSyntax (next value)) : StopsForSyntax (first >>= next) := by
  intro stop stopped
  rcases bind_eq_error_iff.mp stopped with stopped | ⟨value, _, stopped⟩
  · exact here stop stopped
  · exact there value stop stopped

end StopsForSyntax

theorem stopsForSyntax_readPolicyId (text : List Char) : StopsForSyntax (readPolicyId text) := by
  unfold readPolicyId
  split
  · exact .ok _
  · exact .error _ rfl

theorem stopsForSyntax_readIds (text : List Char) : StopsForSyntax (readIds text) := by
  unfold readIds
  split
  · exact .error _ rfl
  · exact .ok _

theorem stopsForSyntax_readFacet (text : List Char) : StopsForSyntax (readFacet text) := by
  unfold readFacet
  split
  · exact .error _ rfl
  · split
    · exact .error _ rfl
    · exact .ok _

theorem stopsForSyntax_skipClosing (text : List Char) : StopsForSyntax (skipClosing text) := by
  unfold skipClosing
  split
  · exact .ok _
  · exact .error _ rfl

theorem stopsForSyntax_readCondition (text : List Char) : StopsForSyntax (readCondition text) := by
  unfold readCondition
  split
  · exact (stopsForSyntax_readIds _).bind fun _ => .ok _
  · split
    · exact (stopsForSyntax_readIds _).bind fun _ =>
        (stopsForSyntax_skipClosing _).bind fun _ => .ok _
    · exact (stopsForSyntax_readIds _).bind fun _ => .ok _

theorem stopsForSyntax_readConstraint (text : List Char) :
    StopsForSyntax (readConstraint text) :=
  (stopsForSyntax_readFacet _).bind fun _ => (stopsForSyntax_readCondition _).bind fun _ => .ok _

theorem stopsForSyntax_readMoreConstraints (text : List Char) :
    StopsForSyntax (readMoreConstraints text) := by
  fun_induction readMoreConstraints text with
  | case1 text afterPlus plus stop read =>
    intro other stopped
    exact stopsForSyntax_readConstraint afterPlus other (Except.error.inj stopped ▸ read)
  | case2 text afterPlus plus constraint rest read stop failed ih =>
    intro other stopped
    exact ih other (Except.error.inj stopped ▸ failed)
  | case3 => exact .ok _
  | case4 => exact .ok _

theorem stopsForSyntax_readConditions (text : List Char) :
    StopsForSyntax (readConditions text) := by
  unfold readConditions
  split
  · exact .ok _
  · exact (stopsForSyntax_readConstraint _).bind fun _ =>
      (stopsForSyntax_readMoreConstraints _).bind fun _ => .ok _

theorem stopsForSyntax_readMoreAssignments (text : List Char) :
    StopsForSyntax (readMoreAssignments text) := by
  fun_induction readMoreAssignments text with
  | case1 => exact .ok _
  | case2 text kind afterKind found stop read =>
    intro other stopped
    exact stopsForSyntax_readPolicyId afterKind other (Except.error.inj stopped ▸ read)
  | case3 text kind afterKind found id rest read stop failed ih =>
    intro other stopped
    exact ih other (Except.error.inj stopped ▸ failed)
  | case4 => exact .ok _

theorem stopsForSyntax_readAssignments (text : List Char) :
    StopsForSyntax (readAssignments text) := by
  unfold readAssignments
  split
  · exact .error _ rfl
  · exact stopsForSyntax_readMoreAssignments text

theorem stopsForSyntax_skipColon (text : List Char) : StopsForSyntax (skipColon text) := by
  unfold skipColon
  split
  · exact .ok _
  · exact .error _ rfl

theorem stopsForSyntax_readEnd (text : List Char) : StopsForSyntax (readEnd text) := by
  unfold readEnd
  split
  · exact .ok _
  · exact .error _ rfl

theorem stopsForSyntax_readStatement (line : List Char) : StopsForSyntax (readStatement line) := by
  unfold readStatement
  split
  · exact (stopsForSyntax_skipColon _).bind fun _ =>
      (stopsForSyntax_readAssignments _).bind fun _ =>
        (stopsForSyntax_readEnd _).bind fun _ => .ok _
  · exact (stopsForSyntax_readConditions _).bind fun _ =>
      (stopsForSyntax_skipColon _).bind fun _ =>
        (stopsForSyntax_readAssignments _).bind fun _ =>
          (stopsForSyntax_readEnd _).bind fun _ => .ok _

/-! ## Repetitions -/

/-- A physical line without its comment consists of the tokens of a tree. -/
def HasTree (physicalLine : List Char) (spelled : SpelledLine) : Prop :=
  Lexes (Text.stripComment physicalLine) spelled.tokens

instance (physicalLine : List Char) (spelled : SpelledLine) :
    Decidable (HasTree physicalLine spelled) :=
  inferInstanceAs (Decidable (Lexes _ _))

/-- A physical line introduces a facet or a kind more than once. -/
def Repeats (physicalLine : List Char) (keyword : Keyword) : Prop :=
  ∃ spelled, HasTree physicalLine spelled ∧
    2 ≤ (spelled.introductions.map Prod.fst).count keyword

section Repetitions

variable {number : UInt32} {error : ParseError} {keyword : Keyword}

theorem two_le_count_of_repeated {κ α : Type} (name : κ → Keyword) {before after : List (κ × α)}
    {key : κ} {value : α} (earlier : key ∈ before.map Prod.fst) :
    2 ≤ ((before ++ (key, value) :: after).map fun entry => name entry.1).count (name key) := by
  obtain ⟨entry, member, rfl⟩ := List.mem_map.mp earlier
  have positive : 0 < (before.map fun entry => name entry.1).count (name entry.1) :=
    List.count_pos_iff.mpr (List.mem_map_of_mem member)
  rw [List.map_append, List.map_cons, List.count_append, List.count_cons_self]
  omega

theorem repeats_of_collectPolicies {line : List Char} {assignments : List (PolicyKind × String)}
    (failed : collectPolicies number line assignments = .error error)
    (repeated : error.fault.repeated? = some keyword) :
    error.token = keyword.spellingIn line ∧
      2 ≤ (assignments.map fun assignment => Keyword.ofKind assignment.1).count keyword := by
  rw [collectPolicies] at failed
  split at failed
  · simp at failed
  · next kind refused =>
    obtain rfl := Except.error.inj failed
    obtain rfl := Option.some.inj repeated
    obtain ⟨before, policyId, after, rfl, earlier⟩ :=
      PolicyMap.exists_repeated_of_ofAssignments refused
    exact ⟨rfl, two_le_count_of_repeated .ofKind earlier⟩

theorem repeats_of_collectConditions {line : List Char} {constraints : List (Facet × Condition)}
    (demanding : ∀ constraint ∈ constraints, constraint.2 ≠ .any)
    (failed : collectConditions number line constraints = .error error)
    (repeated : error.fault.repeated? = some keyword) :
    error.token = keyword.spellingIn line ∧
      2 ≤ (constraints.map fun constraint => Keyword.ofFacet constraint.1).count keyword := by
  rw [collectConditions] at failed
  split at failed
  · simp at failed
  · next facet refused =>
    obtain rfl := Except.error.inj failed
    obtain rfl := Option.some.inj repeated
    obtain ⟨before, condition, after, rfl, earlier⟩ :=
      Conditions.exists_repeated_of_ofConstraints demanding refused
    exact ⟨rfl, two_le_count_of_repeated .ofFacet earlier⟩

theorem repeats_of_draftOfStatement {line : List Char} {statement : Statement}
    (derives : Derives line statement)
    (failed : draftOfStatement number line statement = .error error)
    (repeated : error.fault.repeated? = some keyword) :
    error.token = keyword.spellingIn line ∧ 2 ≤ statement.keywords.count keyword := by
  cases statement with
  | fallback assignments =>
    rcases bind_eq_error_iff.mp failed with failed | ⟨_, _, failed⟩
    · exact repeats_of_collectPolicies failed repeated
    · simp [pure, Except.pure] at failed
  | rule constraints assignments =>
    rw [Statement.keywords, List.count_append]
    rcases bind_eq_error_iff.mp failed with failed | ⟨_, _, failed⟩
    · obtain ⟨token, twice⟩ := repeats_of_collectConditions derives.demanding failed repeated
      exact ⟨token, Nat.le_add_right_of_le twice⟩
    · rcases bind_eq_error_iff.mp failed with failed | ⟨_, _, failed⟩
      · obtain ⟨token, twice⟩ := repeats_of_collectPolicies failed repeated
        exact ⟨token, Nat.le_add_left_of_le twice⟩
      · simp [pure, Except.pure] at failed

/-- A repetition is reported for a line that has a tree and introduces something again. -/
theorem repeats_of_draftOfLine {physicalLine : List Char}
    (failed : draftOfLine number physicalLine = .error error)
    (repeated : error.fault.repeated? = some keyword) :
    error.token = keyword.spellingIn (Text.stripComment physicalLine) ∧
      Repeats physicalLine keyword := by
  rw [draftOfLine] at failed
  split at failed
  · simp at failed
  · rcases bind_eq_error_iff.mp failed with failed | ⟨statement, parsed, failed⟩
    · rw [parseStatement] at failed
      split at failed
      · simp at failed
      · next stop stopped =>
        rw [← Except.error.inj failed] at repeated
        rw [stopsForSyntax_readStatement _ stop stopped] at repeated
        simp at repeated
    · rw [parseStatement] at parsed
      split at parsed
      · next read =>
        obtain rfl := Except.ok.inj parsed
        have derives := derives_of_readStatement read
        obtain ⟨token, twice⟩ := repeats_of_draftOfStatement derives failed repeated
        obtain ⟨spelled, lexes, rfl⟩ := derives_iff_exists_spelled.mp derives
        exact ⟨token, spelled, lexes, spelled.map_fst_introductions ▸ twice⟩
      · simp at parsed

end Repetitions

/-! ## Reported tokens -/

/-- A physical line has a spelling where a keyword for a facet or a kind is due. -/
def Introduces (physicalLine : List Char) (keyword : Keyword) (spelling : String) : Prop :=
  ∃ spelled, HasTree physicalLine spelled ∧
    ∃ long, (keyword, long) ∈ spelled.introductions ∧ keyword.spelling long = spelling

/-- A physical line has a word where an id is due. -/
def Mentions (physicalLine : List Char) (id : String) : Prop :=
  ∃ spelled, HasTree physicalLine spelled ∧ id ∈ spelled.ids

/-- The long keyword stands free in a line that does not introduce anything by it. -/
structure LongByChance (physicalLine : List Char) (keyword : Keyword) : Prop where
  free : Text.StandsFree endsKeyword (keyword.spelling true).toList
    (Text.stripComment physicalLine)
  notIntroduced : ¬Introduces physicalLine keyword (keyword.spelling true)

/-- The long keyword stands free nowhere in a line that does not introduce anything by the letter. -/
structure LongHidden (physicalLine : List Char) (keyword : Keyword) : Prop where
  notFree : ¬Text.StandsFree endsKeyword (keyword.spelling true).toList
    (Text.stripComment physicalLine)
  notIntroduced : ¬Introduces physicalLine keyword (keyword.spelling false)

section Tokens

variable {physicalLine : List Char} {keyword : Keyword}

theorem HasTree.introduces_iff {spelled : SpelledLine} (hasTree : HasTree physicalLine spelled)
    {spelling : String} :
    Introduces physicalLine keyword spelling ↔
      ∃ long, (keyword, long) ∈ spelled.introductions ∧ keyword.spelling long = spelling := by
  constructor
  · rintro ⟨other, otherHasTree, introduced⟩
    rwa [SpelledLine.unique_of_lexes hasTree otherHasTree]
  · intro introduced
    exact ⟨spelled, hasTree, introduced⟩

theorem Repeats.introduces (repeats : Repeats physicalLine keyword) :
    ∃ long, Introduces physicalLine keyword (keyword.spelling long) := by
  obtain ⟨spelled, hasTree, twice⟩ := repeats
  obtain ⟨⟨_, long⟩, introduced, rfl⟩ :=
    List.mem_map.mp (List.count_pos_iff.mp (Nat.lt_of_lt_of_le Nat.zero_lt_two twice))
  exact ⟨long, spelled, hasTree, long, introduced, rfl⟩

/-- A long keyword that stands free by chance is an id. -/
theorem LongByChance.mentions (byChance : LongByChance physicalLine keyword)
    (repeats : Repeats physicalLine keyword) :
    Mentions physicalLine (keyword.spelling true) := by
  obtain ⟨spelled, hasTree, _⟩ := repeats
  obtain ⟨isId, notReserved⟩ := keyword.isId_spelling true
  rcases SpelledLine.word_cases (Lexes.word_mem_of_standsFree hasTree isId byChance.free) with
    ⟨⟨other, long⟩, introduced, same⟩ | listed | reserved
  · obtain ⟨rfl, rfl⟩ := Keyword.spelling_inj same
    exact absurd ⟨spelled, hasTree, true, introduced, rfl⟩ byChance.notIntroduced
  · exact ⟨spelled, hasTree, listed⟩
  · exact absurd reserved notReserved

/-- Only the long keyword of a facet can be hidden. -/
theorem LongHidden.exists_facet (hidden : LongHidden physicalLine keyword)
    (repeats : Repeats physicalLine keyword) : ∃ facet, keyword = .ofFacet facet := by
  obtain ⟨long, spelled, hasTree, otherLong, introduced, same⟩ := repeats.introduces
  cases keyword with
  | ofFacet facet => exact ⟨facet, rfl⟩
  | ofKind kind =>
    cases otherLong with
    | true => exact absurd (SpelledLine.standsFree_of_kind hasTree introduced) hidden.notFree
    | false =>
      exact absurd ⟨spelled, hasTree, false, introduced, rfl⟩ hidden.notIntroduced

end Tokens

/-- A facet or a kind is reported as repeated for the first faulty line, which does introduce it more
than once. The token is a keyword by which that line introduces it, with two exceptions. A line that
introduces it only by the letter and has the long keyword among its ids gives the long keyword. A
line that introduces a facet only by the long keyword, which stands free nowhere in it, gives the
letter. -/
theorem introduces_token_iff {text : String} {error : ParseError} {keyword : Keyword}
    (failed : parse text = .error error) (repeated : error.fault.repeated? = some keyword) :
    ∃ before line after, Text.physicalLines text.toList = before ++ line :: after ∧
      (∀ earlier ∈ before, ¬Faulty earlier) ∧ error.line = UInt32.ofNat (1 + before.length) ∧
      Repeats line keyword ∧
      (Introduces line keyword error.token ↔
        ¬LongByChance line keyword ∧ ¬LongHidden line keyword) ∧
      (LongByChance line keyword →
        error.token = keyword.spelling true ∧ Mentions line error.token) ∧
      (LongHidden line keyword →
        error.token = keyword.spelling false ∧ ∃ facet, keyword = .ofFacet facet) := by
  obtain ⟨before, line, after, whole, sound, failedThere⟩ := exists_draftOfLine_eq_error failed
  obtain ⟨token, repeats⟩ := repeats_of_draftOfLine failedThere repeated
  obtain ⟨ofFree, ofNotFree⟩ := keyword.spellingIn_eq (Text.stripComment line)
  rw [← token] at ofFree ofNotFree
  refine ⟨before, line, after, whole, sound, line_eq_of_draftOfLine_eq_error failedThere, repeats,
    ?_, ?_, ?_⟩
  · by_cases free : Text.StandsFree endsKeyword (keyword.spelling true).toList
        (Text.stripComment line)
    · rw [ofFree free]
      constructor
      · intro introduced
        exact ⟨fun byChance => byChance.notIntroduced introduced, fun hidden => hidden.notFree free⟩
      · rintro ⟨notByChance, _⟩
        by_contra notIntroduced
        exact notByChance ⟨free, notIntroduced⟩
    · rw [ofNotFree free]
      constructor
      · intro introduced
        exact ⟨fun byChance => free byChance.free, fun hidden => hidden.notIntroduced introduced⟩
      · rintro ⟨_, notHidden⟩
        by_contra notIntroduced
        exact notHidden ⟨free, notIntroduced⟩
  · intro byChance
    rw [ofFree byChance.free]
    exact ⟨rfl, byChance.mentions repeats⟩
  · intro hidden
    exact ⟨ofNotFree hidden.notFree, hidden.exists_facet repeats⟩

/-- A line that introduces a facet by its letter twice. -/
def repeatedText : String :=
  "m book + t x + m dvd: l p"

theorem introduces_token_iff_repeatedText :
    parse repeatedText = .error ⟨1, "m", .repeatedFacet .itemType⟩ ∧
      Repeats repeatedText.toList (.ofFacet .itemType) ∧
      Introduces repeatedText.toList (.ofFacet .itemType) "m" := by
  have failed : parse repeatedText = .error ⟨1, "m", .repeatedFacet .itemType⟩ := by
    decide +kernel
  have oneLine : Text.physicalLines repeatedText.toList = [repeatedText.toList] := by decide
  have hasTree : HasTree repeatedText.toList (.rule
      [⟨.itemType, false, .bare ⟨"book", []⟩⟩, ⟨.loanType, false, .bare ⟨"x", []⟩⟩,
        ⟨.itemType, false, .bare ⟨"dvd", []⟩⟩] [⟨.loan, false, "p"⟩] (by decide)) := by
    decide
  have repeated : (SyntaxFault.repeatedFacet .itemType).repeated? = some (.ofFacet .itemType) := rfl
  obtain ⟨before, line, after, whole, _, _, repeats, introduced, byChance, _⟩ :=
    introduces_token_iff failed repeated
  rw [oneLine] at whole
  rcases List.singleton_eq_append_iff.mp whole with ⟨_, same⟩ | ⟨_, nothing⟩
  · obtain ⟨rfl, _⟩ := List.cons.inj same
    refine ⟨failed, repeats, introduced.mpr ⟨?_, ?_⟩⟩
    · intro chance
      exact absurd (byChance chance).1 (by decide)
    · intro hidden
      exact hidden.notIntroduced (hasTree.introduces_iff.mpr (by decide))
  · simp at nothing

/-- A line that introduces a facet by its letter and has the long keyword as an id. -/
def mentioningText : String :=
  "m item-type + m x: l p"

/-- A line that introduces a facet by its long keyword, next to a mark each time. -/
def hidingText : String :=
  "item-type!a + item-type!b: l p"

/-- The token of a repetition can be a word that the line has only as an id, and it can be a word that
the line does not have. -/
theorem not_introduces_token :
    (parse mentioningText = .error ⟨1, "item-type", .repeatedFacet .itemType⟩ ∧
      ∀ line ∈ Text.physicalLines mentioningText.toList, Mentions line "item-type" ∧
        ¬Introduces line (.ofFacet .itemType) "item-type") ∧
    parse hidingText = .error ⟨1, "m", .repeatedFacet .itemType⟩ ∧
      ∀ line ∈ Text.physicalLines hidingText.toList,
        (∀ tokens, Lexes (Text.stripComment line) tokens → .word "m" ∉ tokens) ∧
          ¬Introduces line (.ofFacet .itemType) "m" := by
  have mentions : HasTree mentioningText.toList (.rule
      [⟨.itemType, false, .bare ⟨"item-type", []⟩⟩, ⟨.itemType, false, .bare ⟨"x", []⟩⟩]
        [⟨.loan, false, "p"⟩] (by decide)) := by
    decide
  have hides : HasTree hidingText.toList (.rule
      [⟨.itemType, true, .exclaimed ⟨"a", []⟩⟩, ⟨.itemType, true, .exclaimed ⟨"b", []⟩⟩]
        [⟨.loan, false, "p"⟩] (by decide)) := by
    decide
  have mentioningLine : Text.physicalLines mentioningText.toList = [mentioningText.toList] := by
    decide
  have hidingLine : Text.physicalLines hidingText.toList = [hidingText.toList] := by decide
  refine ⟨⟨by decide +kernel, ?_⟩, by decide +kernel, ?_⟩
  · intro line member
    rw [mentioningLine, List.mem_singleton] at member
    rw [member, mentions.introduces_iff]
    exact ⟨⟨_, mentions, by decide⟩, by decide⟩
  · intro line member
    rw [hidingLine, List.mem_singleton] at member
    rw [member, hides.introduces_iff]
    refine ⟨?_, by decide⟩
    intro tokens lexes
    rw [lexes.unique hides]
    decide

end RuleText

end Circulation
