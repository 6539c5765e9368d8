import Circulation.Proofs.Collecting
import Circulation.Proofs.Parsing
import Circulation.RuleText.Draft

/-!
Contract: what the physical lines of a rule text say, and the drafts that they write down.

Owns:
- the characters of a line that consists of tokens;
- which statements repeat a facet or a kind, and what the others write down;
- which physical lines are faulty, and what the others write down;
- that a text writes down what its lines do, unless one is faulty, and that the first that is faulty
  is reported.

Does not own: the grammar of lines, or the checks of a draft as a whole.
-/

namespace Circulation

namespace RuleText

/-! ## Characters of tokens -/

theorem toNat_bounds_of_isWordChar {char : Char} (inWord : isWordChar char = true) :
    0x2D ≤ char.toNat ∧ char.toNat ≤ 0x7A := by
  simp only [isWordChar, Char.isAlphanum, Char.isAlpha, Char.isUpper, Char.isLower, Char.isDigit,
    Bool.or_eq_true, Bool.and_eq_true, decide_eq_true_eq, beq_iff_eq, ge_iff_le,
    UInt32.le_iff_toNat_le] at inWord
  change (((((65 ≤ char.toNat ∧ char.toNat ≤ 90) ∨ (97 ≤ char.toNat ∧ char.toNat ≤ 122)) ∨
    (48 ≤ char.toNat ∧ char.toNat ≤ 57)) ∨ char = '-') ∨ char = '_') ∨ char = '.' at inWord
  rcases inWord with (((( upper | lower) | digit) | rfl) | rfl) | rfl
  · omega
  · omega
  · omega
  · decide
  · decide
  · decide

theorem isWhiteSpace_eq_false_of_isWordChar {char : Char} (inWord : isWordChar char = true) :
    Text.isWhiteSpace char = false := by
  have bounds := toNat_bounds_of_isWordChar inWord
  rw [← Bool.not_eq_true]
  intro white
  obtain ⟨range, member, within⟩ := List.any_eq_true.mp white
  have outside : ∀ range ∈ Text.whiteSpaceRanges, range.2 < 0x2D ∨ 0x7A < range.1 := by decide
  have apart := outside range member
  simp only [Bool.and_eq_true, decide_eq_true_eq] at within
  omega

@[simp] theorem Mark.isWhiteSpace_char (mark : Mark) : Text.isWhiteSpace mark.char = false := by
  cases mark <;> decide

/-- A text of tokens has only blanks, the characters of words and marks. -/
theorem Lexes.inside {text : List Char} {tokens : List Token} (lexes : Lexes text tokens) :
    ∀ char ∈ text, isBlank char = true ∨ isWordChar char = true ∨
      ∃ mark : Mark, char = mark.char := by
  induction lexes with
  | nil => simp
  | blank separates others ih =>
    intro char member
    rcases List.mem_cons.mp member with rfl | member
    · exact Or.inl separates
    · exact ih char member
  | @mark mark text tokens others ih =>
    intro char member
    rcases List.mem_cons.mp member with rfl | member
    · exact Or.inr (Or.inr ⟨mark, rfl⟩)
    · exact ih char member
  | word nonempty inside longest others ih =>
    intro char member
    rcases List.mem_append.mp member with member | member
    · exact Or.inr (Or.inl (inside char member))
    · exact ih char member

/-- Characters that no token has stand nowhere in a text of tokens. -/
theorem Lexes.not_mem {text : List Char} {tokens : List Token} (lexes : Lexes text tokens)
    {char : Char} (notBlank : isBlank char = false) (notInWord : isWordChar char = false)
    (notMark : ∀ mark : Mark, char ≠ mark.char) : char ∉ text := by
  intro member
  rcases lexes.inside char member with blank | inWord | ⟨mark, isMark⟩
  · simp [notBlank] at blank
  · simp [notInWord] at inWord
  · exact notMark mark isMark

/-- A text of tokens has no line ending. -/
theorem Lexes.single_line {text : List Char} {tokens : List Token} (lexes : Lexes text tokens) :
    '\n' ∉ text ∧ '\r' ∉ text := by
  constructor
  · exact lexes.not_mem rfl rfl (fun mark => by cases mark <;> decide)
  · exact lexes.not_mem rfl rfl (fun mark => by cases mark <;> decide)

/-- A text of tokens has nothing that begins a comment. -/
theorem Lexes.uncommented {text : List Char} {tokens : List Token} (lexes : Lexes text tokens) :
    '#' ∉ text ∧ '/' ∉ text := by
  constructor
  · exact lexes.not_mem rfl rfl (fun mark => by cases mark <;> decide)
  · exact lexes.not_mem rfl rfl (fun mark => by cases mark <;> decide)

theorem isBlankLine_eq_false_of_lexes {text : List Char} {token : Token} {tokens : List Token}
    (lexes : Lexes text (token :: tokens)) : Text.isBlankLine text = false := by
  suffices visible : ∃ char ∈ text, Text.isWhiteSpace char = false by
    obtain ⟨char, member, notWhite⟩ := visible
    rw [Text.isBlankLine, List.all_eq_false]
    exact ⟨char, member, by simp [notWhite]⟩
  generalize whole : token :: tokens = allTokens at lexes
  induction lexes with
  | nil => simp at whole
  | blank separates others ih =>
    obtain ⟨char, member, notWhite⟩ := ih whole
    exact ⟨char, List.mem_cons_of_mem _ member, notWhite⟩
  | @mark mark text tokens others ih => exact ⟨mark.char, List.mem_cons_self, by simp⟩
  | @word word text tokens nonempty inside longest others ih =>
    obtain ⟨char, member⟩ := List.exists_mem_of_ne_nil _ nonempty
    exact ⟨char, List.mem_append_left _ member,
      isWhiteSpace_eq_false_of_isWordChar (inside char member)⟩

theorem Derives.not_blank {line : List Char} {statement : Statement}
    (derives : Derives line statement) : Text.isBlankLine line = false := by
  obtain ⟨tokens, lexes, derived⟩ := derives
  cases derived with
  | fallback assigned => exact isBlankLine_eq_false_of_lexes lexes
  | @rule tokens others constraints assignments demanded assigned =>
    cases tokens with
    | nil => exact isBlankLine_eq_false_of_lexes lexes
    | cons token more => exact isBlankLine_eq_false_of_lexes lexes

theorem Derives.unique {line : List Char} {statement other : Statement}
    (derives : Derives line statement) (otherDerives : Derives line other) :
    statement = other := by
  have read := readStatement_of_derives derives
  rw [readStatement_of_derives otherDerives] at read
  exact (Except.ok.inj read).symm

/-! ## What rules have -/

theorem DerivesConstraint.demanding {tokens : List Token} {constraint : Facet × Condition}
    (derives : DerivesConstraint tokens constraint) : constraint.2 ≠ .any := by
  cases derives with
  | intro named demanded => cases demanded <;> simp

theorem DerivesMoreConstraints.demanding {tokens : List Token}
    {constraints : List (Facet × Condition)}
    (derives : DerivesMoreConstraints tokens constraints) :
    ∀ constraint ∈ constraints, constraint.2 ≠ .any := by
  induction derives with
  | done => simp
  | next here more ih => exact List.forall_mem_cons.mpr ⟨here.demanding, ih⟩

theorem Derives.demanding {line : List Char} {constraints : List (Facet × Condition)}
    {assignments : List (PolicyKind × String)}
    (derives : Derives line (.rule constraints assignments)) :
    ∀ constraint ∈ constraints, constraint.2 ≠ .any := by
  obtain ⟨tokens, lexes, derived⟩ := derives
  cases derived with
  | rule demanded assigned =>
    cases demanded with
    | all => simp
    | first here more => exact List.forall_mem_cons.mpr ⟨here.demanding, more.demanding⟩

theorem Derives.assigns {line : List Char} {constraints : List (Facet × Condition)}
    {assignments : List (PolicyKind × String)}
    (derives : Derives line (.rule constraints assignments)) : assignments ≠ [] := by
  obtain ⟨tokens, lexes, derived⟩ := derives
  cases derived with
  | rule demanded assigned => cases assigned; simp

/-! ## Repetition -/

end RuleText

namespace Statement

/-- The statement constrains no facet twice and assigns no kind twice. -/
def Unrepeated : Statement → Prop
  | fallback assignments => (assignments.map Prod.fst).Nodup
  | rule constraints assignments =>
      (constraints.map Prod.fst).Nodup ∧ (assignments.map Prod.fst).Nodup

/-- What a statement writes down on the line with a number: a fallback for each of its assignments,
in kind order, or one rule line with its constraints and assignments. -/
inductive Writes (number : UInt32) : Statement → RuleDraft → Prop where
  | fallback {assignments : List (PolicyKind × String)} {policies : PolicyMap}
      (assigned : assignments.Perm policies.entries) :
      Writes number (.fallback assignments)
        { fallbacks := policies.entries.map fun (kind, id) => ⟨number, kind, id⟩ }
  | rule {constraints : List (Facet × Condition)} {assignments : List (PolicyKind × String)}
      {conditions : Conditions} {policies : PolicyMap}
      (demanded : constraints.Perm conditions.constraints)
      (assigned : assignments.Perm policies.entries) :
      Writes number (.rule constraints assignments)
        { lines := [.scored number conditions policies] }

end Statement

namespace RuleText

theorem collectPolicies_eq_ok_iff {number : UInt32} {line : List Char}
    {assignments : List (PolicyKind × String)} {policies : PolicyMap} :
    collectPolicies number line assignments = .ok policies ↔
      assignments.Perm policies.entries := by
  rw [← PolicyMap.ofAssignments_eq_ok_iff, collectPolicies]
  cases PolicyMap.ofAssignments assignments <;> simp

theorem collectConditions_eq_ok_iff {number : UInt32} {line : List Char}
    {constraints : List (Facet × Condition)} {conditions : Conditions}
    (demanding : ∀ constraint ∈ constraints, constraint.2 ≠ .any) :
    collectConditions number line constraints = .ok conditions ↔
      constraints.Perm conditions.constraints := by
  rw [← Conditions.ofConstraints_eq_ok_iff demanding, collectConditions]
  cases Conditions.ofConstraints constraints <;> simp

section Statements

variable {number : UInt32} {line : List Char} {statement : Statement}

/-- What a statement writes down is the draft that is made of it. -/
theorem draftOfStatement_eq_ok_iff {content : List Char} (derives : Derives content statement)
    {draft : RuleDraft} :
    draftOfStatement number line statement = .ok draft ↔ statement.Writes number draft := by
  cases statement with
  | fallback assignments =>
    constructor
    · intro drafted
      obtain ⟨policies, collected, same⟩ := bind_eq_ok_iff.mp drafted
      cases Except.ok.inj same
      exact .fallback (collectPolicies_eq_ok_iff.mp collected)
    · rintro (_ | _)
      next policies assigned =>
      exact bind_eq_ok_iff.mpr ⟨policies, collectPolicies_eq_ok_iff.mpr assigned, rfl⟩
  | rule constraints assignments =>
    have conditionsCollected {conditions : Conditions} :
        collectConditions number line constraints = .ok conditions ↔
          constraints.Perm conditions.constraints :=
      collectConditions_eq_ok_iff derives.demanding
    constructor
    · intro drafted
      obtain ⟨conditions, demanded, remaining⟩ := bind_eq_ok_iff.mp drafted
      obtain ⟨policies, collected, same⟩ := bind_eq_ok_iff.mp remaining
      cases Except.ok.inj same
      exact .rule (conditionsCollected.mp demanded) (collectPolicies_eq_ok_iff.mp collected)
    · rintro (_ | _)
      next conditions policies demanded assigned =>
      refine bind_eq_ok_iff.mpr ⟨conditions, conditionsCollected.mpr demanded, ?_⟩
      exact bind_eq_ok_iff.mpr ⟨policies, collectPolicies_eq_ok_iff.mpr assigned, rfl⟩

/-- A statement writes something down exactly if it repeats nothing. -/
theorem exists_writes_iff (derives : Derives line statement) :
    (∃ draft, statement.Writes number draft) ↔ statement.Unrepeated := by
  cases statement with
  | fallback assignments =>
    rw [Statement.Unrepeated, ← PolicyMap.exists_ofAssignments_iff]
    constructor
    · rintro ⟨_, _ | _⟩
      next policies assigned => exact ⟨policies, PolicyMap.ofAssignments_eq_ok_iff.mpr assigned⟩
    · rintro ⟨policies, collected⟩
      exact ⟨_, .fallback (PolicyMap.ofAssignments_eq_ok_iff.mp collected)⟩
  | rule constraints assignments =>
    have demanding := derives.demanding
    rw [Statement.Unrepeated, ← PolicyMap.exists_ofAssignments_iff,
      ← Conditions.exists_ofConstraints_iff demanding]
    constructor
    · rintro ⟨_, _ | _⟩
      next conditions policies demanded assigned =>
      exact ⟨⟨conditions, (Conditions.ofConstraints_eq_ok_iff demanding).mpr demanded⟩,
        ⟨policies, PolicyMap.ofAssignments_eq_ok_iff.mpr assigned⟩⟩
    · rintro ⟨⟨conditions, conditionsCollected⟩, ⟨policies, collected⟩⟩
      exact ⟨_, .rule ((Conditions.ofConstraints_eq_ok_iff demanding).mp conditionsCollected)
        (PolicyMap.ofAssignments_eq_ok_iff.mp collected)⟩

theorem line_eq_of_draftOfStatement_eq_error {fault : ParseError}
    (failed : draftOfStatement number line statement = .error fault) : fault.line = number := by
  have policiesFailed {assignments : List (PolicyKind × String)}
      (failed : collectPolicies number line assignments = .error fault) :
      fault.line = number := by
    rw [collectPolicies] at failed
    split at failed
    · simp at failed
    · rw [← Except.error.inj failed]
  cases statement with
  | fallback assignments =>
    rcases bind_eq_error_iff.mp failed with failed | ⟨_, _, failed⟩
    · exact policiesFailed failed
    · simp [pure, Except.pure] at failed
  | rule constraints assignments =>
    rcases bind_eq_error_iff.mp failed with failed | ⟨_, _, failed⟩
    · rw [collectConditions] at failed
      split at failed
      · simp at failed
      · rw [← Except.error.inj failed]
    · rcases bind_eq_error_iff.mp failed with failed | ⟨_, _, failed⟩
      · exact policiesFailed failed
      · simp [pure, Except.pure] at failed

end Statements

/-! ## Physical lines -/

/-- A physical line says a statement: without its comment it derives the statement, and that repeats
nothing. -/
def Says (physicalLine : List Char) (statement : Statement) : Prop :=
  Derives (Text.stripComment physicalLine) statement ∧ statement.Unrepeated

/-- A physical line is faulty if it is not blank without its comment and yet says nothing. -/
def Faulty (physicalLine : List Char) : Prop :=
  Text.isBlankLine (Text.stripComment physicalLine) = false ∧
    ∀ statement, ¬Says physicalLine statement

/-- A line says one statement at most. -/
theorem Says.iff_eq {physicalLine : List Char} {statement : Statement}
    (said : Says physicalLine statement) (other : Statement) :
    Says physicalLine other ↔ other = statement := by
  constructor
  · intro saidOther
    exact saidOther.1.unique said.1
  · rintro rfl
    exact said

theorem not_says_of_blank {physicalLine : List Char}
    (blank : Text.isBlankLine (Text.stripComment physicalLine) = true) (statement : Statement) :
    ¬Says physicalLine statement := by
  intro said
  simp [said.1.not_blank] at blank

section Lines

variable {number : UInt32} {physicalLine : List Char}

/-- A line that is not blank has the draft of the statement that it says. -/
theorem draftOfLine_eq_ok_iff {draft : RuleDraft} :
    draftOfLine number physicalLine = .ok draft ↔
      Text.isBlankLine (Text.stripComment physicalLine) = true ∧ draft = .empty ∨
        ∃ statement, Says physicalLine statement ∧ statement.Writes number draft := by
  rw [draftOfLine]
  cases blank : Text.isBlankLine (Text.stripComment physicalLine) with
  | true =>
    simp [not_says_of_blank blank, eq_comm]
  | false =>
    simp only [Bool.false_eq_true, if_false, false_and, false_or]
    constructor
    · intro drafted
      obtain ⟨statement, parsed, remaining⟩ := bind_eq_ok_iff.mp drafted
      rw [parseStatement] at parsed
      split at parsed
      · next read =>
        cases Except.ok.inj parsed
        have derives := derives_of_readStatement read
        have writes := (draftOfStatement_eq_ok_iff derives).mp remaining
        exact ⟨statement, ⟨derives, (exists_writes_iff derives).mp ⟨draft, writes⟩⟩, writes⟩
      · simp at parsed
    · rintro ⟨statement, ⟨derives, _⟩, writes⟩
      refine bind_eq_ok_iff.mpr ⟨statement, ?_, (draftOfStatement_eq_ok_iff derives).mpr writes⟩
      rw [parseStatement, readStatement_of_derives derives]

/-- What a statement writes down is the draft of every line that derives it. -/
theorem draftOfLine_of_writes {statement : Statement} {draft : RuleDraft}
    (derives : Derives (Text.stripComment physicalLine) statement)
    (writes : statement.Writes number draft) : draftOfLine number physicalLine = .ok draft := by
  have unrepeated := (exists_writes_iff derives).mp ⟨draft, writes⟩
  exact draftOfLine_eq_ok_iff.mpr (Or.inr ⟨statement, ⟨derives, unrepeated⟩, writes⟩)

theorem exists_draftOfLine_iff (number : UInt32) :
    (∃ draft, draftOfLine number physicalLine = .ok draft) ↔ ¬Faulty physicalLine := by
  simp only [draftOfLine_eq_ok_iff, Faulty, not_and, not_forall, not_not, ← Bool.not_eq_true]
  constructor
  · rintro ⟨draft, ⟨blank, _⟩ | ⟨statement, said, _⟩⟩ notBlank
    · exact absurd blank notBlank
    · exact ⟨statement, said⟩
  · intro saysUnlessBlank
    by_cases blank : Text.isBlankLine (Text.stripComment physicalLine) = true
    · exact ⟨.empty, Or.inl ⟨blank, rfl⟩⟩
    · obtain ⟨statement, said⟩ := saysUnlessBlank blank
      obtain ⟨draft, writes⟩ := (exists_writes_iff said.1).mpr said.2
      exact ⟨draft, Or.inr ⟨statement, said, writes⟩⟩

theorem line_eq_of_draftOfLine_eq_error {fault : ParseError}
    (failed : draftOfLine number physicalLine = .error fault) : fault.line = number := by
  rw [draftOfLine] at failed
  split at failed
  · simp at failed
  · rcases bind_eq_error_iff.mp failed with failed | ⟨statement, _, failed⟩
    · rw [parseStatement] at failed
      split at failed
      · simp at failed
      · rw [← Except.error.inj failed]
    · exact line_eq_of_draftOfStatement_eq_error failed

end Lines

/-! ## Whole texts -/

section Texts

variable {number : Nat} {lines : List (List Char)}

theorem draftOfLines_cons_eq_ok_iff {line : List Char} {draft : RuleDraft} :
    draftOfLines number (line :: lines) = .ok draft ↔
      ∃ first others, draftOfLine (UInt32.ofNat number) line = .ok first ∧
        draftOfLines (number + 1) lines = .ok others ∧ draft = first ++ others := by
  rw [draftOfLines, bind_eq_ok_iff]
  constructor
  · rintro ⟨first, drafted, remaining⟩
    obtain ⟨others, othersDrafted, same⟩ := bind_eq_ok_iff.mp remaining
    exact ⟨first, others, drafted, othersDrafted, (Except.ok.inj same).symm⟩
  · rintro ⟨first, others, drafted, othersDrafted, rfl⟩
    exact ⟨first, drafted, bind_eq_ok_iff.mpr ⟨others, othersDrafted, rfl⟩⟩

/-- A text without faulty line has a draft, and another one has not. -/
theorem exists_draftOfLines_iff :
    (∃ draft, draftOfLines number lines = .ok draft) ↔ ∀ line ∈ lines, ¬Faulty line := by
  induction lines generalizing number with
  | nil => simp [draftOfLines]
  | cons line rest ih =>
    rw [List.forall_mem_cons, ← exists_draftOfLine_iff (UInt32.ofNat number),
      ← @ih (number + 1)]
    simp only [draftOfLines_cons_eq_ok_iff]
    constructor
    · rintro ⟨_, first, others, drafted, othersDrafted, rfl⟩
      exact ⟨⟨first, drafted⟩, ⟨others, othersDrafted⟩⟩
    · rintro ⟨⟨first, drafted⟩, ⟨others, othersDrafted⟩⟩
      exact ⟨_, first, others, drafted, othersDrafted, rfl⟩

/-- The fault that is reported is that of the first faulty line. -/
theorem exists_draftOfLine_eq_error {fault : ParseError}
    (failed : draftOfLines number lines = .error fault) :
    ∃ before line after, lines = before ++ line :: after ∧
      (∀ earlier ∈ before, ¬Faulty earlier) ∧
        draftOfLine (UInt32.ofNat (number + before.length)) line = .error fault := by
  induction lines generalizing number with
  | nil => simp [draftOfLines] at failed
  | cons line rest ih =>
    rw [draftOfLines] at failed
    rcases bind_eq_error_iff.mp failed with failed | ⟨first, drafted, failed⟩
    · exact ⟨[], line, rest, rfl, by simp, failed⟩
    · rcases bind_eq_error_iff.mp failed with failed | ⟨others, _, failed⟩
      · obtain ⟨before, faultyLine, after, rfl, sound, failedThere⟩ := ih failed
        refine ⟨line :: before, faultyLine, after, rfl, ?_, ?_⟩
        · exact List.forall_mem_cons.mpr ⟨(exists_draftOfLine_iff _).mp ⟨first, drafted⟩, sound⟩
        · rw [List.length_cons, Nat.add_comm before.length 1, ← Nat.add_assoc]
          exact failedThere
      · simp [pure, Except.pure] at failed

/-- The fault that is reported has the number of the first faulty line. -/
theorem draftOfLines_eq_error {fault : ParseError}
    (failed : draftOfLines number lines = .error fault) :
    ∃ before line after, lines = before ++ line :: after ∧
      (∀ earlier ∈ before, ¬Faulty earlier) ∧ Faulty line ∧
        fault.line = UInt32.ofNat (number + before.length) := by
  obtain ⟨before, line, after, whole, sound, failedThere⟩ := exists_draftOfLine_eq_error failed
  refine ⟨before, line, after, whole, sound, ?_, line_eq_of_draftOfLine_eq_error failedThere⟩
  by_contra faultless
  obtain ⟨draft, drafted⟩ := (exists_draftOfLine_iff _).mpr faultless
  rw [drafted] at failedThere
  simp at failedThere

end Texts

end RuleText

end Circulation
