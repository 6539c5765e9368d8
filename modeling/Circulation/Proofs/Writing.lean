import Circulation.Proofs.Reading

/-!
Contract: statements written as lines of rule text.

Owns:
- one written form of every statement, in letters and with a separator between any two words;
- which statements can be written;
- that the written form of such a statement derives it.

Does not own: other ways to write a statement, or texts of several lines.
-/

namespace Circulation

/-! ## Written forms -/

namespace Statement

/-- One constraint: the letter of the facet, then the condition. -/
def writeConstraint (constraint : Facet × Condition) : String :=
  constraint.1.letter.toString ++ " " ++ constraint.2.render

/-- The constraints with a plus between any two, or `all` where nothing is demanded. -/
def writeConstraints (constraints : List (Facet × Condition)) : String :=
  if constraints.isEmpty then "all" else " + ".intercalate (constraints.map writeConstraint)

def writeAssignments (assignments : List (PolicyKind × String)) : String :=
  " ".intercalate (assignments.map PolicyMap.renderEntry)

/-- The line that says a statement. -/
def write : Statement → String
  | fallback assignments => "fallback-policy" ++ ": " ++ writeAssignments assignments
  | rule constraints assignments =>
      writeConstraints constraints ++ ": " ++ writeAssignments assignments

end Statement

namespace RuleText

/-- What the grammar takes for an id: a word, whichever keyword it may also be. -/
def IsId (id : String) : Prop :=
  id.toList ≠ [] ∧ ∀ char ∈ id.toList, isWordChar char = true

end RuleText

instance (id : String) : Decidable (RuleText.IsId id) :=
  decidable_of_iff ((!id.toList.isEmpty && id.toList.all RuleText.isWordChar) = true)
    (by simp [RuleText.IsId])

/-- The set can be listed. -/
def IdSet.Writable (ids : IdSet) : Prop :=
  ids.ids ≠ [] ∧ ∀ id ∈ ids.ids, RuleText.IsId id

instance (ids : IdSet) : Decidable ids.Writable :=
  inferInstanceAs (Decidable (_ ∧ _))

/-- The condition demands something that can be listed. -/
def Condition.Writable : Condition → Prop
  | any => False
  | isIn ids => ids.Writable
  | notIn ids => ids.Writable

instance : (condition : Condition) → Decidable condition.Writable
  | .any => inferInstanceAs (Decidable False)
  | .isIn ids => inferInstanceAs (Decidable ids.Writable)
  | .notIn ids => inferInstanceAs (Decidable ids.Writable)

/-- The statement assigns something, and what it lists can be listed. -/
def Statement.Writable : Statement → Prop
  | fallback assignments =>
      assignments ≠ [] ∧ ∀ assignment ∈ assignments, RuleText.IsId assignment.2
  | rule constraints assignments =>
      (∀ constraint ∈ constraints, constraint.2.Writable) ∧
        assignments ≠ [] ∧ ∀ assignment ∈ assignments, RuleText.IsId assignment.2

instance : (statement : Statement) → Decidable statement.Writable
  | .fallback _ => inferInstanceAs (Decidable (_ ∧ _))
  | .rule _ _ => inferInstanceAs (Decidable (_ ∧ _ ∧ _))

namespace RuleText

/-! ## Texts after one another -/

/-- A text that no word before it can reach into. -/
def Separated (text : List Char) : Prop :=
  ∀ char ∈ text.head?, isWordChar char = false

theorem Lexes.append {text rest : List Char} {tokens more : List Token}
    (first : Lexes text tokens) (separated : Separated rest) (second : Lexes rest more) :
    Lexes (text ++ rest) (tokens ++ more) := by
  induction first with
  | nil => exact second
  | blank separates others ih => exact .blank separates ih
  | mark others ih => exact .mark ih
  | @word word text tokens nonempty inside longest others ih =>
    rw [List.append_assoc]
    refine .word nonempty inside ?_ ih
    -- What stops the word is its own text, or where that is empty what follows it.
    cases text with
    | nil => exact separated
    | cons char text => exact longest

theorem IsId.lexes {id : String} (isId : IsId id) : Lexes id.toList [.word id] := by
  have lexes := Lexes.word isId.1 isId.2 (by simp) .nil
  rwa [List.append_nil] at lexes

/-- A text between two others that passes its own tokens, and that no word reaches into. -/
structure Separator (separator : String) (tokens : List Token) : Prop where
  separated : ∀ text, Separated (separator.toList ++ text)
  passes : ∀ text, Passes (separator.toList ++ text) tokens text

theorem separator_space : Separator " " [] where
  separated text := by simp [Separated]; decide
  passes text more lexes := .blank rfl lexes

theorem separator_comma : Separator ", " [.mark .comma] where
  separated text := by simp [Separated]; decide
  passes text more lexes := @Lexes.mark .comma _ _ (.blank rfl lexes)

theorem separator_plus : Separator " + " [.mark .plus] where
  separated text := by simp [Separated]; decide
  passes text more lexes := .blank rfl (@Lexes.mark .plus _ _ (.blank rfl lexes))

theorem separator_colon : Separator ": " [.mark .colon] where
  separated text := by simp [Separated]; decide
  passes text more lexes := @Lexes.mark .colon _ _ (.blank rfl lexes)

theorem toList_append_append (first separator second : String) :
    (first ++ separator ++ second).toList =
      first.toList ++ (separator.toList ++ second.toList) := by
  rw [String.toList_append, String.toList_append, List.append_assoc]

/-- The letter of a keyword is a word, and so can be taken for an id. -/
theorem isId_toString {char : Char} (inWord : isWordChar char = true) : IsId char.toString := by
  have chars : char.toString.toList = [char] := String.toList_singleton char
  rw [IsId, chars]
  simp [inWord]

/-! ## Lists with a separator -/

section Lists

variable {α : Type} {separator : String} {separates : List Token}

/-- What a list has after its first entry. -/
def writeMore (separator : String) (write : α → String) (entries : List α) : List Char :=
  entries.flatMap fun entry => separator.toList ++ (write entry).toList

theorem toList_intercalate_cons (separator : String) (write : α → String) (first : α)
    (rest : List α) :
    (separator.intercalate ((first :: rest).map write)).toList =
      (write first).toList ++ writeMore separator write rest := by
  rw [String.toList_intercalate]
  induction rest generalizing first with
  | nil => simp [writeMore]
  | cons second rest ih =>
    simp only [List.map_cons, List.intercalate_cons_cons] at ih ⊢
    rw [ih second, writeMore, writeMore, List.flatMap_cons]
    simp only [List.append_assoc]

variable (write : α → String) (derives : List Token → α → Prop)
  {derivesMore : List Token → List α → Prop}

/-- The entries of a list after its first, each behind a separator, derive what the grammar's loop
over such entries derives. -/
theorem exists_lexes_writeMore (passed : Separator separator separates) (done : derivesMore [] [])
    (next : ∀ {tokens others entry entries}, derives tokens entry → derivesMore others entries →
      derivesMore (separates ++ (tokens ++ others)) (entry :: entries))
    {entries : List α}
    (each : ∀ entry ∈ entries, ∃ tokens, Lexes (write entry).toList tokens ∧ derives tokens entry) :
    ∃ tokens, Separated (writeMore separator write entries) ∧
      Lexes (writeMore separator write entries) tokens ∧ derivesMore tokens entries := by
  induction entries with
  | nil => exact ⟨[], by simp [writeMore, Separated], .nil, done⟩
  | cons entry entries ih =>
    obtain ⟨⟨tokens, lexes, derived⟩, others⟩ := List.forall_mem_cons.mp each
    obtain ⟨more, separated, lexesMore, derivedMore⟩ := ih others
    rw [writeMore, List.flatMap_cons, ← writeMore, List.append_assoc]
    exact ⟨separates ++ (tokens ++ more), passed.separated _,
      passed.passes _ _ (lexes.append separated lexesMore), next derived derivedMore⟩

/-- A list that is not empty derives its first entry, and then the others. -/
theorem exists_lexes_intercalate (passed : Separator separator separates)
    (done : derivesMore [] [])
    (next : ∀ {tokens others entry entries}, derives tokens entry → derivesMore others entries →
      derivesMore (separates ++ (tokens ++ others)) (entry :: entries))
    {first : α} {rest : List α}
    (each : ∀ entry ∈ first :: rest,
      ∃ tokens, Lexes (write entry).toList tokens ∧ derives tokens entry) :
    ∃ tokens others,
      Lexes (separator.intercalate ((first :: rest).map write)).toList (tokens ++ others) ∧
        derives tokens first ∧ derivesMore others rest := by
  obtain ⟨⟨tokens, lexes, derived⟩, othersEach⟩ := List.forall_mem_cons.mp each
  obtain ⟨others, separated, lexesMore, derivedMore⟩ :=
    exists_lexes_writeMore write derives passed done next othersEach
  refine ⟨tokens, others, ?_, derived, derivedMore⟩
  rw [toList_intercalate_cons]
  exact lexes.append separated lexesMore

end Lists

/-! ## Parts of statements -/

theorem exists_lexes_ids {ids : IdSet} (writable : ids.Writable) :
    ∃ tokens, Lexes (", ".intercalate ids.ids).toList tokens ∧ DerivesIds tokens ids.ids := by
  obtain ⟨nonempty, words⟩ := writable
  obtain ⟨first, rest, whole⟩ := List.exists_cons_of_ne_nil nonempty
  rw [whole] at words ⊢
  have listed := exists_lexes_intercalate id (fun tokens id => tokens = [Token.word id])
    separator_comma DerivesMoreIds.done
    (by
      rintro tokens others id ids rfl more
      exact .afterComma more)
    (fun id member => ⟨_, (words id member).lexes, rfl⟩)
  rw [List.map_id_fun] at listed
  obtain ⟨_, others, lexes, rfl, more⟩ := listed
  exact ⟨_, lexes, .first more⟩

theorem exists_lexes_condition {condition : Condition} (writable : condition.Writable) :
    ∃ tokens, Lexes condition.render.toList tokens ∧ DerivesCondition tokens condition := by
  cases condition with
  | any => exact writable.elim
  | isIn ids =>
    obtain ⟨tokens, lexes, listed⟩ := exists_lexes_ids writable
    have demanded := DerivesCondition.included listed
    rw [IdSet.ofList_ids] at demanded
    exact ⟨tokens, lexes, demanded⟩
  | notIn ids =>
    obtain ⟨tokens, lexes, listed⟩ := exists_lexes_ids writable
    have demanded := DerivesCondition.excluded listed
    rw [IdSet.ofList_ids] at demanded
    refine ⟨_, ?_, demanded⟩
    rw [Condition.render, String.toList_append]
    exact @Lexes.mark .exclamation _ _ lexes

/-- A letter and what stands behind a blank. -/
theorem lexes_letter {letter : Char} (inWord : isWordChar letter = true) {text : String}
    {tokens : List Token} (lexes : Lexes text.toList tokens) :
    Lexes (letter.toString ++ " " ++ text).toList (.word letter.toString :: tokens) := by
  rw [toList_append_append]
  exact (isId_toString inWord).lexes.append (separator_space.separated _)
    (separator_space.passes _ _ lexes)

theorem isWordChar_letter (facet : Facet) : isWordChar facet.letter = true := by
  have letters : (Facet.all.all fun facet => isWordChar facet.letter) = true := by decide
  exact List.all_eq_true.mp letters facet facet.mem_all

theorem exists_lexes_constraint {constraint : Facet × Condition}
    (writable : constraint.2.Writable) :
    ∃ tokens, Lexes (Statement.writeConstraint constraint).toList tokens ∧
      DerivesConstraint tokens constraint := by
  obtain ⟨facet, condition⟩ := constraint
  obtain ⟨tokens, lexes, demanded⟩ := exists_lexes_condition writable
  exact ⟨_, lexes_letter (isWordChar_letter facet) lexes, .intro facet.ofKeyword?_letter demanded⟩

theorem exists_lexes_constraints {constraints : List (Facet × Condition)}
    (writable : ∀ constraint ∈ constraints, constraint.2.Writable) :
    ∃ tokens, Lexes (Statement.writeConstraints constraints).toList tokens ∧
      DerivesConditions tokens constraints := by
  cases constraints with
  | nil =>
    have keyword : IsId "all" := by decide
    exact ⟨_, keyword.lexes, .all⟩
  | cons first rest =>
    obtain ⟨tokens, others, lexes, here, more⟩ := exists_lexes_intercalate
      Statement.writeConstraint DerivesConstraint separator_plus DerivesMoreConstraints.done .next
      (fun constraint member => exists_lexes_constraint (writable constraint member))
    exact ⟨_, lexes, .first here more⟩

/-- A kind keyword and an id. -/
def DerivesAssignment (tokens : List Token) (assignment : PolicyKind × String) : Prop :=
  ∃ keyword, PolicyKind.ofKeyword? keyword = some assignment.1 ∧
    tokens = [.word keyword, .word assignment.2]

theorem exists_lexes_assignments {assignments : List (PolicyKind × String)}
    (nonempty : assignments ≠ []) (words : ∀ assignment ∈ assignments, IsId assignment.2) :
    ∃ tokens, Lexes (Statement.writeAssignments assignments).toList tokens ∧
      DerivesAssignments tokens assignments := by
  obtain ⟨first, rest, rfl⟩ := List.exists_cons_of_ne_nil nonempty
  obtain ⟨_, others, lexes, ⟨keyword, named, rfl⟩, more⟩ := exists_lexes_intercalate
    PolicyMap.renderEntry DerivesAssignment separator_space DerivesMoreAssignments.done
    (by
      rintro _ others assignment assignments ⟨keyword, named, rfl⟩ more
      exact .next named more)
    (by
      rintro ⟨kind, id⟩ member
      have letter : isWordChar kind.letter = true := by cases kind <;> decide
      exact ⟨_, lexes_letter letter (words _ member).lexes, _, kind.ofKeyword?_letter, rfl⟩)
  exact ⟨_, lexes, .first named more⟩

/-! ## Statements -/

/-- A statement that can be written is what its written form derives. -/
theorem derives_write {statement : Statement} (writable : statement.Writable) :
    Derives statement.write.toList statement := by
  cases statement with
  | fallback assignments =>
    obtain ⟨tokens, lexes, assigned⟩ := exists_lexes_assignments writable.1 writable.2
    have keyword : IsId "fallback-policy" := by decide
    refine ⟨_, ?_, .fallback assigned⟩
    unfold Statement.write
    rw [toList_append_append]
    exact keyword.lexes.append (separator_colon.separated _) (separator_colon.passes _ _ lexes)
  | rule constraints assignments =>
    obtain ⟨tokens, lexes, demanded⟩ := exists_lexes_constraints writable.1
    obtain ⟨others, lexesOthers, assigned⟩ :=
      exists_lexes_assignments writable.2.1 writable.2.2
    refine ⟨_, ?_, .rule demanded assigned⟩
    unfold Statement.write
    rw [toList_append_append]
    exact lexes.append (separator_colon.separated _) (separator_colon.passes _ _ lexesOthers)

end RuleText

end Circulation
