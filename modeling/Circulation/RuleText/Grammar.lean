import Circulation.Outcome
import Circulation.RuleText.Statement
import Circulation.RuleText.Word

/-!
Contract: reading one line of rule text, without its comment, as a statement.

Owns:
- the grammar, one reading function for each of its parts;
- where reading stops when a line is no statement;
- that every part that is read shortens the text.

Does not own: repeated facets and kinds, or the division of a text into lines.

    fallback    := "fallback-policy" ":" assignment+
    rule        := conditions ":" assignment+
    conditions  := "all" | constraint ("+" constraint)*
    constraint  := facet ("!" ids | "not" "(" ids ")" | ids)
    ids         := id (","? id)*
    assignment  := kind id

A reading function that succeeds gives what it read and the text after it. What has been read is
never read again in another way: the first characters of a part decide which form it has.
-/

namespace Circulation.RuleText

/-! ## Where reading stops -/

/-- Why reading stopped, and the text from there on. -/
structure Stop where
  fault : SyntaxFault
  rest : List Char
deriving DecidableEq, Repr

/-! ## Ids -/

def readPolicyId (text : List Char) : Except Stop (String × List Char) :=
  match word? (skipBlanks text) with
  | some found => .ok found
  | none => .error ⟨.missingPolicyId, skipBlanks text⟩

/-- The text after what may stand between two ids: blanks, and at most one comma. -/
def skipSeparator (text : List Char) : List Char :=
  match skipBlanks text with
  | ',' :: rest => skipBlanks rest
  | rest => rest

theorem length_skipSeparator_le (text : List Char) :
    (skipSeparator text).length ≤ text.length := by
  have skipped := length_skipBlanks_le text
  unfold skipSeparator
  split
  · next rest found =>
    have further := length_skipBlanks_le rest
    rw [found, List.length_cons] at skipped
    omega
  · exact skipped

/-- The further ids of a list, as many as there are. A separator that no id follows is left. -/
def readMoreIds (text : List Char) : List String × List Char :=
  match _ : word? (skipSeparator text) with
  | none => ([], text)
  | some (id, rest) =>
      let (ids, final) := readMoreIds rest
      (id :: ids, final)
termination_by text.length
decreasing_by
  rename_i found
  exact Nat.lt_of_lt_of_le (length_lt_of_word? found) (length_skipSeparator_le text)

def readIds (text : List Char) : Except Stop (List String × List Char) :=
  match word? (skipBlanks text) with
  | none => .error ⟨.missingListedId, skipBlanks text⟩
  | some (id, rest) =>
      let (ids, final) := readMoreIds rest
      .ok (id :: ids, final)

/-! ## Conditions -/

def readFacet (text : List Char) : Except Stop (Facet × List Char) :=
  match word? (skipBlanks text) with
  | none => .error ⟨.unknownFacet, skipBlanks text⟩
  | some (word, rest) =>
      match Facet.ofKeyword? word with
      | none => .error ⟨.unknownFacet, skipBlanks text⟩
      | some facet => .ok (facet, rest)

/-- The text inside the parenthesis that `not` opens. -/
def skipNot? (text : List Char) : Option (List Char) :=
  match skipLiteral? "not".toList text with
  | none => none
  | some rest =>
      match skipBlanks rest with
      | '(' :: inside => some inside
      | _ => none

/-- The text after the parenthesis that closes a list of ids. -/
def skipClosing (text : List Char) : Except Stop (List Char) :=
  match skipBlanks text with
  | ')' :: rest => .ok rest
  | rest => .error ⟨.unclosedIdList, rest⟩

/-- What is demanded of a facet: not to be in a list, in either spelling, or to be in it. -/
def readCondition (text : List Char) : Except Stop (Condition × List Char) :=
  match skipBlanks text with
  | '!' :: listed => do
      let (ids, rest) ← readIds listed
      return (.notIn (.ofList ids), rest)
  | start =>
      match skipNot? start with
      | some inside => do
          let (ids, rest) ← readIds inside
          let rest ← skipClosing rest
          return (.notIn (.ofList ids), rest)
      | none => do
          let (ids, rest) ← readIds start
          return (.isIn (.ofList ids), rest)

def readConstraint (text : List Char) : Except Stop ((Facet × Condition) × List Char) := do
  let (facet, rest) ← readFacet text
  let (condition, rest) ← readCondition rest
  return ((facet, condition), rest)

/-! ### Reading consumes text -/

theorem length_readMoreIds_le (text : List Char) :
    (readMoreIds text).2.length ≤ text.length := by
  fun_induction readMoreIds text with
  | case1 text _ => exact Nat.le_refl _
  | case2 text id rest found ids final more ih =>
    have step := Nat.lt_of_lt_of_le (length_lt_of_word? found) (length_skipSeparator_le text)
    rw [more] at ih
    exact Nat.le_trans ih (Nat.le_of_lt step)

theorem length_lt_of_readIds {text rest : List Char} {ids : List String}
    (read : readIds text = .ok (ids, rest)) : rest.length < text.length := by
  simp only [readIds] at read
  split at read
  · simp at read
  · next id afterFirst found =>
    simp only [Except.ok.injEq, Prod.mk.injEq] at read
    have first := length_lt_of_word? found
    have skipped := length_skipBlanks_le text
    have more := length_readMoreIds_le afterFirst
    rw [← read.2]
    omega

theorem length_lt_of_readFacet {text rest : List Char} {facet : Facet}
    (read : readFacet text = .ok (facet, rest)) : rest.length < text.length := by
  simp only [readFacet] at read
  split at read
  · simp at read
  · next word afterWord found =>
    split at read
    · simp at read
    · simp only [Except.ok.injEq, Prod.mk.injEq] at read
      have first := length_lt_of_word? found
      have skipped := length_skipBlanks_le text
      rw [← read.2]
      omega

theorem length_lt_of_skipNot? {text inside : List Char}
    (found : skipNot? text = some inside) : inside.length < text.length := by
  unfold skipNot? at found
  split at found
  · simp at found
  · next rest begun =>
    have whole := congrArg List.length (skipLiteral?_eq_some_iff.mp begun)
    have skipped := length_skipBlanks_le rest
    rw [List.length_append] at whole
    split at found
    · next afterOpening opened =>
      rw [opened, List.length_cons] at skipped
      simp only [Option.some.injEq] at found
      subst found
      omega
    · simp at found

theorem length_lt_of_skipClosing {text rest : List Char}
    (closed : skipClosing text = .ok rest) : rest.length < text.length := by
  have skipped := length_skipBlanks_le text
  unfold skipClosing at closed
  split at closed
  · next afterClosing found =>
    rw [found, List.length_cons] at skipped
    simp only [Except.ok.injEq] at closed
    subst closed
    omega
  · simp at closed

theorem length_lt_of_readCondition {text rest : List Char} {condition : Condition}
    (read : readCondition text = .ok (condition, rest)) : rest.length < text.length := by
  have skipped := length_skipBlanks_le text
  unfold readCondition at read
  split at read
  · next listed found =>
    rw [found, List.length_cons] at skipped
    obtain ⟨⟨ids, afterIds⟩, idsRead, same⟩ := bind_eq_ok_iff.mp read
    have shorter := length_lt_of_readIds idsRead
    simp only [pure, Except.pure, Except.ok.injEq, Prod.mk.injEq] at same
    rw [← same.2]
    omega
  · split at read
    · next inside opened =>
      have entered := length_lt_of_skipNot? opened
      obtain ⟨⟨ids, afterIds⟩, idsRead, closing⟩ := bind_eq_ok_iff.mp read
      have shorter := length_lt_of_readIds idsRead
      obtain ⟨afterClosing, closed, same⟩ := bind_eq_ok_iff.mp closing
      have left := length_lt_of_skipClosing closed
      simp only [pure, Except.pure, Except.ok.injEq, Prod.mk.injEq] at same
      rw [← same.2]
      omega
    · obtain ⟨⟨ids, afterIds⟩, idsRead, same⟩ := bind_eq_ok_iff.mp read
      have shorter := length_lt_of_readIds idsRead
      simp only [pure, Except.pure, Except.ok.injEq, Prod.mk.injEq] at same
      rw [← same.2]
      omega

theorem length_lt_of_readConstraint {text rest : List Char} {constraint : Facet × Condition}
    (read : readConstraint text = .ok (constraint, rest)) : rest.length < text.length := by
  unfold readConstraint at read
  obtain ⟨⟨facet, afterFacet⟩, facetRead, remaining⟩ := bind_eq_ok_iff.mp read
  obtain ⟨⟨condition, afterCondition⟩, conditionRead, same⟩ := bind_eq_ok_iff.mp remaining
  have first := length_lt_of_readFacet facetRead
  have second := length_lt_of_readCondition conditionRead
  simp only [pure, Except.pure, Except.ok.injEq, Prod.mk.injEq] at same
  rw [← same.2]
  omega

/-! ## Lists of conditions -/

/-- The further constraints of a line, each after a plus sign. -/
def readMoreConstraints (text : List Char) : Except Stop (List (Facet × Condition) × List Char) :=
  match _ : skipBlanks text with
  | '+' :: afterPlus =>
      match _ : readConstraint afterPlus with
      | .error stop => .error stop
      | .ok (constraint, rest) =>
          match readMoreConstraints rest with
          | .error stop => .error stop
          | .ok (constraints, final) => .ok (constraint :: constraints, final)
  | _ => .ok ([], text)
termination_by text.length
decreasing_by
  rename_i plus read
  have skipped := length_skipBlanks_le text
  rw [plus, List.length_cons] at skipped
  exact Nat.lt_trans (length_lt_of_readConstraint read) (Nat.lt_of_succ_le skipped)

/-- The text after the word `all`, if that is the whole word at its start. -/
def skipAll? (text : List Char) : Option (List Char) :=
  match word? text with
  | some (word, rest) => if word = "all" then some rest else none
  | none => none

/-- The constraints of a line: none, written as the word `all`, or one and more. -/
def readConditions (text : List Char) : Except Stop (List (Facet × Condition) × List Char) :=
  match skipAll? (skipBlanks text) with
  | some rest => .ok ([], rest)
  | none => do
      let (constraint, rest) ← readConstraint text
      let (constraints, rest) ← readMoreConstraints rest
      return (constraint :: constraints, rest)

/-! ## Assignments -/

/-- The keyword of a policy kind, if the text goes on with one. -/
def kind? (text : List Char) : Option (PolicyKind × List Char) := do
  let (word, rest) ← word? (skipBlanks text)
  let kind ← PolicyKind.ofKeyword? word
  return (kind, rest)

theorem length_lt_of_kind? {text rest : List Char} {kind : PolicyKind}
    (found : kind? text = some (kind, rest)) : rest.length < text.length := by
  obtain ⟨⟨word, afterWord⟩, foundWord, named⟩ := Option.bind_eq_some_iff.mp found
  obtain ⟨namedKind, _, same⟩ := Option.bind_eq_some_iff.mp named
  simp only [pure, Option.some.injEq, Prod.mk.injEq] at same
  have first := length_lt_of_word? foundWord
  have skipped := length_skipBlanks_le text
  rw [← same.2]
  omega

theorem length_lt_of_readPolicyId {text rest : List Char} {id : String}
    (read : readPolicyId text = .ok (id, rest)) : rest.length < text.length := by
  have skipped := length_skipBlanks_le text
  simp only [readPolicyId] at read
  split at read
  · next found foundWord =>
    simp only [Except.ok.injEq] at read
    have first := length_lt_of_word? (read ▸ foundWord)
    omega
  · simp at read

/-- As many assignments as there are; they end where no keyword of a policy kind follows. -/
def readMoreAssignments (text : List Char) : Except Stop (List (PolicyKind × String) × List Char) :=
  match _ : kind? text with
  | none => .ok ([], text)
  | some (kind, afterKind) =>
      match _ : readPolicyId afterKind with
      | .error stop => .error stop
      | .ok (id, rest) =>
          match readMoreAssignments rest with
          | .error stop => .error stop
          | .ok (assignments, final) => .ok ((kind, id) :: assignments, final)
termination_by text.length
decreasing_by
  rename_i found read
  exact Nat.lt_trans (length_lt_of_readPolicyId read) (length_lt_of_kind? found)

def readAssignments (text : List Char) : Except Stop (List (PolicyKind × String) × List Char) :=
  match kind? text with
  | none => .error ⟨.unknownKind, skipBlanks text⟩
  | some _ => readMoreAssignments text

/-! ## Statements -/

def fallbackKeyword : List Char :=
  "fallback-policy".toList

def skipColon (text : List Char) : Except Stop (List Char) :=
  match skipBlanks text with
  | ':' :: rest => .ok rest
  | rest => .error ⟨.missingColon, rest⟩

def readEnd (text : List Char) : Except Stop Unit :=
  match skipBlanks text with
  | [] => .ok ()
  | rest => .error ⟨.trailingText, rest⟩

/-- A whole line: fallbacks if it begins with their keyword, or else a rule. -/
def readStatement (line : List Char) : Except Stop Statement :=
  match skipLiteral? fallbackKeyword (skipBlanks line) with
  | some afterKeyword => do
      let rest ← skipColon afterKeyword
      let (assignments, rest) ← readAssignments rest
      readEnd rest
      return .fallback assignments
  | none => do
      let (constraints, rest) ← readConditions line
      let rest ← skipColon rest
      let (assignments, rest) ← readAssignments rest
      readEnd rest
      return .rule constraints assignments

end Circulation.RuleText
