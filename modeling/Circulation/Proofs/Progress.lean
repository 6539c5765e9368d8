import Circulation.Proofs.Backtracking
import Circulation.Proofs.Parsing
import Circulation.RuleText.Draft
import Mathlib

/-!
Contract: lines of rule text, read by trying one part after the other.

Owns:
- readers for the parts of a line, with a loop for further ids, one for further constraints and one
  for further assignments;
- that the readers do what the reading functions do;
- that reading a line by trying ends, that every turn of its loops makes progress, and that it stops
  between two characters of the line.

Does not own: the grammar of a line.

The reading functions decide before they pass anything whether a line begins with the keyword of
fallbacks or with `all`, whether `not` opens a parenthesis, and whether a list goes on. The readers
find out by passing it, and go back.
-/

namespace Circulation.RuleText

/-! ## The grammar -/

namespace Reader

def blanks : Reader Unit :=
  skipping isBlank

def mark (mark : Mark) : Reader Unit :=
  literal [mark.char]

def nextId (fault : SyntaxFault) : Reader String := do
  blanks
  word.named fault

/-- What may stand between two ids. -/
def separator : Reader Unit := do
  blanks
  let _ ← optional (mark .comma)

def furtherId : Reader String := do
  separator
  nextId .missingListedId

def ids : Reader (List String) := do
  let id ← nextId .missingListedId
  let others ← many furtherId
  return id :: others

def facet : Reader Facet := do
  blanks
  (word.meaning Facet.ofKeyword?).named .unknownFacet

def excluded : Reader Condition := do
  mark .exclamation
  let listed ← ids.committed
  return .notIn (.ofList listed)

def enclosed : Reader Condition := do
  literal "not".toList
  blanks
  mark .opening
  let listed ← ids.committed
  blanks
  ((mark .closing).named .unclosedIdList).committed
  return .notIn (.ofList listed)

def included : Reader Condition := do
  let listed ← ids
  return .isIn (.ofList listed)

def condition : Reader Condition := do
  blanks
  excluded.either (enclosed.either included)

def constraint : Reader (Facet × Condition) := do
  let facet ← facet
  let condition ← condition.committed
  return (facet, condition)

def furtherConstraint : Reader (Facet × Condition) := do
  blanks
  mark .plus
  constraint.committed

/-- The word `all`. -/
def allWord : Reader Unit :=
  word.meaning fun word => if word = "all" then some () else none

def conditions : Reader (List (Facet × Condition)) := do
  blanks
  match ← optional allWord with
  | some () => return []
  | none =>
      let first ← constraint
      let others ← many furtherConstraint
      return first :: others

def kind : Reader PolicyKind := do
  blanks
  (word.meaning PolicyKind.ofKeyword?).named .unknownKind

def assignment : Reader (PolicyKind × String) := do
  let kind ← kind
  let id ← (nextId .missingPolicyId).committed
  return (kind, id)

def assignments : Reader (List (PolicyKind × String)) := do
  let first ← assignment
  let others ← many assignment
  return first :: others

def colon : Reader Unit := do
  blanks
  (mark .colon).named .missingColon

def lineEnd : Reader Unit := do
  blanks
  textEnd.named .trailingText

/-- The assignments of a line up to its end, behind its colon. -/
def assigned (made : List (PolicyKind × String) → Statement) : Reader Statement := do
  colon.committed
  let assignments ← assignments.committed
  lineEnd.committed
  return made assignments

def statement : Reader Statement := do
  blanks
  match ← optional (literal fallbackKeyword) with
  | some () => assigned .fallback
  | none =>
      let conditions ← conditions.committed
      assigned (.rule conditions)

/-- A statement, and nothing behind it. -/
def wholeLine : Reader Statement := do
  let statement ← statement
  textEnd
  return statement

end Reader

open Reader

/-! ## Ids -/

section Ids

variable {text : List Char}

theorem ends_blanks (text : List Char) : blanks.Ends text (.ok ()) (skipBlanks text) :=
  ends_skipping isBlank text

theorem ends_mark (mark : Mark) {rest : List Char} (begins : text = mark.char :: rest) :
    (Reader.mark mark).Ends text (.ok ()) rest :=
  ends_literal begins

theorem ends_mark_of_ne (mark : Mark) (absent : ∀ rest, text ≠ mark.char :: rest) :
    (Reader.mark mark).Ends text (.error (.missed none)) text := by
  apply ends_literal_of_none
  rw [Option.eq_none_iff_forall_ne_some]
  intro rest found
  exact absent rest (skipLiteral?_eq_some_iff.mp found)

theorem ends_nextId (fault : SyntaxFault) {rest : List Char} {id : String}
    (found : word? (skipBlanks text) = some (id, rest)) : (nextId fault).Ends text (.ok id) rest :=
  (ends_blanks text).bind ((ends_word found).failing _)

theorem ends_nextId_of_none (fault : SyntaxFault) (missing : word? (skipBlanks text) = none) :
    (nextId fault).Ends text (.error (.missed fault)) (skipBlanks text) :=
  (ends_blanks text).bind ((ends_word_of_none missing).failing _)

/-- Before the next id blanks are skipped once more. -/
theorem ends_separator (text : List Char) :
    ∃ middle, separator.Ends text (.ok ()) middle ∧ skipBlanks middle = skipSeparator text := by
  unfold skipSeparator
  split
  · next rest comma =>
    have found := (ends_mark .comma comma).optional
    exact ⟨rest, (ends_blanks text).bind (found.bind (ends_pure _ _)), rfl⟩
  · next absent =>
    have missed := (ends_mark_of_ne .comma absent).optional_of_missed
    exact ⟨skipBlanks text, (ends_blanks text).bind (missed.bind (ends_pure _ _)),
      skipBlanks_skipBlanks text⟩

theorem ends_furtherId {rest : List Char} {id : String}
    (found : word? (skipSeparator text) = some (id, rest)) : furtherId.Ends text (.ok id) rest := by
  obtain ⟨middle, ends, skipped⟩ := ends_separator text
  exact ends.bind (ends_nextId _ (skipped ▸ found))

theorem ends_furtherId_of_none (missing : word? (skipSeparator text) = none) :
    furtherId.Ends text (.error (.missed (some .missingListedId))) (skipSeparator text) := by
  obtain ⟨middle, ends, skipped⟩ := ends_separator text
  rw [← skipped] at missing ⊢
  exact ends.bind (ends_nextId_of_none _ missing)

/-- The last turn looks behind the separator, and gives it back. -/
theorem ends_many_furtherId (text : List Char) :
    (many furtherId).Ends text (.ok (readMoreIds text).1) (readMoreIds text).2 := by
  fun_induction readMoreIds text with
  | case1 text missing => exact (ends_furtherId_of_none missing).many_of_missed
  | case2 text id rest found ids final more ih =>
    have shorter := Nat.lt_of_lt_of_le (length_lt_of_word? found) (length_skipSeparator_le text)
    rw [more] at ih
    exact (ends_furtherId found).many_of_ok shorter ih

theorem agrees_ids (text : List Char) :
    Agrees Failure.fault? ids text Prod.fst Prod.snd (readIds text) := by
  unfold readIds
  split
  · next missing => exact .stop rfl ((ends_nextId_of_none _ missing).bind_error _)
  · next id rest found =>
    exact .success ((ends_nextId _ found).bind
      ((ends_many_furtherId rest).bind (ends_pure _ _)))

end Ids

/-! ## Conditions -/

section Conditions

variable {text : List Char}

theorem agrees_facet (text : List Char) :
    Agrees Failure.fault? facet text Prod.fst Prod.snd (readFacet text) := by
  apply Agrees.after (ends_blanks text)
  unfold readFacet
  split
  · next missing => exact .stop rfl (((ends_word_of_none missing).meaning_error _).failing _)
  · next word rest found =>
    split
    · next unknown => exact .stop rfl (((ends_word found).meaning_of_none unknown).failing _)
    · next facet known => exact .success (((ends_word found).meaning known).failing _)

theorem agrees_excluded (listed : List Char) :
    Agrees Failure.refusal? excluded (Mark.exclamation.char :: listed) Prod.fst Prod.snd
      (readIds listed >>= fun read => .ok (.notIn (.ofList read.1), read.2)) := by
  apply Agrees.after (ends_mark .exclamation rfl)
  exact (agrees_ids listed).committed.bind fun _ => .success (ends_pure _ _)

theorem agrees_closing (text : List Char) :
    Agrees Failure.refusal? ((Reader.mark .closing).named .unclosedIdList).committed
      (skipBlanks text) (fun _ => ()) id (skipClosing text) := by
  apply Agrees.committed
  unfold skipClosing
  split
  · next rest closes => exact .success ((ends_mark .closing closes).failing _)
  · next absent => exact .stop rfl ((ends_mark_of_ne .closing absent).failing _)

theorem agrees_enclosed {inside : List Char} (opened : skipNot? text = some inside) :
    Agrees Failure.refusal? enclosed text Prod.fst Prod.snd
      (readIds inside >>= fun read => skipClosing read.2 >>= fun rest =>
        .ok (.notIn (.ofList read.1), rest)) := by
  obtain ⟨afterNot, found, opens⟩ := skipNot?_eq_some_iff.mp opened
  apply Agrees.after (ends_literal (word?_eq_some_iff.mp found).1)
  apply Agrees.after (ends_blanks afterNot)
  apply Agrees.after (ends_mark .opening opens)
  apply (agrees_ids inside).committed.bind
  intro read
  apply Agrees.after (ends_blanks read.2)
  exact (agrees_closing read.2).bind fun _ => .success (ends_pure _ _)

/-- Where `not` opens no parenthesis, nothing is refused yet. -/
theorem ends_enclosed_of_none (closed : skipNot? text = none) :
    ∃ reached, enclosed.Ends text (.error (.missed none)) reached := by
  unfold skipNot? at closed
  split at closed
  · next absent => exact ⟨text, (ends_literal_of_none absent).bind_error _⟩
  · next rest begins =>
    split at closed
    · simp at closed
    · next absent =>
      refine ⟨skipBlanks rest, (ends_literal (skipLiteral?_eq_some_iff.mp begins)).bind ?_⟩
      exact (ends_blanks rest).bind ((ends_mark_of_ne .opening absent).bind_error _)

theorem agrees_included (text : List Char) :
    Agrees Failure.fault? included text Prod.fst Prod.snd
      (readIds text >>= fun read => .ok (.isIn (.ofList read.1), read.2)) :=
  (agrees_ids text).bind fun _ => .success (ends_pure _ _)

theorem agrees_condition (text : List Char) :
    Agrees Failure.fault? condition text Prod.fst Prod.snd (readCondition text) := by
  apply Agrees.after (ends_blanks text)
  by_cases exclaimed : ∃ listed, skipBlanks text = Mark.exclamation.char :: listed
  · obtain ⟨listed, begins⟩ := exclaimed
    rw [readCondition_of_exclaimed begins, begins]
    exact ((agrees_excluded listed).either _).of_refusal
  · have notExclaimed := not_exists.mp exclaimed
    apply Agrees.either_of_missed ((ends_mark_of_ne .exclamation notExclaimed).bind_error _)
    cases opened : skipNot? (skipBlanks text) with
    | some inside =>
      rw [readCondition_of_enclosed notExclaimed opened]
      exact ((agrees_enclosed opened).either _).of_refusal
    | none =>
      obtain ⟨reached, missed⟩ := ends_enclosed_of_none opened
      rw [readCondition_of_bare notExclaimed opened]
      exact .either_of_missed missed (agrees_included _)

theorem agrees_constraint (text : List Char) :
    Agrees Failure.fault? constraint text Prod.fst Prod.snd (readConstraint text) :=
  (agrees_facet text).bind fun read =>
    (agrees_condition read.2).committed.of_refusal.bind fun _ => .success (ends_pure _ _)

theorem agrees_furtherConstraint {afterPlus : List Char}
    (begins : skipBlanks text = Mark.plus.char :: afterPlus) :
    Agrees Failure.refusal? furtherConstraint text Prod.fst Prod.snd
      (readConstraint afterPlus) := by
  apply Agrees.after (ends_blanks text)
  exact .after (ends_mark .plus begins) (agrees_constraint afterPlus).committed

/-- The plus sign alone decides whether there is another turn. Behind it nothing else may be
tried. -/
theorem agrees_many_furtherConstraint (text : List Char) :
    Agrees Failure.refusal? (many furtherConstraint) text Prod.fst Prod.snd
      (readMoreConstraints text) := by
  induction measured : text.length using Nat.strong_induction_on generalizing text with
  | _ size ih =>
    by_cases plus : ∃ afterPlus, skipBlanks text = Mark.plus.char :: afterPlus
    · obtain ⟨afterPlus, begins⟩ := plus
      have shortens (read : (Facet × Condition) × List Char)
          (done : readConstraint afterPlus = .ok read) : read.2.length < text.length := by
        have skipped := length_skipBlanks_le text
        have shorter := length_lt_of_readConstraint done
        rw [begins, List.length_cons] at skipped
        omega
      rw [readMoreConstraints_of_plus begins]
      exact (agrees_furtherConstraint begins).many shortens fun read done =>
        ih _ (measured ▸ shortens read done) read.2 rfl
    · have absent := not_exists.mp plus
      have missed : furtherConstraint.Ends text (.error (.missed none)) (skipBlanks text) :=
        (ends_blanks text).bind ((ends_mark_of_ne .plus absent).bind_error _)
      rw [readMoreConstraints_of_not_plus absent]
      exact .success missed.many_of_missed

theorem ends_allWord {rest : List Char} (found : skipAll? text = some rest) :
    allWord.Ends text (.ok ()) rest := by
  unfold skipAll? at found
  split at found
  · next word afterWord foundWord =>
    split at found
    · next isAll =>
      cases Option.some.inj found
      exact (ends_word foundWord).meaning (if_pos isAll)
    · simp at found
  · simp at found

theorem ends_allWord_of_none (absent : skipAll? text = none) :
    allWord.Ends text (.error (.missed none)) text := by
  unfold skipAll? at absent
  split at absent
  · next word afterWord foundWord =>
    split at absent
    · simp at absent
    · next notAll => exact (ends_word foundWord).meaning_of_none (if_neg notAll)
  · next missing => exact (ends_word_of_none missing).meaning_error _

theorem readConstraint_skipBlanks (text : List Char) :
    readConstraint (skipBlanks text) = readConstraint text := by
  unfold readConstraint readFacet
  rw [skipBlanks_skipBlanks]

theorem readConditions_skipBlanks (text : List Char) :
    readConditions (skipBlanks text) = readConditions text := by
  unfold readConditions
  rw [skipBlanks_skipBlanks, readConstraint_skipBlanks]

theorem agrees_conditions (text : List Char) :
    Agrees Failure.fault? conditions text Prod.fst Prod.snd (readConditions text) := by
  apply Agrees.after (ends_blanks text)
  cases found : skipAll? (skipBlanks text) with
  | some rest =>
    rw [readConditions, found]
    exact .success ((ends_allWord found).optional.bind (ends_pure _ _))
  | none =>
    apply Agrees.after (ends_allWord_of_none found).optional_of_missed
    rw [readConditions_of_not_all found, ← readConstraint_skipBlanks]
    exact (agrees_constraint _).bind fun read =>
      (agrees_many_furtherConstraint read.2).of_refusal.bind fun _ => .success (ends_pure _ _)

end Conditions

/-! ## Assignments -/

section Assignments

variable {text : List Char}

theorem agrees_nextId (text : List Char) :
    Agrees Failure.fault? (nextId .missingPolicyId) text Prod.fst Prod.snd (readPolicyId text) := by
  unfold readPolicyId
  split
  · next found foundWord => exact .success (ends_nextId _ foundWord)
  · next missing => exact .stop rfl (ends_nextId_of_none _ missing)

theorem ends_kind {rest : List Char} {kind : PolicyKind} (found : kind? text = some (kind, rest)) :
    Reader.kind.Ends text (.ok kind) rest := by
  obtain ⟨⟨word, afterWord⟩, foundWord, named⟩ := Option.bind_eq_some_iff.mp found
  obtain ⟨namedKind, known, same⟩ := Option.bind_eq_some_iff.mp named
  obtain ⟨rfl, rfl⟩ := Prod.mk.inj (Option.some.inj same)
  exact (ends_blanks text).bind (((ends_word foundWord).meaning known).failing _)

theorem ends_kind_of_none (missing : kind? text = none) :
    Reader.kind.Ends text (.error (.missed (some .unknownKind))) (skipBlanks text) := by
  apply (ends_blanks text).bind
  cases found : word? (skipBlanks text) with
  | none => exact ((ends_word_of_none found).meaning_error _).failing _
  | some result =>
    have unknown : PolicyKind.ofKeyword? result.1 = none := by
      rw [Option.eq_none_iff_forall_ne_some]
      simpa [kind?, found] using missing
    exact ((ends_word found).meaning_of_none unknown).failing _

theorem agrees_assignment {kind : PolicyKind} {afterKind : List Char}
    (found : kind? text = some (kind, afterKind)) :
    Agrees Failure.refusal? assignment text (fun read => (kind, read.1)) Prod.snd
      (readPolicyId afterKind) := by
  apply Agrees.after (ends_kind found)
  exact (agrees_nextId afterKind).committed.map (kind, ·)

/-- The keyword of a kind alone decides whether there is another turn. -/
theorem agrees_many_assignment (text : List Char) :
    Agrees Failure.refusal? (many assignment) text Prod.fst Prod.snd
      (readMoreAssignments text) := by
  induction measured : text.length using Nat.strong_induction_on generalizing text with
  | _ size ih =>
    cases found : kind? text with
    | none =>
      rw [readMoreAssignments_of_not_kind? found]
      exact .success ((ends_kind_of_none found).bind_error _).many_of_missed
    | some result =>
      obtain ⟨kind, afterKind⟩ := result
      have shortens (read : String × List Char) (done : readPolicyId afterKind = .ok read) :
          read.2.length < text.length :=
        Nat.lt_trans (length_lt_of_readPolicyId done) (length_lt_of_kind? found)
      rw [readMoreAssignments_of_kind? found]
      exact (agrees_assignment found).many shortens fun read done =>
        ih _ (measured ▸ shortens read done) read.2 rfl

theorem agrees_assignments (text : List Char) :
    Agrees Failure.fault? assignments text Prod.fst Prod.snd (readAssignments text) := by
  unfold readAssignments
  split
  · next missing => exact .stop rfl (((ends_kind_of_none missing).bind_error _).bind_error _)
  · next result found =>
    rw [readMoreAssignments_of_kind? found]
    exact (agrees_assignment found).of_refusal.bind fun read =>
      (agrees_many_assignment read.2).of_refusal.bind fun _ => .success (ends_pure _ _)

end Assignments

/-! ## Lines -/

section Lines

theorem agrees_colon (text : List Char) :
    Agrees Failure.refusal? colon.committed text (fun _ => ()) id (skipColon text) := by
  apply Agrees.committed
  apply Agrees.after (ends_blanks text)
  unfold skipColon
  split
  · next rest begins => exact .success ((ends_mark .colon begins).failing _)
  · next absent => exact .stop rfl ((ends_mark_of_ne .colon absent).failing _)

theorem agrees_lineEnd (text : List Char) :
    Agrees Failure.refusal? lineEnd.committed text (fun _ => ()) (fun _ => []) (readEnd text) := by
  apply Agrees.committed
  apply Agrees.after (ends_blanks text)
  unfold readEnd
  split
  · next nothing =>
    rw [nothing]
    exact .success (ends_textEnd.failing _)
  · next something => exact .stop rfl ((ends_textEnd_of_ne something).failing _)

theorem agrees_assigned (made : List (PolicyKind × String) → Statement) (text : List Char) :
    Agrees Failure.refusal? (assigned made) text id (fun _ => []) (readAssigned made text) :=
  (agrees_colon text).bind fun rest =>
    (agrees_assignments rest).committed.bind fun read =>
      (agrees_lineEnd read.2).bind fun _ => .success (ends_pure _ _)

theorem agrees_statement (line : List Char) :
    Agrees Failure.refusal? statement line id (fun _ => []) (readStatement line) := by
  apply Agrees.after (ends_blanks line)
  cases begins : skipLiteral? fallbackKeyword (skipBlanks line) with
  | some rest =>
    rw [readStatement_of_keyword begins]
    apply Agrees.after (ends_literal (skipLiteral?_eq_some_iff.mp begins)).optional
    exact agrees_assigned .fallback rest
  | none =>
    rw [readStatement_of_conditions begins, ← readConditions_skipBlanks]
    apply Agrees.after (ends_literal_of_none begins).optional_of_missed
    exact (agrees_conditions _).committed.bind fun read => agrees_assigned (.rule read.1) read.2

theorem agrees_wholeLine (text : List Char) :
    Agrees Failure.refusal? wholeLine text id (fun _ => []) (readStatement text) := by
  constructor
  · intro statement read
    exact ((agrees_statement text).ok statement read).bind (ends_textEnd.bind (ends_pure _ _))
  · intro stop stopped
    obtain ⟨failure, same, ends⟩ := (agrees_statement text).error stop stopped
    exact ⟨failure, same, ends.bind_error _⟩

end Lines

/-! ## Places in bytes -/

/-- How many bytes of the text a run has passed. -/
def Run.offset {α : Type} (run : Run α) (text : List Char) : Nat :=
  (String.ofList text).utf8ByteSize - (String.ofList run.rest).utf8ByteSize

/-- The bytes that are passed are those of whole characters, and what is left begins behind them. -/
theorem Run.exists_position {α : Type} {run : Run α} {text : List Char} (within : run.Within text) :
    ∃ position : (String.ofList text).Pos, position.offset.byteIdx = run.offset text ∧
      ((String.ofList text).sliceFrom position).copy = String.ofList run.rest := by
  obtain ⟨passed, rfl⟩ := within.rest
  have whole : String.ofList (passed ++ run.rest) =
      String.ofList passed ++ String.ofList run.rest :=
    String.ofList_append
  have size := congrArg String.utf8ByteSize whole
  have valid : (String.ofList passed).rawEndPos.IsValid (String.ofList (passed ++ run.rest)) :=
    String.Pos.Raw.isValid_iff_exists_append.mpr ⟨_, _, whole, rfl⟩
  refine ⟨⟨_, valid⟩, ?_, String.Pos.Splits.eq_right (String.Pos.splits _) ⟨whole, rfl⟩⟩
  rw [String.utf8ByteSize_append] at size
  rw [Run.offset, size, Nat.add_sub_cancel]
  rfl

/-! ## Progress -/

/-- Reading a line by trying ends: all limits above the length of the line lead to one run, and that
comes to what `readStatement` does. What is left of the line at any time is an end of the line. Each
turn of a loop that reads something leaves less, and none reads nothing. A turn that misses what it
is for is undone, unless nothing else may be tried. The token of a faulty line is found behind as
many bytes as have been passed, where a character of the line begins, or the line ends. -/
theorem readStatement_progresses (text : List Char) :
    ∃ run : Run Statement,
      (∀ limit, text.length < limit → wholeLine limit text = some run) ∧
      run.outcome? = some (readStatement text) ∧
      (∀ point ∈ run.points, point <:+ text) ∧
      (∀ turn ∈ run.turns, turn.start <:+ text ∧ turn.Progresses) ∧
      ∀ number error, parseStatement number text = .error error →
        error.token = tokenAt run.rest ∧
        ∃ position : (String.ofList text).Pos, position.offset.byteIdx = run.offset text ∧
          ((String.ofList text).sliceFrom position).copy = String.ofList run.rest := by
  obtain ⟨run, reads, within, same⟩ := (agrees_wholeLine text).of_refusal.exists_run
  refine ⟨run, reads, same, within.points, within.turns, ?_⟩
  intro number error refused
  refine ⟨?_, Run.exists_position within⟩
  unfold parseStatement at refused
  split at refused
  · simp at refused
  · next stop stopped =>
    cases Except.error.inj refused
    rw [stopped] at same
    rw [Run.rest_of_outcome? same]

/-- A line with turns of all three loops, the last of which is refused. -/
def turningLine : List Char :=
  "m a, b + t c: l p r é".toList

/-- Its turns: a further id and none, none in the list of the second constraint, a further
constraint and none, and a further assignment without an id. -/
def turningLineTurns : List Turn :=
  [⟨", b + t c: l p r é".toList, .ok (), " + t c: l p r é".toList, " + t c: l p r é".toList⟩,
    ⟨" + t c: l p r é".toList, .error (.missed (some .missingListedId)), "+ t c: l p r é".toList,
      " + t c: l p r é".toList⟩,
    ⟨": l p r é".toList, .error (.missed (some .missingListedId)), ": l p r é".toList,
      ": l p r é".toList⟩,
    ⟨" + t c: l p r é".toList, .ok (), ": l p r é".toList, ": l p r é".toList⟩,
    ⟨": l p r é".toList, .error (.missed none), ": l p r é".toList, ": l p r é".toList⟩,
    ⟨" r é".toList, .error (.refused (some .missingPolicyId)), "é".toList, "é".toList⟩]

theorem readStatement_progresses_turningLine :
    ∃ run, wholeLine 22 turningLine = some run ∧
      run.outcome? = some (readStatement turningLine) ∧
      ("+ t c: l p r é".toList ∈ run.points ∧ "+ t c: l p r é".toList <:+ turningLine) ∧
      (run.turns = turningLineTurns ∧
        ∀ turn ∈ turningLineTurns, turn.start <:+ turningLine ∧ turn.Progresses) ∧
      (parseStatement 7 turningLine = .error ⟨7, "é", .missingPolicyId⟩ ∧ "é" = tokenAt run.rest) ∧
      ∃ position : (String.ofList turningLine).Pos,
        position.offset.byteIdx = run.offset turningLine ∧
        ((String.ofList turningLine).sliceFrom position).copy = String.ofList run.rest := by
  obtain ⟨run, reads, same, points, turns, errors⟩ := readStatement_progresses turningLine
  have read : wholeLine 22 turningLine = some run := reads 22 (by decide)
  have stands : (wholeLine 22 turningLine).map (·.points.contains "+ t c: l p r é".toList) =
      some true := by cbv
  have turned : (wholeLine 22 turningLine).map Run.turns = some turningLineTurns := by cbv
  have refused : parseStatement 7 turningLine = .error ⟨7, "é", .missingPolicyId⟩ := by
    decide +kernel
  rw [read] at stands turned
  have stood := List.contains_iff_mem.mp (Option.some.inj stands)
  have sameTurns := Option.some.inj turned
  obtain ⟨token, position⟩ := errors 7 _ refused
  exact ⟨run, read, same, ⟨stood, points _ stood⟩, ⟨sameTurns, sameTurns ▸ turns⟩,
    ⟨refused, token⟩, position⟩

end Circulation.RuleText
