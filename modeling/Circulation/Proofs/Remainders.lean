import Circulation.Proofs.Derivation

/-!
Contract: what reading leaves of a text.

Owns:
- which ends of a text reading can come to;
- that every reading function leaves such an end of its text, whether it succeeds or stops, and
  stops past the blanks.

Does not own: what is read, or why reading stops.

A list of ids is left in front of a comma that no id follows. So a comma is passed only together
with the id behind it, and what has been passed of a line never ends in one.
-/

namespace Circulation.RuleText

/-! ## Ends of a text -/

/-- Nothing but blanks follows the last comma of a text. -/
def EndsInComma (text : List Char) : Prop :=
  ∃ front blanks, text = front ++ ',' :: blanks ∧ AllBlank blanks

/-- Reading a text can come to this end of it. -/
def Reaches (text rest : List Char) : Prop :=
  ∃ passed, text = passed ++ rest ∧ ¬EndsInComma passed

theorem not_endsInComma_of_not_mem {text : List Char} (noComma : ',' ∉ text) :
    ¬EndsInComma text := by
  rintro ⟨front, blanks, rfl, _⟩
  exact noComma (by simp)

theorem not_endsInComma_append {front back : List Char} (frontEnds : ¬EndsInComma front)
    (backEnds : ¬EndsInComma back) : ¬EndsInComma (front ++ back) := by
  rintro ⟨before, blanks, same, blank⟩
  rcases List.append_eq_append_iff.mp same with ⟨behind, rfl, rfl⟩ | ⟨inside, rfl, rest⟩
  · exact backEnds ⟨behind, blanks, rfl, blank⟩
  · rcases List.cons_eq_append_iff.mp rest with ⟨rfl, rfl⟩ | ⟨some, rfl, rfl⟩
    · exact backEnds ⟨[], blanks, rfl, blank⟩
    · exact frontEnds ⟨before, some, rfl, fun char member =>
        blank char (List.mem_append_left _ member)⟩

theorem not_mem_of_isWordChar {word : List Char}
    (inside : ∀ char ∈ word, isWordChar char = true) : ',' ∉ word :=
  fun member => absurd (inside ',' member) (by decide)

/-- A text that a word ends does not end in a comma. -/
theorem not_endsInComma_append_word {word : List Char} (nonempty : word ≠ [])
    (inside : ∀ char ∈ word, isWordChar char = true) (front : List Char) :
    ¬EndsInComma (front ++ word) := by
  rintro ⟨before, blanks, same, blank⟩
  have noComma := not_mem_of_isWordChar inside
  rcases List.append_eq_append_iff.mp same with ⟨behind, rfl, rfl⟩ | ⟨between, rfl, rest⟩
  · exact noComma (by simp)
  · rcases List.cons_eq_append_iff.mp rest with ⟨rfl, rfl⟩ | ⟨further, rfl, rfl⟩
    · exact noComma (by simp)
    · -- The word would stand among the blanks.
      obtain ⟨char, member⟩ := List.exists_mem_of_ne_nil word nonempty
      have notBlank := isBlank_eq_false_of_isWordChar (inside char member)
      rw [blank char (List.mem_append_right further member)] at notBlank
      simp at notBlank

namespace Reaches

variable {text middle rest : List Char}

theorem refl (text : List Char) : Reaches text text :=
  ⟨[], rfl, not_endsInComma_of_not_mem (by simp)⟩

theorem trans (first : Reaches text middle) (second : Reaches middle rest) :
    Reaches text rest := by
  obtain ⟨passed, rfl, ends⟩ := first
  obtain ⟨further, rfl, furtherEnds⟩ := second
  exact ⟨passed ++ further, by simp, not_endsInComma_append ends furtherEnds⟩

theorem suffix (reaches : Reaches text rest) : rest <:+ text := by
  obtain ⟨passed, rfl, _⟩ := reaches
  exact List.suffix_append passed rest

theorem skipBlanks (text : List Char) : Reaches text (skipBlanks text) := by
  obtain ⟨blanks, blank, whole⟩ := exists_append_skipBlanks text
  refine ⟨blanks, whole, not_endsInComma_of_not_mem fun member => ?_⟩
  exact absurd (blank ',' member) (by decide)

/-- Past blanks, a mark that is no comma. -/
theorem mark {mark : Mark} (skipped : RuleText.skipBlanks text = mark.char :: rest)
    (notComma : mark ≠ .comma) : Reaches text rest := by
  apply (skipBlanks text).trans
  refine ⟨[mark.char], by simp [skipped], not_endsInComma_of_not_mem ?_⟩
  rw [List.mem_singleton]
  exact fun isComma => notComma (Mark.char_injective isComma.symm)

theorem word {word : String} (found : word? text = some (word, rest)) : Reaches text rest := by
  obtain ⟨whole, nonempty, inside, _⟩ := word?_eq_some_iff.mp found
  exact ⟨word.toList, whole, not_endsInComma_append_word nonempty inside []⟩

theorem suffix_skipSeparator (text : List Char) : skipSeparator text <:+ text := by
  have skipped := (skipBlanks text).suffix
  unfold skipSeparator
  split
  · next afterComma comma =>
    rw [comma] at skipped
    exact (skipBlanks afterComma).suffix.trans ((List.suffix_cons _ _).trans skipped)
  · exact skipped

/-- Past blanks and perhaps a comma, a word. -/
theorem separated {word : String} (found : word? (skipSeparator text) = some (word, rest)) :
    Reaches text rest := by
  obtain ⟨begins, nonempty, inside, _⟩ := word?_eq_some_iff.mp found
  obtain ⟨separator, whole⟩ := suffix_skipSeparator text
  refine ⟨separator ++ word.toList, ?_, not_endsInComma_append_word nonempty inside separator⟩
  rw [← whole, begins, List.append_assoc]

end Reaches

/-! ## Steps -/

/-- However a step ends, it has come to what it leaves, or to where it stops, past the blanks. -/
structure Leaves {α : Type} (text : List Char) (rest : α → List Char) (step : Except Stop α) :
    Prop where
  ok : ∀ value, step = .ok value → Reaches text (rest value)
  error : ∀ stop, step = .error stop → Reaches text stop.rest
  pastBlanks : ∀ stop, step = .error stop → skipBlanks stop.rest = stop.rest

namespace Leaves

variable {α β : Type} {text : List Char} {rest : α → List Char} {restNext : β → List Char}

theorem success {value : α} (reaches : Reaches text (rest value)) :
    Leaves text rest (.ok value) := by
  constructor
  · intro other same
    rwa [← Except.ok.inj same]
  · simp
  · simp

/-- A step may stop in front of what it does not find. -/
theorem stop (fault : SyntaxFault) :
    Leaves text rest (.error ⟨fault, skipBlanks text⟩ : Except Stop α) := by
  constructor
  · simp
  · intro other same
    rw [← Except.error.inj same]
    exact .skipBlanks text
  · intro other same
    rw [← Except.error.inj same]
    exact skipBlanks_skipBlanks text

/-- A step may stop where another one has stopped. -/
theorem of_error {β : Type} {restOther : β → List Char} {step : Except Stop β} {stop : Stop}
    (leaves : Leaves text restOther step) (stopped : step = .error stop) :
    Leaves text rest (.error stop : Except Stop α) := by
  constructor
  · simp
  · intro other same
    rw [← Except.error.inj same]
    exact leaves.error stop stopped
  · intro other same
    rw [← Except.error.inj same]
    exact leaves.pastBlanks stop stopped

theorem bind {first : Except Stop α} {next : α → Except Stop β} (here : Leaves text rest first)
    (there : ∀ value, Leaves (rest value) restNext (next value)) :
    Leaves text restNext (first >>= next) := by
  constructor
  · intro result ended
    obtain ⟨value, firstEnded, nextEnded⟩ := bind_eq_ok_iff.mp ended
    exact (here.ok value firstEnded).trans ((there value).ok result nextEnded)
  · intro other stopped
    rcases bind_eq_error_iff.mp stopped with stopped | ⟨value, firstEnded, stopped⟩
    · exact here.error other stopped
    · exact (here.ok value firstEnded).trans ((there value).error other stopped)
  · intro other stopped
    rcases bind_eq_error_iff.mp stopped with stopped | ⟨value, _, stopped⟩
    · exact here.pastBlanks other stopped
    · exact (there value).pastBlanks other stopped

theorem after {middle : List Char} {step : Except Stop α} (reaches : Reaches text middle)
    (leaves : Leaves middle rest step) : Leaves text rest step where
  ok := fun value ended => reaches.trans (leaves.ok value ended)
  error := fun stop stopped => reaches.trans (leaves.error stop stopped)
  pastBlanks := leaves.pastBlanks

end Leaves

/-! ## Ids and conditions -/

theorem leaves_readPolicyId (text : List Char) :
    Leaves text Prod.snd (readPolicyId text) := by
  unfold readPolicyId
  split
  · next found foundWord => exact .success ((Reaches.skipBlanks text).trans (.word foundWord))
  · exact .stop _

theorem reaches_readMoreIds (text : List Char) : Reaches text (readMoreIds text).2 := by
  fun_induction readMoreIds text with
  | case1 text missing => exact .refl text
  | case2 text id rest found ids final more ih =>
    rw [more] at ih
    exact (Reaches.separated found).trans ih

theorem leaves_readIds (text : List Char) : Leaves text Prod.snd (readIds text) := by
  unfold readIds
  split
  · exact .stop _
  · next id afterFirst found =>
    apply Leaves.success
    exact ((Reaches.skipBlanks text).trans (.word found)).trans (reaches_readMoreIds afterFirst)

theorem leaves_readFacet (text : List Char) : Leaves text Prod.snd (readFacet text) := by
  unfold readFacet
  split
  · exact .stop _
  · next word rest found =>
    split
    · exact .stop _
    · exact .success ((Reaches.skipBlanks text).trans (.word found))

theorem reaches_skipNot? {text inside : List Char} (opened : skipNot? text = some inside) :
    Reaches text inside := by
  unfold skipNot? at opened
  split at opened
  · simp at opened
  · next rest begins =>
    split at opened
    · next afterOpening opens =>
      cases Option.some.inj opened
      have notPassed : Reaches text rest :=
        ⟨_, skipLiteral?_eq_some_iff.mp begins, not_endsInComma_of_not_mem (by decide)⟩
      have opening : RuleText.skipBlanks rest = Mark.opening.char :: inside := opens
      exact notPassed.trans (.mark opening (by decide))
    · simp at opened

theorem leaves_skipClosing (text : List Char) : Leaves text id (skipClosing text) := by
  unfold skipClosing
  split
  · next rest closes =>
    have closing : RuleText.skipBlanks text = Mark.closing.char :: rest := closes
    exact .success (.mark closing (by decide))
  · exact .stop _

theorem leaves_readCondition (text : List Char) : Leaves text Prod.snd (readCondition text) := by
  unfold readCondition
  split
  · next listed begins =>
    have exclamation : skipBlanks text = Mark.exclamation.char :: listed := begins
    apply Leaves.after (.mark exclamation (by decide))
    exact (leaves_readIds listed).bind fun _ => .success (.refl _)
  · apply Leaves.after (.skipBlanks text)
    split
    · next inside opened =>
      apply Leaves.after (reaches_skipNot? opened)
      exact (leaves_readIds inside).bind fun _ =>
        (leaves_skipClosing _).bind fun _ => .success (.refl _)
    · exact (leaves_readIds _).bind fun _ => .success (.refl _)

theorem leaves_readConstraint (text : List Char) : Leaves text Prod.snd (readConstraint text) :=
  (leaves_readFacet text).bind fun _ => (leaves_readCondition _).bind fun _ => .success (.refl _)

theorem leaves_readMoreConstraints (text : List Char) :
    Leaves text Prod.snd (readMoreConstraints text) := by
  fun_induction readMoreConstraints text with
  | case1 text afterPlus begins stop read =>
    have plus : skipBlanks text = Mark.plus.char :: afterPlus := begins
    apply Leaves.after (.mark plus (by decide))
    exact (leaves_readConstraint afterPlus).of_error read
  | case2 text afterPlus begins constraint rest read stop failed ih =>
    have plus : skipBlanks text = Mark.plus.char :: afterPlus := begins
    apply Leaves.after (.mark plus (by decide))
    apply Leaves.after ((leaves_readConstraint afterPlus).ok _ read)
    exact ih.of_error failed
  | case3 text afterPlus begins constraint rest read constraints final more ih =>
    have plus : skipBlanks text = Mark.plus.char :: afterPlus := begins
    apply Leaves.after (.mark plus (by decide))
    apply Leaves.after ((leaves_readConstraint afterPlus).ok _ read)
    have further := ih.ok _ more
    exact .success further
  | case4 text _ => exact .success (.refl text)

theorem leaves_readConditions (text : List Char) :
    Leaves text Prod.snd (readConditions text) := by
  unfold readConditions
  split
  · next rest skipped =>
    unfold skipAll? at skipped
    split at skipped
    · next word afterWord found =>
      split at skipped
      · cases Option.some.inj skipped
        exact .success ((Reaches.skipBlanks text).trans (.word found))
      · simp at skipped
    · simp at skipped
  · exact (leaves_readConstraint text).bind fun _ =>
      (leaves_readMoreConstraints _).bind fun _ => .success (.refl _)

/-! ## Assignments -/

theorem reaches_kind? {text rest : List Char} {kind : PolicyKind}
    (found : kind? text = some (kind, rest)) : Reaches text rest := by
  obtain ⟨⟨word, afterWord⟩, foundWord, named⟩ := Option.bind_eq_some_iff.mp found
  obtain ⟨namedKind, _, same⟩ := Option.bind_eq_some_iff.mp named
  obtain ⟨_, rfl⟩ := Prod.mk.inj (Option.some.inj same)
  exact (Reaches.skipBlanks text).trans (.word foundWord)

theorem leaves_readMoreAssignments (text : List Char) :
    Leaves text Prod.snd (readMoreAssignments text) := by
  fun_induction readMoreAssignments text with
  | case1 text missing => exact .success (.refl text)
  | case2 text kind afterKind found stop read =>
    apply Leaves.after (reaches_kind? found)
    exact (leaves_readPolicyId afterKind).of_error read
  | case3 text kind afterKind found id rest read stop failed ih =>
    apply Leaves.after (reaches_kind? found)
    apply Leaves.after ((leaves_readPolicyId afterKind).ok _ read)
    exact ih.of_error failed
  | case4 text kind afterKind found id rest read assignments final more ih =>
    apply Leaves.after (reaches_kind? found)
    apply Leaves.after ((leaves_readPolicyId afterKind).ok _ read)
    have further := ih.ok _ more
    exact .success further

theorem leaves_readAssignments (text : List Char) :
    Leaves text Prod.snd (readAssignments text) := by
  unfold readAssignments
  split
  · exact .stop _
  · exact leaves_readMoreAssignments text

/-! ## Lines -/

theorem leaves_skipColon (text : List Char) : Leaves text id (skipColon text) := by
  unfold skipColon
  split
  · next rest begins =>
    have colon : RuleText.skipBlanks text = Mark.colon.char :: rest := begins
    exact .success (.mark colon (by decide))
  · exact .stop _

/-- The end of a line leaves nothing of it. -/
theorem leaves_readEnd (text : List Char) : Leaves text (fun _ => []) (readEnd text) := by
  unfold readEnd
  split
  · next nothing =>
    have reaches := Reaches.skipBlanks text
    rw [nothing] at reaches
    exact .success reaches
  · exact .stop _

theorem leaves_readStatement (line : List Char) :
    Leaves line (fun _ => []) (readStatement line) := by
  unfold readStatement
  split
  · next afterKeyword begins =>
    have keyword : Reaches (skipBlanks line) afterKeyword :=
      ⟨_, skipLiteral?_eq_some_iff.mp begins, not_endsInComma_of_not_mem (by decide)⟩
    apply Leaves.after ((Reaches.skipBlanks line).trans keyword)
    exact (leaves_skipColon afterKeyword).bind fun _ =>
      (leaves_readAssignments _).bind fun _ =>
        (leaves_readEnd _).bind fun _ => .success (.refl _)
  · exact (leaves_readConditions line).bind fun _ =>
      (leaves_skipColon _).bind fun _ =>
        (leaves_readAssignments _).bind fun _ =>
          (leaves_readEnd _).bind fun _ => .success (.refl _)

end Circulation.RuleText
