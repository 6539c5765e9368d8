import Circulation.Proofs.Unfinished

/-!
Contract: reading a text and reading the same text with something behind it.

Owns:
- that both readings agree up to where the first one ends, unless what that leaves is unfinished;
- that only an unfinished line can become a statement, and that blanks behind a line change nothing.

Does not own: which continuations make a line a statement.
-/

namespace Circulation.RuleText

/-! ## Steps on both texts -/

/-- The ways in which a step ends on a text and on the same text with `tail` behind it: alike,
unless what the first leaves, or where it stops, is unfinished. -/
inductive Carried {α : Type} (tail : List Char) (rest : α → List Char) (related : α → α → Prop) :
    Except Stop α → Except Stop α → Prop where
  | ok {value other : α} (same : related value other) :
      Carried tail rest related (.ok value) (.ok other)
  | error {fault : SyntaxFault} {left otherLeft : List Char}
      (behind : Followed tail left otherLeft) :
      Carried tail rest related (.error ⟨fault, left⟩) (.error ⟨fault, otherLeft⟩)
  | leavesOpen {value : α} (other : Except Stop α) (unfinished : Unfinished tail (rest value)) :
      Carried tail rest related (.ok value) other
  | stopsOpen {stop : Stop} (other : Except Stop α) (unfinished : Unfinished tail stop.rest) :
      Carried tail rest related (.error stop) other

/-- The same was read, and what is left of the second text has `tail` behind it. -/
def SameRead {α : Type} (tail : List Char) (value other : α × List Char) : Prop :=
  value.1 = other.1 ∧ Followed tail value.2 other.2

namespace Carried

variable {α β : Type} {tail : List Char} {rest : α → List Char} {restNext : β → List Char}
  {related : α → α → Prop} {relatedNext : β → β → Prop}

/-- A step on an unfinished text ends in an unfinished end of it. -/
theorem of_unfinished {text : List Char} {step : Except Stop α} (leaves : Leaves text rest step)
    (unfinished : Unfinished tail text) (other : Except Stop α) :
    Carried tail rest related step other := by
  cases step with
  | ok value => exact .leavesOpen other (unfinished.of_reaches (leaves.ok value rfl))
  | error stop => exact .stopsOpen other (unfinished.of_reaches (leaves.error stop rfl))

/-- The next step may depend on how the first one ended. -/
theorem bind_of_ok {first other : Except Stop α} {next : α → Except Stop β}
    (here : Carried tail rest related first other)
    (there : ∀ value otherValue, first = .ok value → related value otherValue →
      Carried tail restNext relatedNext (next value) (next otherValue))
    (leaves : ∀ value, Leaves (rest value) restNext (next value)) :
    Carried tail restNext relatedNext (first >>= next) (other >>= next) := by
  cases here with
  | ok same => exact there _ _ rfl same
  | error behind => exact .error behind
  | @leavesOpen value other unfinished => exact of_unfinished (leaves value) unfinished _
  | stopsOpen other unfinished => exact .stopsOpen _ unfinished

theorem bind {first other : Except Stop α} {next : α → Except Stop β}
    (here : Carried tail rest related first other)
    (there : ∀ value otherValue, related value otherValue →
      Carried tail restNext relatedNext (next value) (next otherValue))
    (leaves : ∀ value, Leaves (rest value) restNext (next value)) :
    Carried tail restNext relatedNext (first >>= next) (other >>= next) :=
  here.bind_of_ok (fun value otherValue _ => there value otherValue) leaves

end Carried

/-! ## Ids and conditions -/

/-- A list of ids that begins with a word passes that word. -/
theorem leaves_readIds_of_word? {text rest : List Char} {word : String}
    (found : word? (skipBlanks text) = some (word, rest)) :
    Leaves rest Prod.snd (readIds text) := by
  simp only [readIds, found]
  exact .success (reaches_readMoreIds rest)

/-- A condition that begins with a word passes that word, be it `not` or an id. -/
theorem leaves_readCondition_of_word? {text rest : List Char} {word : String}
    (found : word? (skipBlanks text) = some (word, rest)) :
    Leaves rest Prod.snd (readCondition text) := by
  have notExclaimed := ne_mark_cons_of_word? found .exclamation
  cases opened : skipNot? (skipBlanks text) with
  | some inside =>
    obtain ⟨afterNot, foundNot, opens⟩ := skipNot?_eq_some_iff.mp opened
    rw [found] at foundNot
    obtain ⟨_, rfl⟩ := Prod.mk.inj (Option.some.inj foundNot)
    rw [readCondition_of_enclosed notExclaimed opened]
    apply Leaves.after (.mark opens (by decide))
    exact (leaves_readIds inside).bind fun _ =>
      (leaves_skipClosing _).bind fun _ => .success (.refl _)
  | none =>
    rw [readCondition_of_bare notExclaimed opened]
    rw [← skipBlanks_skipBlanks] at found
    exact (leaves_readIds_of_word? found).bind fun _ => .success (.refl _)

section Parts

variable {tail text other : List Char} (followed : Followed tail text other)

include followed

theorem carried_readPolicyId :
    Carried tail Prod.snd (SameRead tail) (readPolicyId text) (readPolicyId other) := by
  rcases followed.word? with unfinished | ⟨starts, ⟨missing, otherMissing⟩ |
    ⟨word, rest, otherRest, found, otherFound, behind⟩⟩
  · exact .of_unfinished (leaves_readPolicyId text) unfinished _
  · rw [readPolicyId, readPolicyId, missing, otherMissing]
    exact .error starts
  · rw [readPolicyId, readPolicyId, found, otherFound]
    exact .ok ⟨rfl, behind⟩

theorem carried_readFacet :
    Carried tail Prod.snd (SameRead tail) (readFacet text) (readFacet other) := by
  rcases followed.word? with unfinished | ⟨starts, ⟨missing, otherMissing⟩ |
    ⟨word, rest, otherRest, found, otherFound, behind⟩⟩
  · exact .of_unfinished (leaves_readFacet text) unfinished _
  · simp only [readFacet, missing, otherMissing]
    exact .error starts
  · simp only [readFacet, found, otherFound]
    cases Facet.ofKeyword? word with
    | none => exact .error starts
    | some facet => exact .ok ⟨rfl, behind⟩

omit followed in
theorem readMoreIds_carried (followed : Followed tail text other) :
    Unfinished tail (readMoreIds text).2 ∨
      (readMoreIds text).1 = (readMoreIds other).1 ∧
        Followed tail (readMoreIds text).2 (readMoreIds other).2 := by
  fun_induction readMoreIds text generalizing other with
  | case1 text missing =>
    rcases followed.skipSeparator with unfinished | starts
    · exact .inl unfinished
    · rcases starts.word? with ⟨word, found, _⟩ | ⟨_, otherMissing⟩ | ⟨_, _, _, found, _⟩
      · simp [missing] at found
      · rw [readMoreIds_of_not_word? otherMissing]
        exact .inr ⟨rfl, followed⟩
      · simp [missing] at found
  | case2 text id rest found ids final more ih =>
    have left := reaches_readMoreIds rest
    rw [more] at left ih
    rcases followed.skipSeparator with unfinished | starts
    · exact .inl (unfinished.of_reaches ((Reaches.separated found).trans left))
    · rcases starts.word? with ⟨word, last, lengthens⟩ | ⟨missing, _⟩ |
        ⟨word, _, otherRest, same, otherFound, behind⟩
      · rw [found] at last
        obtain ⟨_, rfl⟩ := Prod.mk.inj (Option.some.inj last)
        exact .inl ((unfinished_nil (not_allBlank_of_not_separated lengthens)).of_reaches left)
      · simp [found] at missing
      · rw [found] at same
        obtain ⟨rfl, rfl⟩ := Prod.mk.inj (Option.some.inj same)
        rw [readMoreIds_of_word? otherFound]
        rcases ih behind with unfinished | ⟨sameIds, finals⟩
        · exact .inl unfinished
        · exact .inr ⟨congrArg (List.cons id) sameIds, finals⟩

theorem carried_readIds :
    Carried tail Prod.snd (SameRead tail) (readIds text) (readIds other) := by
  rcases followed.word? with unfinished | ⟨starts, ⟨missing, otherMissing⟩ |
    ⟨word, rest, otherRest, found, otherFound, behind⟩⟩
  · exact .of_unfinished (leaves_readIds text) unfinished _
  · simp only [readIds, missing, otherMissing]
    exact .error starts
  · simp only [readIds, found, otherFound]
    rcases readMoreIds_carried behind with unfinished | ⟨sameIds, finals⟩
    · exact .leavesOpen _ unfinished
    · exact .ok ⟨congrArg (List.cons word) sameIds, finals⟩

theorem carried_skipClosing :
    Carried tail id (Followed tail) (skipClosing text) (skipClosing other) := by
  rcases followed.mark .closing with unfinished | ⟨rest, otherRest, closes, otherCloses, behind⟩ |
    ⟨starts, unclosed, otherUnclosed⟩
  · exact .of_unfinished (leaves_skipClosing text) unfinished _
  · rw [skipClosing, skipClosing, closes, otherCloses]
    exact .ok behind
  · unfold skipClosing
    split
    · next rest same => exact absurd same (unclosed rest)
    · split
      · next rest same => exact absurd same (otherUnclosed rest)
      · exact .error starts.followed

theorem carried_readCondition :
    Carried tail Prod.snd (SameRead tail) (readCondition text) (readCondition other) := by
  rcases followed.mark .exclamation with unfinished |
    ⟨listed, otherListed, begins, otherBegins, behind⟩ | ⟨starts, notExclaimed, otherNotExclaimed⟩
  · exact .of_unfinished (leaves_readCondition text) unfinished _
  · rw [readCondition_of_exclaimed begins, readCondition_of_exclaimed otherBegins]
    apply (carried_readIds behind).bind
    · rintro read otherRead ⟨sameIds, left⟩
      rw [sameIds]
      exact .ok ⟨rfl, left⟩
    · exact fun _ => .success (.refl _)
  · rcases starts.skipNot? with ⟨word, rest, found, unfinished⟩ | ⟨closed, otherClosed⟩ |
      ⟨inside, otherInside, opened, otherOpened, behind⟩
    · exact .of_unfinished (leaves_readCondition_of_word? found) unfinished _
    · rw [readCondition_of_bare notExclaimed closed,
        readCondition_of_bare otherNotExclaimed otherClosed]
      apply (carried_readIds starts.followed).bind
      · rintro read otherRead ⟨sameIds, left⟩
        rw [sameIds]
        exact .ok ⟨rfl, left⟩
      · exact fun _ => .success (.refl _)
    · rw [readCondition_of_enclosed notExclaimed opened,
        readCondition_of_enclosed otherNotExclaimed otherOpened]
      apply (carried_readIds behind).bind
      · rintro read otherRead ⟨sameIds, left⟩
        rw [sameIds]
        apply (carried_skipClosing left).bind
        · exact fun _ _ left => .ok ⟨rfl, left⟩
        · exact fun _ => .success (.refl _)
      · exact fun _ => (leaves_skipClosing _).bind fun _ => .success (.refl _)

theorem carried_readConstraint :
    Carried tail Prod.snd (SameRead tail) (readConstraint text) (readConstraint other) := by
  unfold readConstraint
  apply (carried_readFacet followed).bind
  · rintro ⟨facet, rest⟩ ⟨_, otherRest⟩ ⟨rfl, left⟩
    apply (carried_readCondition left).bind
    · rintro ⟨condition, rest⟩ ⟨_, otherRest⟩ ⟨rfl, left⟩
      exact .ok ⟨rfl, left⟩
    · exact fun _ => .success (.refl _)
  · exact fun _ => (leaves_readCondition _).bind fun _ => .success (.refl _)

end Parts

/-! ## Lists of conditions and assignments -/

section Loops

variable {tail text other : List Char}

theorem carried_readMoreConstraints (followed : Followed tail text other) :
    Carried tail Prod.snd (SameRead tail) (readMoreConstraints text)
      (readMoreConstraints other) := by
  -- The text behind a constraint is shorter.
  induction size : text.length using Nat.strong_induction_on generalizing text other with
  | _ size ih =>
    rcases followed.mark .plus with unfinished | ⟨rest, otherRest, begins, otherBegins, behind⟩ |
      ⟨starts, ends, otherEnds⟩
    · exact .of_unfinished (leaves_readMoreConstraints text) unfinished _
    · have afterPlus := length_skipBlanks_le text
      rw [begins, List.length_cons] at afterPlus
      rw [readMoreConstraints_of_plus begins, readMoreConstraints_of_plus otherBegins]
      apply (carried_readConstraint behind).bind_of_ok
      · rintro read otherRead ended ⟨sameConstraint, left⟩
        have shorter := length_lt_of_readConstraint ended
        rw [sameConstraint]
        apply (ih read.2.length (by omega) left rfl).bind
        · rintro more otherMore ⟨sameMore, left⟩
          rw [sameMore]
          exact .ok ⟨rfl, left⟩
        · exact fun _ => .success (.refl _)
      · exact fun _ => (leaves_readMoreConstraints _).bind fun _ => .success (.refl _)
    · rw [readMoreConstraints_of_not_plus ends, readMoreConstraints_of_not_plus otherEnds]
      exact .ok ⟨rfl, followed⟩

theorem carried_readMoreAssignments (followed : Followed tail text other) :
    Carried tail Prod.snd (SameRead tail) (readMoreAssignments text)
      (readMoreAssignments other) := by
  induction size : text.length using Nat.strong_induction_on generalizing text other with
  | _ size ih =>
    rcases followed.kind? with unfinished | ⟨_, ⟨missing, otherMissing⟩ |
      ⟨kind, rest, otherRest, found, otherFound, behind⟩⟩
    · exact .of_unfinished (leaves_readMoreAssignments text) unfinished _
    · rw [readMoreAssignments_of_not_kind? missing,
        readMoreAssignments_of_not_kind? otherMissing]
      exact .ok ⟨rfl, followed⟩
    · have afterKind := length_lt_of_kind? found
      rw [readMoreAssignments_of_kind? found, readMoreAssignments_of_kind? otherFound]
      apply (carried_readPolicyId behind).bind_of_ok
      · rintro read otherRead ended ⟨sameId, left⟩
        have shorter := length_lt_of_readPolicyId ended
        rw [sameId]
        apply (ih read.2.length (by omega) left rfl).bind
        · rintro more otherMore ⟨sameMore, left⟩
          rw [sameMore]
          exact .ok ⟨rfl, left⟩
        · exact fun _ => .success (.refl _)
      · exact fun _ => (leaves_readMoreAssignments _).bind fun _ => .success (.refl _)

end Loops

/-! ## Lines -/

theorem leaves_readAssigned (made : List (PolicyKind × String) → Statement) (text : List Char) :
    Leaves text (fun _ => []) (readAssigned made text) :=
  (leaves_skipColon text).bind fun _ => (leaves_readAssignments _).bind fun _ =>
    (leaves_readEnd _).bind fun _ => .success (.refl _)

section Lines

variable {tail text other : List Char} (followed : Followed tail text other)

include followed

theorem carried_readConditions :
    Carried tail Prod.snd (SameRead tail) (readConditions text) (readConditions other) := by
  rcases followed.skipAll? with unfinished | ⟨notAll, otherNotAll⟩ |
    ⟨rest, otherRest, all, otherAll, behind⟩
  · exact .of_unfinished (leaves_readConditions text) unfinished _
  · rw [readConditions_of_not_all notAll, readConditions_of_not_all otherNotAll]
    apply (carried_readConstraint followed).bind
    · rintro read otherRead ⟨sameConstraint, left⟩
      rw [sameConstraint]
      apply (carried_readMoreConstraints left).bind
      · rintro more otherMore ⟨sameMore, left⟩
        rw [sameMore]
        exact .ok ⟨rfl, left⟩
      · exact fun _ => .success (.refl _)
    · exact fun _ => (leaves_readMoreConstraints _).bind fun _ => .success (.refl _)
  · rw [readConditions, readConditions, all, otherAll]
    exact .ok ⟨rfl, behind⟩

theorem carried_readAssignments :
    Carried tail Prod.snd (SameRead tail) (readAssignments text) (readAssignments other) := by
  rcases followed.kind? with unfinished | ⟨starts, ⟨missing, otherMissing⟩ |
    ⟨kind, rest, otherRest, found, otherFound, _⟩⟩
  · exact .of_unfinished (leaves_readAssignments text) unfinished _
  · rw [readAssignments, readAssignments, missing, otherMissing]
    exact .error starts
  · rw [readAssignments, readAssignments, found, otherFound]
    exact carried_readMoreAssignments followed

theorem carried_skipColon :
    Carried tail id (Followed tail) (skipColon text) (skipColon other) := by
  rcases followed.mark .colon with unfinished | ⟨rest, otherRest, begins, otherBegins, behind⟩ |
    ⟨starts, missing, otherMissing⟩
  · exact .of_unfinished (leaves_skipColon text) unfinished _
  · rw [skipColon, skipColon, begins, otherBegins]
    exact .ok behind
  · unfold skipColon
    split
    · next rest begins => exact absurd begins (missing rest)
    · split
      · next rest begins => exact absurd begins (otherMissing rest)
      · exact .error starts.followed

theorem carried_readEnd :
    Carried tail (fun _ => []) Eq (readEnd text) (readEnd other) := by
  rcases followed.skipBlanks with ⟨blank, visible⟩ | starts
  · exact .of_unfinished (leaves_readEnd text) (.separator visible (.blanks blank)) _
  · unfold readEnd
    generalize RuleText.skipBlanks text = start at starts
    generalize RuleText.skipBlanks other = otherStart at starts
    cases starts with
    | nothing blank => exact .ok rfl
    | char char behind => exact .error (SameStart.char char behind).followed

theorem carried_readAssigned (made : List (PolicyKind × String) → Statement) :
    Carried tail (fun _ => []) Eq (readAssigned made text) (readAssigned made other) := by
  apply (carried_skipColon followed).bind
  · intro rest otherRest left
    apply (carried_readAssignments left).bind
    · rintro read otherRead ⟨sameAssignments, left⟩
      rw [sameAssignments]
      apply (carried_readEnd left).bind
      · exact fun _ _ _ => .ok rfl
      · exact fun _ => .success (.refl _)
    · exact fun _ => (leaves_readEnd _).bind fun _ => .success (.refl _)
  · exact fun _ => (leaves_readAssignments _).bind fun _ =>
      (leaves_readEnd _).bind fun _ => .success (.refl _)

/-- A line is read as it is with `tail` behind it, unless where its reading ends is unfinished. -/
theorem carried_readStatement :
    Carried tail (fun _ => []) Eq (readStatement text) (readStatement other) := by
  have inside : fallbackKeyword.all isWordChar = true := by decide
  rcases followed.skipBlanks with ⟨blank, visible⟩ | starts
  · exact .of_unfinished (leaves_readStatement text) (.separator visible (.blanks blank)) _
  · rcases starts.skipLiteral? (List.all_eq_true.mp inside) with unfinished |
      ⟨missing, otherMissing⟩ | ⟨rest, otherRest, begins, otherBegins, behind⟩
    · exact .of_unfinished (leaves_readStatement text) unfinished.of_skipBlanks _
    · rw [readStatement_of_conditions missing, readStatement_of_conditions otherMissing]
      apply (carried_readConditions followed).bind
      · rintro read otherRead ⟨sameConstraints, left⟩
        rw [sameConstraints]
        exact carried_readAssigned left (.rule otherRead.1)
      · exact fun read => leaves_readAssigned (.rule read.1) read.2
    · rw [readStatement_of_keyword begins, readStatement_of_keyword otherBegins]
      exact carried_readAssigned behind .fallback

end Lines

/-- Only an unfinished text can become a statement. -/
theorem unfinished_of_derives {line tail : List Char} {stop : Stop} {statement : Statement}
    (stopped : readStatement line = .error stop) (derives : Derives (line ++ tail) statement) :
    Unfinished tail stop.rest := by
  have carried := carried_readStatement (⟨tail, rfl, .inl rfl⟩ : Followed tail line (line ++ tail))
  rw [stopped, readStatement_of_derives derives] at carried
  cases carried with
  | stopsOpen _ unfinished => exact unfinished

/-- Blanks behind a line change neither what it says nor what is wrong with it. -/
theorem readStatement_append_of_blank (line : List Char) {blanks : List Char}
    (blank : AllBlank blanks) :
    (∃ statement, readStatement line = .ok statement ∧
      readStatement (line ++ blanks) = .ok statement) ∨
      ∃ fault rest behind, readStatement line = .error ⟨fault, rest⟩ ∧
        readStatement (line ++ blanks) = .error ⟨fault, rest ++ behind⟩ ∧ AllBlank behind := by
  have followed : Followed blanks line (line ++ blanks) := ⟨blanks, rfl, .inl rfl⟩
  have carried := carried_readStatement followed
  generalize readStatement line = first at carried
  generalize readStatement (line ++ blanks) = second at carried
  cases carried with
  | @ok statement _ same => exact .inl ⟨statement, rfl, congrArg Except.ok same.symm⟩
  | @error fault rest _ behind =>
    obtain ⟨behind, rfl, isTail⟩ := behind
    refine .inr ⟨fault, rest, behind, rfl, rfl, ?_⟩
    rcases isTail with rfl | ⟨_, behindBlank⟩
    · exact blank
    · exact behindBlank
  | leavesOpen _ unfinished => exact absurd blank unfinished.not_allBlank
  | stopsOpen _ unfinished => exact absurd blank unfinished.not_allBlank

end Circulation.RuleText
