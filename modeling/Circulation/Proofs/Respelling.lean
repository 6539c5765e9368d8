import Circulation.Proofs.RoundTrip
import Circulation.Proofs.Spelling
import Circulation.Proofs.StepTexts
import Mathlib

/-!
Contract: spellings of a rule text that are interchangeable.

Owns:
- the single rewritings of a spelled line: order, repeated ids, separators, keywords, and the two
  forms of excluding conditions;
- which physical lines respell one another, with any number of rewritings and any blanks;
- that a text whose lines are respelled has the same draft, the same rule set and the same cache.

Does not own: the trees of spellings, or which lines the grammar derives.
-/

namespace Circulation

/-! ## Statements in another order -/

namespace Statement

theorem Reorders.trans {statement middle other : Statement} (first : statement.Reorders middle)
    (second : middle.Reorders other) : statement.Reorders other := by
  cases first with
  | fallback assigned =>
    cases second with
    | fallback otherAssigned => exact .fallback (assigned.trans otherAssigned)
  | rule demanded assigned =>
    cases second with
    | rule otherDemanded otherAssigned =>
      exact .rule (demanded.trans otherDemanded) (assigned.trans otherAssigned)

/-- What is written down does not depend on the order. -/
theorem Writes.of_reorders {number : UInt32} {statement other : Statement} {draft : RuleDraft}
    (writes : statement.Writes number draft) (reorders : statement.Reorders other) :
    other.Writes number draft := by
  cases reorders with
  | fallback same =>
    cases writes with
    | fallback assigned => exact .fallback (same.symm.trans assigned)
  | rule sameConstraints same =>
    cases writes with
    | rule demanded assigned =>
      exact .rule (sameConstraints.symm.trans demanded) (same.symm.trans assigned)

end Statement

namespace RuleText

/-! ## Single rewritings -/

/-- One rewriting of a list of ids. -/
inductive SpelledIds.Rewrites : SpelledIds → SpelledIds → Prop where
  /-- Commas are put in front of ids, or left out. -/
  | separated {spelled other : SpelledIds} (same : spelled.ids = other.ids) :
      Rewrites spelled other
  | permuted {spelled other : SpelledIds} (same : spelled.ids.Perm other.ids) :
      Rewrites spelled other
  /-- An id of the list is listed once more. -/
  | repeated {spelled other : SpelledIds} {id : String} (listed : id ∈ spelled.ids)
      (again : other.ids.Perm (id :: spelled.ids)) : Rewrites spelled other

/-- One rewriting of a condition. -/
inductive SpelledCondition.Rewrites : SpelledCondition → SpelledCondition → Prop where
  | bare {ids others : SpelledIds} (listed : ids.Rewrites others) :
      Rewrites (.bare ids) (.bare others)
  | exclaimed {ids others : SpelledIds} (listed : ids.Rewrites others) :
      Rewrites (.exclaimed ids) (.exclaimed others)
  | enclosed {ids others : SpelledIds} (listed : ids.Rewrites others) :
      Rewrites (.enclosed ids) (.enclosed others)
  /-- An exclamation mark becomes the word `not` and parentheses. -/
  | enclosing (ids : SpelledIds) : Rewrites (.exclaimed ids) (.enclosed ids)
  /-- The word `not` and parentheses become an exclamation mark. -/
  | exclaiming (ids : SpelledIds) : Rewrites (.enclosed ids) (.exclaimed ids)

/-- One rewriting of a constraint. -/
inductive SpelledConstraint.Rewrites : SpelledConstraint → SpelledConstraint → Prop where
  /-- The keyword of the facet is spelled in the other way. -/
  | keyword (facet : Facet) (long other : Bool) (condition : SpelledCondition) :
      Rewrites ⟨facet, long, condition⟩ ⟨facet, other, condition⟩
  | condition {facet : Facet} {long : Bool} {condition other : SpelledCondition}
      (demanded : condition.Rewrites other) :
      Rewrites ⟨facet, long, condition⟩ ⟨facet, long, other⟩

/-- One rewriting of the constraints of a line. -/
inductive RewritesConstraints : List SpelledConstraint → List SpelledConstraint → Prop where
  | permuted {constraints others : List SpelledConstraint} (same : constraints.Perm others) :
      RewritesConstraints constraints others
  | one {constraint other : SpelledConstraint} (before after : List SpelledConstraint)
      (inside : constraint.Rewrites other) :
      RewritesConstraints (before ++ constraint :: after) (before ++ other :: after)

/-- One rewriting of the assignments of a line. -/
inductive RewritesAssignments : List SpelledAssignment → List SpelledAssignment → Prop where
  | permuted {assignments others : List SpelledAssignment} (same : assignments.Perm others) :
      RewritesAssignments assignments others
  /-- The keyword of one kind is spelled in the other way. -/
  | keyword (before after : List SpelledAssignment) (kind : PolicyKind) (long other : Bool)
      (id : String) :
      RewritesAssignments (before ++ ⟨kind, long, id⟩ :: after)
        (before ++ ⟨kind, other, id⟩ :: after)

/-- One rewriting of a line. -/
inductive SpelledLine.Rewrites : SpelledLine → SpelledLine → Prop where
  | fallback {assignments others : List SpelledAssignment} {assigns : assignments ≠ []}
      {othersAssign : others ≠ []} (assigned : RewritesAssignments assignments others) :
      Rewrites (.fallback assignments assigns) (.fallback others othersAssign)
  | constraints {constraints others : List SpelledConstraint}
      {assignments : List SpelledAssignment} {assigns : assignments ≠ []}
      (demanded : RewritesConstraints constraints others) :
      Rewrites (.rule constraints assignments assigns) (.rule others assignments assigns)
  | assignments {constraints : List SpelledConstraint}
      {assignments others : List SpelledAssignment} {assigns : assignments ≠ []}
      {othersAssign : others ≠ []} (assigned : RewritesAssignments assignments others) :
      Rewrites (.rule constraints assignments assigns) (.rule constraints others othersAssign)

/-! ## What a rewriting keeps -/

theorem SpelledIds.Rewrites.mem_iff {spelled other : SpelledIds} (rewrites : spelled.Rewrites other)
    (id : String) : id ∈ spelled.ids ↔ id ∈ other.ids := by
  cases rewrites with
  | separated same => rw [same]
  | permuted same => exact same.mem_iff
  | @repeated repeatedId listed again =>
    rw [again.mem_iff, List.mem_cons]
    constructor
    · exact Or.inr
    · rintro (rfl | member)
      · exact listed
      · exact member

/-- Lists of ids that rewrite one another have the same set. -/
theorem SpelledIds.Rewrites.ofList_eq {spelled other : SpelledIds}
    (rewrites : spelled.Rewrites other) :
    IdSet.ofList spelled.ids = IdSet.ofList other.ids := by
  apply IdSet.eq_of_mem_iff
  intro id
  rw [IdSet.mem_ofList, IdSet.mem_ofList]
  exact rewrites.mem_iff id

theorem SpelledCondition.Rewrites.condition_eq {spelled other : SpelledCondition}
    (rewrites : spelled.Rewrites other) : spelled.condition = other.condition := by
  cases rewrites with
  | bare listed => exact congrArg Condition.isIn listed.ofList_eq
  | exclaimed listed => exact congrArg Condition.notIn listed.ofList_eq
  | enclosed listed => exact congrArg Condition.notIn listed.ofList_eq
  | enclosing ids => rfl
  | exclaiming ids => rfl

theorem SpelledConstraint.Rewrites.constraint_eq {spelled other : SpelledConstraint}
    (rewrites : spelled.Rewrites other) : spelled.constraint = other.constraint := by
  cases rewrites with
  | keyword facet long other condition => rfl
  | condition demanded => exact congrArg (Prod.mk _) demanded.condition_eq

theorem RewritesConstraints.perm {constraints others : List SpelledConstraint}
    (rewrites : RewritesConstraints constraints others) :
    (constraints.map SpelledConstraint.constraint).Perm
      (others.map SpelledConstraint.constraint) := by
  cases rewrites with
  | permuted same => exact same.map _
  | one before after inside => simp [inside.constraint_eq]

theorem RewritesAssignments.perm {assignments others : List SpelledAssignment}
    (rewrites : RewritesAssignments assignments others) :
    (assignments.map SpelledAssignment.assignment).Perm
      (others.map SpelledAssignment.assignment) := by
  cases rewrites with
  | permuted same => exact same.map _
  | keyword before after kind long other id => simp [SpelledAssignment.assignment]

/-- A rewriting changes no more than the order of a statement. -/
theorem SpelledLine.Rewrites.reorders {spelled other : SpelledLine}
    (rewrites : spelled.Rewrites other) : spelled.statement.Reorders other.statement := by
  cases rewrites with
  | fallback assigned => exact .fallback assigned.perm
  | constraints demanded => exact .rule demanded.perm (.refl _)
  | assignments assigned => exact .rule (.refl _) assigned.perm

/-- Any number of rewritings changes no more than the order of a statement. -/
theorem reorders_of_rewrites {spelled other : SpelledLine}
    (rewritten : Relation.ReflTransGen SpelledLine.Rewrites spelled other) :
    spelled.statement.Reorders other.statement := by
  induction rewritten with
  | refl => exact .refl _
  | tail _ last ih => exact ih.trans last.reorders

/-! ## Lines and texts -/

/-- One physical line respells another: both are blank without their comments, or their tokens are
those of trees that rewritings lead from one to the other. -/
inductive Respells (physicalLine other : List Char) : Prop where
  | blank (isBlank : Text.isBlankLine (Text.stripComment physicalLine) = true)
      (otherIsBlank : Text.isBlankLine (Text.stripComment other) = true)
  | spelled {spelled respelled : SpelledLine}
      (lexes : Lexes (Text.stripComment physicalLine) spelled.tokens)
      (rewritten : Relation.ReflTransGen SpelledLine.Rewrites spelled respelled)
      (otherLexes : Lexes (Text.stripComment other) respelled.tokens)

/-- The lines of a text respell those of another, one by one. -/
def RespellsAll (text other : String) : Prop :=
  List.Forall₂ Respells (Text.physicalLines text.toList) (Text.physicalLines other.toList)

/-- A line that is read has a spelling, so that it respells itself. -/
theorem respells_self_of_draftOfLine {number : UInt32} {physicalLine : List Char}
    {draft : RuleDraft} (drafted : draftOfLine number physicalLine = .ok draft) :
    Respells physicalLine physicalLine := by
  rcases draftOfLine_eq_ok_iff.mp drafted with ⟨blank, _⟩ | ⟨statement, said, _⟩
  · exact .blank blank blank
  · obtain ⟨spelled, lexes, _⟩ := derives_iff_exists_spelled.mp said.1
    exact .spelled lexes .refl lexes

theorem draftOfLine_of_respells {number : UInt32} {physicalLine other : List Char}
    {draft : RuleDraft} (respells : Respells physicalLine other)
    (drafted : draftOfLine number physicalLine = .ok draft) :
    draftOfLine number other = .ok draft := by
  rcases draftOfLine_eq_ok_iff.mp drafted with ⟨blank, rfl⟩ | ⟨statement, said, writes⟩
  · cases respells with
    | blank _ otherIsBlank => exact draftOfLine_eq_ok_iff.mpr (Or.inl ⟨otherIsBlank, rfl⟩)
    | spelled lexes rewritten otherLexes =>
      have derives := derives_iff_exists_spelled.mpr ⟨_, lexes, rfl⟩
      simp [derives.not_blank] at blank
  · cases respells with
    | blank isBlank _ => exact absurd said (not_says_of_blank isBlank statement)
    | @spelled spelled respelled lexes rewritten otherLexes =>
      -- A line derives one statement, so the tree is one of the statement that it says.
      have derives := derives_iff_exists_spelled.mpr ⟨spelled, lexes, rfl⟩
      have same : spelled.statement = statement := derives.unique said.1
      rw [← same] at writes
      apply draftOfLine_of_writes (derives_iff_exists_spelled.mpr ⟨respelled, otherLexes, rfl⟩)
      exact writes.of_reorders (reorders_of_rewrites rewritten)

theorem respells_self_of_draftOfLines {number : Nat} {lines : List (List Char)} {draft : RuleDraft}
    (drafted : draftOfLines number lines = .ok draft) : List.Forall₂ Respells lines lines := by
  induction lines generalizing number draft with
  | nil => exact .nil
  | cons line lines ih =>
    obtain ⟨_, _, here, others, _⟩ := draftOfLines_cons_eq_ok_iff.mp drafted
    exact .cons (respells_self_of_draftOfLine here) (ih others)

theorem draftOfLines_of_respells {number : Nat} {lines others : List (List Char)}
    {draft : RuleDraft} (respelled : List.Forall₂ Respells lines others)
    (drafted : draftOfLines number lines = .ok draft) :
    draftOfLines number others = .ok draft := by
  induction respelled generalizing number draft with
  | nil => exact drafted
  | cons here _ ih =>
    obtain ⟨first, more, hereDrafted, moreDrafted, rfl⟩ := draftOfLines_cons_eq_ok_iff.mp drafted
    exact draftOfLines_cons_eq_ok_iff.mpr
      ⟨first, more, draftOfLine_of_respells here hereDrafted, ih moreDrafted, rfl⟩

/-- A text that is read has spellings for all of its lines. However they are rewritten, the text has
the same draft; and if it makes a rule set, it still makes one, which is kept as the same bytes. -/
theorem parse_of_respellsAll {text : String} {draft : RuleDraft} (parsed : parse text = .ok draft) :
    RespellsAll text text ∧
      ∀ other, RespellsAll text other →
        parse other = .ok draft ∧
          ∀ rules, RuleSet.ofText text = .ok rules →
            ∃ again, RuleSet.ofText other = .ok again ∧
              Cache.ofRuleSet again none = Cache.ofRuleSet rules none := by
  refine ⟨respells_self_of_draftOfLines parsed, ?_⟩
  intro other respelled
  have parsedOther : parse other = .ok draft := draftOfLines_of_respells respelled parsed
  refine ⟨parsedOther, ?_⟩
  intro rules compiled
  have same : RuleSet.ofText other = RuleSet.ofText text := by
    rw [RuleSet.ofText, RuleSet.ofText, parsedOther, parsed]
  exact ⟨rules, same.trans compiled, rfl⟩

/-! ## A respelled text -/

/-- A text whose ids are keywords. -/
def keywordText : String :=
  "fallback-policy: loan all r not # kept\n\nm not(all,not m) + g !b, not: l not\n"

/-- The same text, with every part spelled in another way. -/
def respelledText : String :=
  "fallback-policy : r not\tl all\n \t\n" ++
    "patron-group not (not b,b)+m ! m not, all not :loan not"

/-- Any number of rewritings of one constraint of a line are rewritings of the line. -/
theorem SpelledConstraint.rewrites_line {constraint other : SpelledConstraint}
    (before after : List SpelledConstraint) {assignments : List SpelledAssignment}
    (assigns : assignments ≠ [])
    (rewritten : Relation.ReflTransGen SpelledConstraint.Rewrites constraint other) :
    Relation.ReflTransGen SpelledLine.Rewrites
      (.rule (before ++ constraint :: after) assignments assigns)
      (.rule (before ++ other :: after) assignments assigns) := by
  apply rewritten.lift fun inside => SpelledLine.rule (before ++ inside :: after) assignments assigns
  intro _ _ inside
  exact .constraints (.one before after inside)

theorem respellsAll_keywordText : RespellsAll keywordText respelledText := by
  have fallbacks : Respells "fallback-policy: loan all r not # kept".toList
      "fallback-policy : r not\tl all".toList := by
    apply @Respells.spelled _ _
      (.fallback [⟨.loan, true, "all"⟩, ⟨.request, false, "not"⟩] (by decide))
      (.fallback [⟨.request, false, "not"⟩, ⟨.loan, false, "all"⟩] (by decide))
    · decide +kernel
    · apply Relation.ReflTransGen.head
      · exact @SpelledLine.Rewrites.fallback _ [⟨.request, false, "not"⟩, ⟨.loan, true, "all"⟩]
          _ (by decide) (.permuted (by decide))
      · exact .single (.fallback (.keyword [⟨.request, false, "not"⟩] [] .loan true false "all"))
    · decide +kernel
  have rules : Respells "m not(all,not m) + g !b, not: l not".toList
      "patron-group not (not b,b)+m ! m not, all not :loan not".toList := by
    let first : SpelledIds := ⟨"all", [(true, "not"), (false, "m")]⟩
    let firstAgain : SpelledIds := ⟨"m", [(false, "not"), (true, "all"), (false, "not")]⟩
    let second : SpelledIds := ⟨"b", [(true, "not")]⟩
    let secondAgain : SpelledIds := ⟨"not", [(false, "b"), (true, "b")]⟩
    have itemType : Relation.ReflTransGen SpelledConstraint.Rewrites
        ⟨.itemType, false, .enclosed first⟩ ⟨.itemType, false, .exclaimed firstAgain⟩ :=
      .head (.condition (.exclaiming first))
        (.single (.condition (.exclaimed
          (.repeated (by decide : "not" ∈ first.ids) (by decide)))))
    have patronGroup : Relation.ReflTransGen SpelledConstraint.Rewrites
        ⟨.patronGroup, false, .exclaimed second⟩ ⟨.patronGroup, true, .enclosed secondAgain⟩ :=
      .head (.keyword .patronGroup false true (.exclaimed second))
        (.head (.condition (.enclosing second))
          (.single (.condition (.enclosed
            (.repeated (by decide : "b" ∈ second.ids) (by decide))))))
    apply @Respells.spelled _ _
      (.rule [⟨.itemType, false, .enclosed first⟩, ⟨.patronGroup, false, .exclaimed second⟩]
        [⟨.loan, false, "not"⟩] (by decide))
      (.rule [⟨.patronGroup, true, .enclosed secondAgain⟩,
          ⟨.itemType, false, .exclaimed firstAgain⟩]
        [⟨.loan, true, "not"⟩] (by decide))
    · decide +kernel
    · apply (SpelledConstraint.rewrites_line [] [_] (by decide) itemType).trans
      apply (SpelledConstraint.rewrites_line [_] [] (by decide) patronGroup).trans
      apply Relation.ReflTransGen.head (.constraints (.permuted (.swap _ _ [])))
      exact .single (.assignments (.keyword [] [] .loan false true "not"))
    · decide +kernel
  have lines : Text.physicalLines keywordText.toList =
      ["fallback-policy: loan all r not # kept".toList, [],
        "m not(all,not m) + g !b, not: l not".toList] := by decide +kernel
  have otherLines : Text.physicalLines respelledText.toList =
      ["fallback-policy : r not\tl all".toList, " \t".toList,
        "patron-group not (not b,b)+m ! m not, all not :loan not".toList] := by decide +kernel
  rw [RespellsAll, lines, otherLines]
  exact .cons fallbacks (.cons (.blank (by decide) (by decide)) (.cons rules .nil))

theorem parse_of_respellsAll_keywordText :
    ∃ draft rules, parse keywordText = .ok draft ∧ RuleSet.ofText keywordText = .ok rules ∧
      RespellsAll keywordText respelledText ∧ parse respelledText = .ok draft ∧
      ∃ again, RuleSet.ofText respelledText = .ok again ∧
        Cache.ofRuleSet again none = Cache.ofRuleSet rules none := by
  have parsed : parse keywordText = .ok
      { fallbacks := [⟨1, .loan, "all"⟩, ⟨1, .request, "not"⟩]
        lines := [.scored 3
          { itemType := .notIn (.ofList ["all", "m", "not"])
            patronGroup := .notIn (.ofList ["b", "not"]) } ⟨some "not", none, none⟩] } := by
    decide +kernel
  have compiled : ∃ rules, RuleSet.ofText keywordText = .ok rules := by
    rw [RuleSet.ofText, parsed]
    exact ⟨_, by cbv⟩
  obtain ⟨rules, made⟩ := compiled
  obtain ⟨_, respelled⟩ := parse_of_respellsAll parsed
  obtain ⟨parsedOther, kept⟩ := respelled respelledText respellsAll_keywordText
  exact ⟨_, rules, parsed, made, respellsAll_keywordText, parsedOther, kept rules made⟩

end RuleText

end Circulation
