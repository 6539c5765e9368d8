import Circulation.Proofs.Reading
import Mathlib

/-!
Contract: rule texts that follow one another.

Owns:
- that texts whose lines are ended keep their lines when another text follows;
- that a line is read the same wherever it stands, apart from its number;
- that two texts, one after the other, write down what they do by themselves, and which of their
  faults is reported.

Does not own: what a line writes down.
-/

namespace Circulation

/-! ## Lines of two texts -/

/-- What follows a line ending begins a line of its own. -/
theorem Text.physicalLines_append_ended (start rest : List Char) :
    physicalLines (start ++ '\n' :: rest) =
      physicalLines (start ++ ['\n']) ++ physicalLines rest := by
  induction measured : start.length using Nat.strong_induction_on generalizing start with
  | _ size ih =>
    by_cases inside : '\n' ∈ start
    · obtain ⟨line, others, rfl, noLineFeed⟩ := List.eq_append_cons_of_mem inside
      have shorter : others.length < size := by
        rw [← measured, List.length_append, List.length_cons]
        omega
      simp only [List.append_assoc, List.cons_append, physicalLines_append_lineFeed _ noLineFeed,
        ih _ shorter others rfl]
    · rw [physicalLines_append_lineFeed _ inside, physicalLines_append_lineFeed _ inside]
      rfl

/-- A text that is empty or ends with a line ending. -/
def Text.Ended (text : String) : Prop :=
  text = "" ∨ ∃ start, text = start ++ "\n"

/-- The lines of a text, without their endings. -/
def Text.linesOf (text : String) : List (List Char) :=
  physicalLines text.toList

theorem Text.Ended.linesOf_append {first : String} (ended : Ended first) (second : String) :
    linesOf (first ++ second) = linesOf first ++ linesOf second := by
  simp only [linesOf, String.toList_append]
  rcases ended with rfl | ⟨start, rfl⟩
  · rfl
  · have both := physicalLines_append_ended start.toList second.toList
    rw [String.toList_append, List.append_assoc]
    exact both

/-! ## Lines further down -/

/-- A fault that is the same, `count` lines further down. -/
structure ParseError.Lower (count : Nat) (fault lower : ParseError) : Prop where
  line : lower.line.toNat = fault.line.toNat + count
  token : lower.token = fault.token
  fault : lower.fault = fault.fault

/-- A fallback that is the same, `count` lines further down. -/
structure Fallback.Lower (count : Nat) (fallback lower : Fallback) : Prop where
  line : lower.line.toNat = fallback.line.toNat + count
  kind : lower.kind = fallback.kind
  policyId : lower.policyId = fallback.policyId

/-- A rule line that is the same, `count` lines further down. -/
structure RuleLine.Lower (count : Nat) (line lower : RuleLine) : Prop where
  number : lower.number.toNat = line.number.toNat + count
  conditions : lower.conditions = line.conditions
  policies : lower.policies = line.policies
  specificity : lower.specificity = line.specificity

/-- A draft that has the same entries in the same order, all of them `count` lines further down. -/
structure RuleDraft.Lower (count : Nat) (draft lower : RuleDraft) : Prop where
  fallbacks : List.Forall₂ (Fallback.Lower count) draft.fallbacks lower.fallbacks
  lines : List.Forall₂ (RuleLine.Lower count) draft.lines lower.lines

namespace RuleDraft

variable {count : Nat}

theorem Lower.empty : Lower count .empty .empty :=
  ⟨.nil, .nil⟩

theorem Lower.append {draft lower others lowerOthers : RuleDraft} (first : draft.Lower count lower)
    (second : others.Lower count lowerOthers) :
    (draft ++ others).Lower count (lower ++ lowerOthers) :=
  ⟨List.rel_append first.fallbacks second.fallbacks, List.rel_append first.lines second.lines⟩

theorem append_assoc (first second third : RuleDraft) :
    first ++ second ++ third = first ++ (second ++ third) := by
  show RuleDraft.mk _ _ = RuleDraft.mk _ _
  simp only [fallbacks_append, lines_append, List.append_assoc]

end RuleDraft

/-! ## Reading further down -/

/-- The outcomes of one reading at two places, `count` lines apart. -/
inductive Lowered {α : Type} (count : Nat) (related : α → α → Prop) :
    Except ParseError α → Except ParseError α → Prop where
  | ok {value lower : α} (same : related value lower) :
      Lowered count related (.ok value) (.ok lower)
  | error {fault lower : ParseError} (same : fault.Lower count lower) :
      Lowered count related (.error fault) (.error lower)

namespace Lowered

variable {α : Type} {count : Nat} {related : α → α → Prop}

theorem of_ok {value : α} {outcome : Except ParseError α}
    (lowered : Lowered count related (.ok value) outcome) :
    ∃ lower, related value lower ∧ outcome = .ok lower := by
  cases lowered with
  | ok same => exact ⟨_, same, rfl⟩

theorem of_error {fault : ParseError} {outcome : Except ParseError α}
    (lowered : Lowered count related (.error fault) outcome) :
    ∃ lower, fault.Lower count lower ∧ outcome = .error lower := by
  cases lowered with
  | error same => exact ⟨_, same, rfl⟩

theorem bind {β : Type} {relatedNext : β → β → Prop} {first lower : Except ParseError α}
    {next lowerNext : α → Except ParseError β} (firsts : Lowered count related first lower)
    (others : ∀ {value lowerValue}, related value lowerValue →
      Lowered count relatedNext (next value) (lowerNext lowerValue)) :
    Lowered count relatedNext (first >>= next) (lower >>= lowerNext) := by
  cases firsts with
  | ok same => exact others same
  | error same => exact .error same

end Lowered

namespace RuleText

section Lines

variable {count : Nat} {number lower : UInt32} {line : List Char}
  (apart : lower.toNat = number.toNat + count)

include apart

theorem lowered_collectConditions (constraints : List (Facet × Condition)) :
    Lowered count Eq (collectConditions number line constraints)
      (collectConditions lower line constraints) := by
  rw [collectConditions, collectConditions]
  cases Conditions.ofConstraints constraints with
  | ok conditions => exact .ok rfl
  | error facet => exact .error ⟨apart, rfl, rfl⟩

theorem lowered_collectPolicies (assignments : List (PolicyKind × String)) :
    Lowered count Eq (collectPolicies number line assignments)
      (collectPolicies lower line assignments) := by
  rw [collectPolicies, collectPolicies]
  cases PolicyMap.ofAssignments assignments with
  | ok policies => exact .ok rfl
  | error kind => exact .error ⟨apart, rfl, rfl⟩

theorem lowered_parseStatement :
    Lowered count Eq (parseStatement number line) (parseStatement lower line) := by
  rw [parseStatement, parseStatement]
  cases readStatement line with
  | ok statement => exact .ok rfl
  | error stop => exact .error ⟨apart, rfl, rfl⟩

theorem lowered_draftOfStatement (statement : Statement) :
    Lowered count (RuleDraft.Lower count) (draftOfStatement number line statement)
      (draftOfStatement lower line statement) := by
  cases statement with
  | fallback assignments =>
    refine (lowered_collectPolicies apart assignments).bind ?_
    rintro policies _ rfl
    refine .ok ⟨?_, .nil⟩
    rw [List.forall₂_map_left_iff, List.forall₂_map_right_iff, List.forall₂_same]
    exact fun entry _ => ⟨apart, rfl, rfl⟩
  | rule constraints assignments =>
    refine (lowered_collectConditions apart constraints).bind ?_
    rintro conditions _ rfl
    refine (lowered_collectPolicies apart assignments).bind ?_
    rintro policies _ rfl
    exact .ok ⟨.nil, .cons ⟨apart, rfl, rfl, rfl⟩ .nil⟩

theorem lowered_draftOfLine (physicalLine : List Char) :
    Lowered count (RuleDraft.Lower count) (draftOfLine number physicalLine)
      (draftOfLine lower physicalLine) := by
  simp only [draftOfLine]
  split
  · exact .ok .empty
  · refine (lowered_parseStatement apart).bind ?_
    rintro statement _ rfl
    exact lowered_draftOfStatement apart statement

end Lines

/-- Lines are read the same further down, as long as line numbers reach so far. -/
theorem lowered_draftOfLines {count number : Nat} {lines : List (List Char)}
    (small : number + count + lines.length ≤ 2 ^ 32) :
    Lowered count (RuleDraft.Lower count) (draftOfLines number lines)
      (draftOfLines (number + count) lines) := by
  induction lines generalizing number with
  | nil => exact .ok .empty
  | cons line rest ih =>
    rw [List.length_cons] at small
    -- Both numbers fit into 32 bits, so that they are still `count` apart there.
    have apart : (UInt32.ofNat (number + count)).toNat = (UInt32.ofNat number).toNat + count := by
      rw [UInt32.toNat_ofNat_of_lt' (by show _ < 2 ^ 32; omega),
        UInt32.toNat_ofNat_of_lt' (by show _ < 2 ^ 32; omega)]
    have others := @ih (number + 1) (by omega)
    rw [Nat.add_right_comm] at others
    refine (lowered_draftOfLine apart line).bind fun here => ?_
    exact others.bind fun there => .ok (here.append there)

/-! ## One after the other -/

/-- Lines write down one after the other what they do by themselves. -/
theorem draftOfLines_append (number : Nat) (lines others : List (List Char)) :
    draftOfLines number (lines ++ others) = do
      let first ← draftOfLines number lines
      let second ← draftOfLines (number + lines.length) others
      return first ++ second := by
  induction lines generalizing number with
  | nil =>
    show draftOfLines number others = (draftOfLines number others >>= fun second => .ok second)
    cases draftOfLines number others <;> rfl
  | cons line rest ih =>
    rw [List.cons_append, draftOfLines, draftOfLines, ih, List.length_cons,
      Nat.add_comm rest.length, ← Nat.add_assoc]
    simp only [bind_assoc, pure_bind, RuleDraft.append_assoc]

/-- A text after one whose lines are ended changes nothing that the first one writes down, and
writes down itself what it does alone, as many lines further down as the first one has. A fault of
the first text is reported before one of the second. -/
theorem parse_append {first second : String} (ended : Text.Ended first)
    (short : (Text.linesOf first).length + (Text.linesOf second).length < 2 ^ 32) :
    (∀ fault, parse first = .error fault → parse (first ++ second) = .error fault) ∧
      ∀ draft, parse first = .ok draft →
        (∀ fault, parse second = .error fault →
          ∃ lower, fault.Lower (Text.linesOf first).length lower ∧
            parse (first ++ second) = .error lower) ∧
        ∀ others, parse second = .ok others →
          ∃ lower, others.Lower (Text.linesOf first).length lower ∧
            parse (first ++ second) = .ok (draft ++ lower) := by
  have both : parse (first ++ second) = do
      let draft ← parse first
      let lower ← draftOfLines (1 + (Text.linesOf first).length) (Text.linesOf second)
      return draft ++ lower := by
    rw [parse, ← Text.linesOf, ended.linesOf_append, draftOfLines_append]
    rfl
  have apart : Lowered (Text.linesOf first).length (RuleDraft.Lower (Text.linesOf first).length)
      (parse second) (draftOfLines (1 + (Text.linesOf first).length) (Text.linesOf second)) :=
    lowered_draftOfLines (by rw [← Text.linesOf]; omega)
  rw [both]
  refine ⟨?_, ?_⟩
  · intro fault failed
    rw [failed, error_bind]
  · intro draft drafted
    rw [drafted, ok_bind]
    refine ⟨?_, ?_⟩
    · intro fault failed
      rw [failed] at apart
      obtain ⟨lower, same, failedLower⟩ := apart.of_error
      exact ⟨lower, same, by rw [failedLower, error_bind]⟩
    · intro others othersDrafted
      rw [othersDrafted] at apart
      obtain ⟨lower, same, draftedLower⟩ := apart.of_ok
      exact ⟨lower, same, by rw [draftedLower, ok_bind]; rfl⟩

/-- Four ended lines, with either line ending and with what is not content. -/
def sampleStart : String :=
  "fallback-policy: l none r hold\r\n\n# notes\nm book: l week // kept\r\n"

theorem parse_append_sampleStart :
    (Text.linesOf sampleStart).length = 4 ∧
      (∃ draft others lower, parse sampleStart = .ok draft ∧
        parse "m map: l day\n\nall: l hour" = .ok others ∧
        others.lines.map RuleLine.number = [1, 3] ∧ others.Lower 4 lower ∧
        parse (sampleStart ++ "m map: l day\n\nall: l hour") = .ok (draft ++ lower)) ∧
      (∃ lower, ParseError.Lower 4 ⟨2, "", .missingColon⟩ lower ∧
        parse (sampleStart ++ "\nm map l day") = .error lower) ∧
      parse ("\nm map l day\n" ++ sampleStart) = .error ⟨2, "", .missingColon⟩ := by
  have ended : Text.Ended sampleStart :=
    .inr ⟨"fallback-policy: l none r hold\r\n\n# notes\nm book: l week // kept\r", by decide⟩
  have drafted : ∃ draft, parse sampleStart = .ok draft := ⟨_, by cbv⟩
  have othersDrafted : ∃ others, parse "m map: l day\n\nall: l hour" = .ok others ∧
      others.lines.map RuleLine.number = [1, 3] := ⟨_, by cbv, rfl⟩
  have failed : parse "\nm map l day" = .error ⟨2, "", .missingColon⟩ := by cbv
  obtain ⟨draft, drafted⟩ := drafted
  obtain ⟨others, othersDrafted, numbered⟩ := othersDrafted
  have counted : (Text.linesOf sampleStart).length = 4 := by cbv
  refine ⟨counted, ?_, ?_, ?_⟩
  · obtain ⟨lower, same, whole⟩ :=
      ((parse_append ended (by decide +kernel)).2 draft drafted).2 others othersDrafted
    rw [counted] at same
    exact ⟨draft, others, lower, drafted, othersDrafted, numbered, same, whole⟩
  · obtain ⟨lower, same, whole⟩ :=
      ((parse_append ended (by decide +kernel)).2 draft drafted).1 _ failed
    rw [counted] at same
    exact ⟨lower, same, whole⟩
  · exact (parse_append (.inr ⟨"\nm map l day", by decide⟩) (by decide +kernel)).1 _ (by cbv)

end RuleText

end Circulation
