import Circulation.Proofs.Places
import Circulation.Proofs.WellFormed

/-!
Contract: which fault of a rule text is reported, and when there is none.

Owns:
- where a text is faulty, repeats a declaration and assigns a kind without default;
- which of several faults is reported;
- that a text without fault makes a rule set, with a line for each of its rules.

Does not own: what a faulty line is, or how a fault is worded.

Faulty lines come before repeated declarations and these before kinds without default; among faults
of one sort the first line counts, and on a line the first kind.
-/

namespace Circulation

namespace RuleText

/-! ## Numbered lines -/

/-- The physical lines of a text, each with its number. -/
def numberedLines (text : String) : List (List Char × Nat) :=
  (Text.physicalLines text.toList).zipIdx 1

section Numbered

variable (text : String) (number : Nat)

/-- The line with a number is faulty. -/
def FaultyAt : Prop :=
  ∃ line, (line, number) ∈ numberedLines text ∧ Faulty line

/-- The line with a number declares a default for a kind. -/
def DeclaresAt (kind : PolicyKind) : Prop :=
  ∃ line, (line, number) ∈ numberedLines text ∧ Declares line kind

/-- The line with a number declares a default for a kind, as an earlier line does. -/
def RedeclaresAt (kind : PolicyKind) : Prop :=
  DeclaresAt text number kind ∧ ∃ earlier < number, DeclaresAt text earlier kind

/-- The line with a number is a rule. -/
def RuleAt : Prop :=
  ∃ line, (line, number) ∈ numberedLines text ∧
    ∃ constraints assignments, Says line (.rule constraints assignments)

/-- The line with a number is a rule that assigns a kind. -/
def AssignsAt (kind : PolicyKind) : Prop :=
  ∃ line, (line, number) ∈ numberedLines text ∧ Assigns line kind

/-- The line with a number is a rule that assigns a kind for which no line declares a default. -/
def UncoveredAt (kind : PolicyKind) : Prop :=
  AssignsAt text number kind ∧ ∀ other, ¬DeclaresAt text other kind

/-- The defaults are for the kinds that some line of the text declares. -/
def DefaultsOf (defaults : PolicyMap) : Prop :=
  ∀ kind, defaults.contains kind = true ↔ ∃ number, DeclaresAt text number kind

end Numbered

variable {text : String}

theorem exists_parse_iff :
    (∃ draft, parse text = .ok draft) ↔ ∀ number, ¬FaultyAt text number := by
  rw [parse, exists_draftOfLines_iff]
  constructor
  · rintro sound number ⟨line, member, faulty⟩
    exact sound line (List.fst_mem_of_mem_zipIdx member) faulty
  · intro sound line member faulty
    obtain ⟨position, bound, rfl⟩ := List.mem_iff_getElem.mp member
    exact sound (1 + position) ⟨_, List.mk_add_mem_zipIdx_iff_getElem?.mpr (by simp), faulty⟩

/-- The fault of a text that cannot be read is on the first faulty line. -/
theorem faultyAt_of_parse_eq_error (short : (Text.physicalLines text.toList).length < 2 ^ 32)
    {fault : ParseError} (failed : parse text = .error fault) :
    FaultyAt text fault.line.toNat ∧
      ∀ number, FaultyAt text number → fault.line.toNat ≤ number := by
  obtain ⟨before, line, after, whole, sound, faulty, numbered⟩ := draftOfLines_eq_error failed
  have small : 1 + before.length < 2 ^ 32 := by
    rw [whole, List.length_append, List.length_cons] at short
    omega
  rw [numbered, UInt32.toNat_ofNat_of_lt' small]
  have split : numberedLines text =
      before.zipIdx 1 ++ (line, 1 + before.length) :: after.zipIdx (1 + before.length + 1) := by
    rw [numberedLines, whole, List.zipIdx_append, List.zipIdx_cons]
  constructor
  · exact ⟨line, by rw [split]; simp, faulty⟩
  · rintro number ⟨other, member, otherFaulty⟩
    rw [split] at member
    rcases List.mem_append.mp member with member | member
    · exact absurd otherFaulty (sound other (List.fst_mem_of_mem_zipIdx member))
    · rcases List.mem_cons.mp member with same | member
      · rw [(Prod.mk.inj same).2]
      · have behind := List.le_snd_of_mem_zipIdx member
        omega

end RuleText

/-! ## Checks of a draft -/

/-- If every line assigns something, the place that is reported is the first whose kind has no
default. -/
theorem checkLines_eq_error {defaults : PolicyMap} {lines : List RuleLine} {fault : CompileError}
    (assigning : ∀ line ∈ lines, ∃ kind, line.policies.contains kind = true)
    (failed : checkLines defaults lines = .error fault) :
    ∃ before number kind after,
      lines.flatMap RuleLine.places = before ++ (number.toNat, kind) :: after ∧
        (∀ place ∈ before, defaults.contains place.2 = true) ∧
        defaults.contains kind = false ∧ fault = .missingDefault kind number := by
  induction lines with
  | nil => simp [checkLines] at failed
  | cons line rest ih =>
    obtain ⟨assigns, othersAssign⟩ := List.forall_mem_cons.mp assigning
    rcases bind_eq_error_iff.mp failed with failed | ⟨_, passed, failed⟩
    · rw [RuleLine.check, PolicyMap.isEmpty_eq_false_iff.mpr assigns] at failed
      simp only [Bool.false_eq_true, if_false] at failed
      split at failed
      · next kind found =>
        obtain ⟨missing, kindsBefore, kindsAfter, split, covered⟩ :=
          List.find?_eq_some_iff_append.mp found
        refine ⟨kindsBefore.map fun kind => (line.number.toNat, kind), line.number, kind,
          kindsAfter.map (fun kind => (line.number.toNat, kind)) ++ rest.flatMap RuleLine.places,
          ?_, ?_, ?_, (Except.error.inj failed).symm⟩
        · simp [RuleLine.places, split]
        · simpa using covered
        · simpa using missing
      · simp at failed
    · obtain ⟨before, number, kind, after, split, covered, others⟩ := ih othersAssign failed
      refine ⟨line.places ++ before, number, kind, after, ?_, ?_, others⟩
      · rw [List.flatMap_cons, split, List.append_assoc]
      · refine List.forall_mem_append.mpr ⟨List.forall_mem_map.mpr ?_, covered⟩
        intro kind member
        exact (RuleLine.check_eq_ok_iff.mp passed).2 kind (PolicyMap.mem_kinds.mp member)

namespace RuleText

section Drafts

variable {text : String} {draft : RuleDraft}

theorem assigning_of_parse (parsed : parse text = .ok draft) :
    ∀ line ∈ draft.lines, ∃ kind, line.policies.contains kind = true :=
  forall_lines_of_draftOfLines (fun _ _ _ => exists_contains_of_draftOfLine) parsed

variable (short : (Text.physicalLines text.toList).length < 2 ^ 32)
  (parsed : parse text = .ok draft)

include short parsed

/-- The draft of a text lists what the text declares, in order. -/
theorem declarations_of_parse :
    draft.declarations.Pairwise Place.Earlier ∧
      ∀ place : Place, place ∈ draft.declarations ↔ DeclaresAt text place.1 place.2 := by
  obtain ⟨sorted, _, listed⟩ := places_of_draftOfLines rfl
    (by simp [RuleDraft.declarations]) placesOf_declarations parsed (by omega)
  exact ⟨sorted, listed⟩

/-- The draft of a text lists what the text assigns, in order. -/
theorem assigned_of_parse :
    draft.assigned.Pairwise Place.Earlier ∧
      ∀ place : Place, place ∈ draft.assigned ↔ AssignsAt text place.1 place.2 := by
  obtain ⟨sorted, _, listed⟩ := places_of_draftOfLines rfl
    (by simp [RuleDraft.assigned]) placesOf_assigned parsed (by omega)
  exact ⟨sorted, listed⟩

/-- Fallbacks are refused for the first declaration that repeats the kind of an earlier line. -/
theorem first_of_collectDefaults_eq_error {fault : CompileError}
    (failed : collectDefaults draft.fallbacks = .error fault) :
    ∃ kind line, Place.First (RedeclaresAt text) line.toNat kind ∧
      fault = .duplicateDefault kind line := by
  obtain ⟨before, fallback, after, whole, unique, repeated, rfl⟩ :=
    collectDefaults_eq_error failed
  obtain ⟨sorted, listed⟩ := declarations_of_parse short parsed
  have split : draft.declarations =
      before.map Fallback.place ++ fallback.place :: after.map Fallback.place := by
    rw [RuleDraft.declarations, whole, List.map_append, List.map_cons]
  have kinds : ((before.map Fallback.place).map Prod.snd).Nodup := by
    rw [List.map_map]
    exact unique
  rw [split] at sorted listed
  refine ⟨fallback.kind, fallback.line, ⟨⟨?_, ?_⟩, ?_⟩, rfl⟩
  · exact (listed fallback.place).mp (by simp)
  · obtain ⟨earlier, member, same⟩ := List.mem_map.mp repeated
    have placeMember : earlier.place ∈ before.map Fallback.place := List.mem_map_of_mem member
    have declared := (listed earlier.place).mp (List.mem_append_left _ placeMember)
    rw [show earlier.place.2 = fallback.kind from same] at declared
    refine ⟨earlier.line.toNat, ?_, declared⟩
    rcases (List.pairwise_append.mp sorted).2.2 _ placeMember fallback.place List.mem_cons_self
      with less | ⟨_, kindLess⟩
    · exact less
    · rw [show earlier.place.2 = fallback.place.2 from same] at kindLess
      exact absurd kindLess (Nat.lt_irrefl _)
  · rintro other otherKind ⟨declared, earlier, less, declaredEarlier⟩
    refine least_of_split sorted ((listed (other, otherKind)).mpr declared) ?_
    intro member
    exact not_mem_of_nodup_kinds sorted kinds member less ((listed _).mpr declaredEarlier)

/-- Fallbacks that are accepted repeat no kind and leave their kinds as the defaults. -/
theorem declared_of_collectDefaults_eq_ok {defaults : PolicyMap}
    (collected : collectDefaults draft.fallbacks = .ok defaults) :
    (∀ number kind, ¬RedeclaresAt text number kind) ∧ DefaultsOf text defaults := by
  have declared := collectDefaults_eq_ok_iff.mp collected
  obtain ⟨_, listed⟩ := declarations_of_parse short parsed
  have kinds : draft.declarations.map Prod.snd = (draft.fallbacks.map Fallback.entry).map
      Prod.fst := by
    simp only [RuleDraft.declarations, List.map_map]
    rfl
  constructor
  · rintro number kind ⟨declaredHere, earlier, less, declaredEarlier⟩
    have unique : (draft.declarations.map Prod.snd).Nodup := by
      rw [kinds]
      exact (declared.map Prod.fst).nodup_iff.mpr defaults.nodup_kinds
    have same := List.inj_on_of_nodup_map unique ((listed (earlier, kind)).mpr declaredEarlier)
      ((listed (number, kind)).mpr declaredHere) rfl
    rw [(Prod.mk.inj same).1] at less
    exact absurd less (Nat.lt_irrefl _)
  · intro kind
    rw [← PolicyMap.mem_kinds, PolicyMap.kinds, ← (declared.map Prod.fst).mem_iff, ← kinds]
    simp only [List.mem_map, Prod.exists, exists_eq_right]
    exact exists_congr fun number => listed (number, kind)

/-- Lines are refused for the first kind that has no default. -/
theorem first_of_checkLines_eq_error {defaults : PolicyMap} (covering : DefaultsOf text defaults)
    {fault : CompileError} (failed : checkLines defaults draft.lines = .error fault) :
    ∃ kind line, Place.First (UncoveredAt text) line.toNat kind ∧
      fault = .missingDefault kind line := by
  obtain ⟨before, number, kind, after, split, covered, missing, rfl⟩ :=
    checkLines_eq_error (assigning_of_parse parsed) failed
  obtain ⟨sorted, listed⟩ := assigned_of_parse short parsed
  rw [RuleDraft.assigned, split] at sorted listed
  refine ⟨kind, number, ⟨⟨?_, ?_⟩, ?_⟩, rfl⟩
  · exact (listed (number.toNat, kind)).mp (by simp)
  · intro other declared
    rw [(covering kind).mpr ⟨other, declared⟩] at missing
    simp at missing
  · rintro other otherKind ⟨assigns, undeclared⟩
    refine least_of_split sorted ((listed (other, otherKind)).mpr assigns) ?_
    intro member
    obtain ⟨declaring, declared⟩ := (covering otherKind).mp (covered _ member)
    exact undeclared declaring declared

/-- Lines that are accepted assign no kind without default. -/
theorem not_uncovered_of_checkLines_eq_ok {defaults : PolicyMap}
    (covering : DefaultsOf text defaults)
    (checked : checkLines defaults draft.lines = .ok ()) (number : Nat) (kind : PolicyKind) :
    ¬UncoveredAt text number kind := by
  rintro ⟨assigns, undeclared⟩
  obtain ⟨_, listed⟩ := assigned_of_parse short parsed
  obtain ⟨line, lineMember, _, has⟩ :=
    RuleDraft.mem_assigned.mp ((listed (number, kind)).mpr assigns)
  have passed := RuleLine.check_eq_ok_iff.mp (checkLines_eq_ok_iff.mp checked line lineMember)
  obtain ⟨other, declared⟩ := (covering kind).mp (passed.2 kind has)
  exact undeclared other declared

/-- A draft has a line under the number of each rule, and no others. -/
theorem ruleAt_iff_of_parse (number : Nat) :
    RuleAt text number ↔ ∃ line ∈ draft.lines, line.number.toNat = number := by
  obtain ⟨_, listed⟩ := assigned_of_parse short parsed
  -- Rules and lines are compared by the kinds they assign, of which each has one at least.
  constructor
  · rintro ⟨physicalLine, member, constraints, assignments, said⟩
    obtain ⟨⟨kind, id⟩, assigned⟩ := List.exists_mem_of_ne_nil _ said.1.assigns
    have assigns : AssignsAt text number kind :=
      ⟨physicalLine, member, constraints, assignments, said, List.mem_map.mpr ⟨_, assigned, rfl⟩⟩
    obtain ⟨line, lineMember, same, _⟩ :=
      RuleDraft.mem_assigned.mp ((listed (number, kind)).mpr assigns)
    exact ⟨line, lineMember, same⟩
  · rintro ⟨line, lineMember, rfl⟩
    obtain ⟨kind, assigns⟩ := assigning_of_parse parsed line lineMember
    obtain ⟨physicalLine, member, constraints, assignments, said, _⟩ :=
      (listed (line.number.toNat, kind)).mp
        (RuleDraft.mem_assigned.mpr ⟨line, lineMember, rfl, assigns⟩)
    exact ⟨physicalLine, member, constraints, assignments, said⟩

end Drafts

end RuleText

/-! ## What a text makes -/

namespace RuleSet

open RuleText

section Texts

variable {text : String}

theorem ofText_of_parse_eq_ok {draft : RuleDraft} (parsed : parse text = .ok draft) :
    ofText text = (compile draft).mapError .compile := by
  rw [ofText, parsed]
  rfl

theorem ofText_of_faulty (short : (Text.physicalLines text.toList).length < 2 ^ 32)
    (faulty : ∃ number, FaultyAt text number) :
    ∃ fault, ofText text = .error (.parse fault) ∧ FaultyAt text fault.line.toNat ∧
      ∀ number, FaultyAt text number → fault.line.toNat ≤ number := by
  cases parsed : parse text with
  | ok draft =>
    obtain ⟨number, faultyHere⟩ := faulty
    exact absurd faultyHere (exists_parse_iff.mp ⟨draft, parsed⟩ number)
  | error fault =>
    refine ⟨fault, ?_, faultyAt_of_parse_eq_error short parsed⟩
    rw [ofText, parsed]
    rfl

variable (short : (Text.physicalLines text.toList).length < 2 ^ 32)
  (sound : ∀ number, ¬FaultyAt text number)

include short sound

theorem ofText_of_redeclared (redeclared : ∃ number kind, RedeclaresAt text number kind) :
    ∃ kind line, Place.First (RedeclaresAt text) line.toNat kind ∧
      ofText text = .error (.compile (.duplicateDefault kind line)) := by
  obtain ⟨draft, parsed⟩ := exists_parse_iff.mpr sound
  rw [ofText_of_parse_eq_ok parsed, compile]
  cases collected : collectDefaults draft.fallbacks with
  | ok defaults =>
    obtain ⟨number, kind, redeclaredHere⟩ := redeclared
    have once := (declared_of_collectDefaults_eq_ok short parsed collected).1
    exact absurd redeclaredHere (once number kind)
  | error fault =>
    obtain ⟨kind, line, first, rfl⟩ := first_of_collectDefaults_eq_error short parsed collected
    exact ⟨kind, line, first, rfl⟩

variable (once : ∀ number kind, ¬RedeclaresAt text number kind)

include once

/-- A text in which nothing is faulty or repeated has defaults, and is checked against them. -/
theorem exists_defaults :
    ∃ draft defaults, parse text = .ok draft ∧ DefaultsOf text defaults ∧
      ofText text = (do
        checkLines defaults draft.lines
        return ofLines draft.lines defaults : Except CompileError RuleSet).mapError .compile := by
  obtain ⟨draft, parsed⟩ := exists_parse_iff.mpr sound
  cases collected : collectDefaults draft.fallbacks with
  | ok defaults =>
    refine ⟨draft, defaults, parsed, ?_, ?_⟩
    · exact (declared_of_collectDefaults_eq_ok short parsed collected).2
    · rw [ofText_of_parse_eq_ok parsed, compile, collected]
      rfl
  | error fault =>
    obtain ⟨kind, line, first, _⟩ := first_of_collectDefaults_eq_error short parsed collected
    exact absurd first.holds (once _ _)

theorem ofText_of_uncovered (uncovered : ∃ number kind, UncoveredAt text number kind) :
    ∃ kind line, Place.First (UncoveredAt text) line.toNat kind ∧
      ofText text = .error (.compile (.missingDefault kind line)) := by
  obtain ⟨draft, defaults, parsed, covering, made⟩ := exists_defaults short sound once
  rw [made]
  cases checked : checkLines defaults draft.lines with
  | ok _ =>
    obtain ⟨number, kind, uncoveredHere⟩ := uncovered
    have covered := not_uncovered_of_checkLines_eq_ok short parsed covering checked
    exact absurd uncoveredHere (covered number kind)
  | error fault =>
    obtain ⟨kind, line, first, rfl⟩ := first_of_checkLines_eq_error short parsed covering checked
    exact ⟨kind, line, first, rfl⟩

theorem ofText_of_covered (covered : ∀ number kind, ¬UncoveredAt text number kind) :
    ∃ rules, ofText text = .ok rules ∧
      (rules.lines.toList.Pairwise fun earlier later => earlier.number < later.number) ∧
      ∀ number, RuleAt text number ↔ ∃ line ∈ rules.lines, line.number.toNat = number := by
  obtain ⟨draft, defaults, parsed, covering, made⟩ := exists_defaults short sound once
  rw [made]
  cases checked : checkLines defaults draft.lines with
  | ok _ =>
    refine ⟨ofLines draft.lines defaults, rfl, ?_, ?_⟩
    · exact (linesBetween_draftOfLines parsed (by omega)).increasing
    · intro number
      rw [ruleAt_iff_of_parse short parsed]
      simp [ofLines]
  | error fault =>
    obtain ⟨kind, line, first, _⟩ := first_of_checkLines_eq_error short parsed covering checked
    exact absurd first.holds (covered _ _)

end Texts

/-- A text is refused for its first faulty line, if it has one; else for its first declaration of a
kind that an earlier line declares; else for the first kind that a rule assigns and no line
declares. A text without such faults makes a rule set, which has one line for each rule. No text is
refused because a rule assigns nothing. -/
theorem ofText_eq_of_firstFault (text : String)
    (short : (Text.physicalLines text.toList).length < 2 ^ 32) :
    ((∃ number, FaultyAt text number) →
      ∃ fault, ofText text = .error (.parse fault) ∧ FaultyAt text fault.line.toNat ∧
        ∀ number, FaultyAt text number → fault.line.toNat ≤ number) ∧
    ((∀ number, ¬FaultyAt text number) →
      ((∃ number kind, RedeclaresAt text number kind) →
        ∃ kind line, Place.First (RedeclaresAt text) line.toNat kind ∧
          ofText text = .error (.compile (.duplicateDefault kind line))) ∧
      ((∀ number kind, ¬RedeclaresAt text number kind) →
        ((∃ number kind, UncoveredAt text number kind) →
          ∃ kind line, Place.First (UncoveredAt text) line.toNat kind ∧
            ofText text = .error (.compile (.missingDefault kind line))) ∧
        ((∀ number kind, ¬UncoveredAt text number kind) →
          ∃ rules, ofText text = .ok rules ∧
            (rules.lines.toList.Pairwise fun earlier later => earlier.number < later.number) ∧
            ∀ number, RuleAt text number ↔
              ∃ line ∈ rules.lines, line.number.toNat = number))) ∧
    ∀ number, ofText text ≠ .error (.compile (.noAssignments number)) := by
  refine ⟨ofText_of_faulty short, ?_, ?_⟩
  · intro sound
    refine ⟨ofText_of_redeclared short sound, ?_⟩
    intro once
    exact ⟨ofText_of_uncovered short sound once, ofText_of_covered short sound once⟩
  · intro number
    by_cases sound : ∃ other, FaultyAt text other
    · obtain ⟨fault, failed, _⟩ := ofText_of_faulty short sound
      simp [failed]
    push Not at sound
    by_cases once : ∃ other kind, RedeclaresAt text other kind
    · obtain ⟨kind, line, _, failed⟩ := ofText_of_redeclared short sound once
      simp [failed]
    push Not at once
    by_cases covered : ∃ other kind, UncoveredAt text other kind
    · obtain ⟨kind, line, _, failed⟩ := ofText_of_uncovered short sound once covered
      simp [failed]
    push Not at covered
    obtain ⟨rules, made, _⟩ := ofText_of_covered short sound once covered
    simp [made]

/-- A rule whose kinds are declared later, or not at all, and written out of order. -/
def uncoveredText : String :=
  "# drafts\n\n all: r hold\nm book: n quiet l week r hold\n\nfallback-policy: r none // no loans\n"

theorem ofText_eq_of_firstFault_uncoveredText :
    ofText uncoveredText = .error (.compile (.missingDefault .loan 4)) ∧
      Place.First (UncoveredAt uncoveredText) 4 .loan := by
  have refused : ofText uncoveredText = .error (.compile (.missingDefault .loan 4)) := by cbv
  obtain ⟨faulty, others, _⟩ := ofText_eq_of_firstFault uncoveredText (by decide +kernel)
  have sound : ∀ number, ¬FaultyAt uncoveredText number := by
    intro number faultyHere
    obtain ⟨fault, failed, _⟩ := faulty ⟨number, faultyHere⟩
    simp [refused] at failed
  obtain ⟨redeclared, others⟩ := others sound
  have once : ∀ number kind, ¬RedeclaresAt uncoveredText number kind := by
    intro number kind redeclaredHere
    obtain ⟨_, _, _, failed⟩ := redeclared ⟨number, kind, redeclaredHere⟩
    simp [refused] at failed
  obtain ⟨uncovered, covered⟩ := others once
  by_cases lacking : ∃ number kind, UncoveredAt uncoveredText number kind
  · obtain ⟨kind, line, first, failed⟩ := uncovered lacking
    rw [refused] at failed
    cases failed
    exact ⟨refused, first⟩
  · push Not at lacking
    obtain ⟨_, made, _⟩ := covered lacking
    simp [refused] at made

end RuleSet

end Circulation
