import Circulation.Proofs.Drafting
import Circulation.Proofs.Reading

/-!
Contract: the places of a draft, which are the kinds that its lines declare or assign.

Owns:
- the order of places, and which of several is the first;
- that a draft lists its declarations and its assignments in that order;
- that these are what the physical lines declare and assign.

Does not own: faulty lines, or the checks of a draft.
-/

namespace Circulation

/-! ## Places -/

/-- A line and a kind that it declares or assigns. -/
abbrev Place := Nat × PolicyKind

/-- A place on an earlier line, or of an earlier kind on the same line. -/
def Place.Earlier (place other : Place) : Prop :=
  place.1 < other.1 ∨
    place.1 = other.1 ∧ PolicyKind.all.idxOf place.2 < PolicyKind.all.idxOf other.2

theorem Place.Earlier.asymm {place other : Place} (before : place.Earlier other) :
    ¬other.Earlier place := by
  unfold Earlier at *
  omega

/-- The place that `property` holds of and that no other such place comes before. -/
structure Place.First (property : Nat → PolicyKind → Prop) (number : Nat) (kind : PolicyKind) :
    Prop where
  holds : property number kind
  least : ∀ other otherKind, property other otherKind →
    number < other ∨
      number = other ∧ PolicyKind.all.idxOf kind ≤ PolicyKind.all.idxOf otherKind

section Sorted

variable {places before after : List Place} {place : Place}

/-- In a sorted list, what does not stand before a place comes no earlier. -/
theorem least_of_split (sorted : (before ++ place :: after).Pairwise Place.Earlier) {other : Place}
    (member : other ∈ before ++ place :: after) (notBefore : other ∉ before) :
    place.1 < other.1 ∨
      place.1 = other.1 ∧ PolicyKind.all.idxOf place.2 ≤ PolicyKind.all.idxOf other.2 := by
  rcases List.mem_append.mp member with member | member
  · exact absurd member notBefore
  · rcases List.mem_cons.mp member with rfl | member
    · exact Or.inr ⟨rfl, Nat.le_refl _⟩
    · have behind := (List.pairwise_cons.mp (List.pairwise_append.mp sorted).2.1).1 other member
      unfold Place.Earlier at behind
      omega

/-- In a sorted list, what comes earlier than an entry stands before it. -/
theorem mem_of_earlier (sorted : (before ++ after).Pairwise Place.Earlier) {other : Place}
    (member : other ∈ before ++ after) (placeMember : place ∈ before)
    (earlier : other.Earlier place) : other ∈ before := by
  rcases List.mem_append.mp member with member | member
  · exact member
  · have behind := (List.pairwise_append.mp sorted).2.2 place placeMember other member
    exact absurd earlier behind.asymm

/-- If the first part of a sorted list has no kind twice, none of its kinds stands on an earlier
line anywhere in the list. -/
theorem not_mem_of_nodup_kinds (sorted : (before ++ after).Pairwise Place.Earlier)
    (unique : (before.map Prod.snd).Nodup) (placeMember : place ∈ before) {number : Nat}
    (less : number < place.1) : (number, place.2) ∉ before ++ after := by
  intro member
  have otherMember := mem_of_earlier sorted member placeMember (Or.inl less)
  have same := List.inj_on_of_nodup_map unique otherMember placeMember rfl
  rw [← same] at less
  exact absurd less (Nat.lt_irrefl _)

end Sorted

/-! ## Places of a draft -/

def Fallback.place (fallback : Fallback) : Place :=
  (fallback.line.toNat, fallback.kind)

def RuleLine.places (line : RuleLine) : List Place :=
  line.policies.kinds.map fun kind => (line.number.toNat, kind)

namespace RuleDraft

/-- The kinds that fallbacks declare, each with its line. -/
def declarations (draft : RuleDraft) : List Place :=
  draft.fallbacks.map Fallback.place

/-- The kinds that rule lines assign, each with its line. -/
def assigned (draft : RuleDraft) : List Place :=
  draft.lines.flatMap RuleLine.places

theorem mem_assigned {draft : RuleDraft} {place : Place} :
    place ∈ draft.assigned ↔
      ∃ line ∈ draft.lines, line.number.toNat = place.1 ∧
        line.policies.contains place.2 = true := by
  obtain ⟨number, kind⟩ := place
  simp only [assigned, RuleLine.places, List.mem_flatMap, List.mem_map, Prod.mk.injEq,
    PolicyMap.mem_kinds]
  constructor
  · rintro ⟨line, member, _, assigns, rfl, rfl⟩
    exact ⟨line, member, rfl, assigns⟩
  · rintro ⟨line, member, rfl, assigns⟩
    exact ⟨line, member, kind, assigns, rfl, rfl⟩

end RuleDraft

namespace RuleText

/-- The physical line declares a default for a kind. -/
def Declares (physicalLine : List Char) (kind : PolicyKind) : Prop :=
  ∃ assignments, Says physicalLine (.fallback assignments) ∧ kind ∈ assignments.map Prod.fst

/-- The physical line is a rule that assigns a kind. -/
def Assigns (physicalLine : List Char) (kind : PolicyKind) : Prop :=
  ∃ constraints assignments, Says physicalLine (.rule constraints assignments) ∧
    kind ∈ assignments.map Prod.fst

/-- Places of one line: some of the kinds, in order. -/
def PlacesOf (number : Nat) (present : PolicyKind → Prop) (places : List Place) : Prop :=
  ∃ kinds : List PolicyKind, kinds.Sublist PolicyKind.all ∧ (∀ kind, kind ∈ kinds ↔ present kind) ∧
    places = kinds.map fun kind => (number, kind)

theorem sublist_kinds (policies : PolicyMap) : policies.kinds.Sublist PolicyKind.all := by
  rw [PolicyMap.kinds_eq_filter]
  exact List.filter_sublist

theorem mem_kinds_of_perm {assignments : List (PolicyKind × String)} {policies : PolicyMap}
    (assigned : assignments.Perm policies.entries) (kind : PolicyKind) :
    kind ∈ policies.kinds ↔ kind ∈ assignments.map Prod.fst :=
  (assigned.map Prod.fst).mem_iff.symm

section Lines

variable {number : Nat} {physicalLine : List Char} {draft : RuleDraft}

theorem placesOf_declarations
    (drafted : draftOfLine (UInt32.ofNat number) physicalLine = .ok draft)
    (small : number < 2 ^ 32) :
    PlacesOf number (Declares physicalLine) draft.declarations := by
  have value : (UInt32.ofNat number).toNat = number := UInt32.toNat_ofNat_of_lt' small
  rcases draftOfLine_eq_ok_iff.mp drafted with ⟨blank, rfl⟩ | ⟨statement, said, writes⟩
  · exact ⟨[], List.nil_sublist _, by simp [Declares, not_says_of_blank blank], rfl⟩
  · cases writes with
    | @fallback assignments policies assigned =>
      refine ⟨policies.kinds, sublist_kinds policies, ?_, ?_⟩
      · simp [Declares, said.iff_eq, mem_kinds_of_perm assigned]
      · simp [RuleDraft.declarations, Fallback.place, PolicyMap.kinds, value]
    | rule demanded assigned =>
      exact ⟨[], List.nil_sublist _, by simp [Declares, said.iff_eq], rfl⟩

theorem placesOf_assigned
    (drafted : draftOfLine (UInt32.ofNat number) physicalLine = .ok draft)
    (small : number < 2 ^ 32) :
    PlacesOf number (Assigns physicalLine) draft.assigned := by
  have value : (UInt32.ofNat number).toNat = number := UInt32.toNat_ofNat_of_lt' small
  rcases draftOfLine_eq_ok_iff.mp drafted with ⟨blank, rfl⟩ | ⟨statement, said, writes⟩
  · exact ⟨[], List.nil_sublist _, by simp [Assigns, not_says_of_blank blank], rfl⟩
  · cases writes with
    | fallback assigned =>
      exact ⟨[], List.nil_sublist _, by simp [Assigns, said.iff_eq], rfl⟩
    | @rule constraints assignments conditions policies demanded assigned =>
      refine ⟨policies.kinds, sublist_kinds policies, ?_, ?_⟩
      · simp [Assigns, said.iff_eq, mem_kinds_of_perm assigned]
      · simp [RuleDraft.assigned, RuleLine.places, RuleLine.scored, value]

/-- A rule line assigns something, since a statement does. -/
theorem exists_contains_of_draftOfLine {number : UInt32}
    (drafted : draftOfLine number physicalLine = .ok draft) :
    ∀ line ∈ draft.lines, ∃ kind, line.policies.contains kind = true := by
  rcases draftOfLine_eq_ok_iff.mp drafted with ⟨_, rfl⟩ | ⟨statement, said, writes⟩
  · simp [RuleDraft.empty]
  · cases writes with
    | fallback assigned => simp
    | @rule constraints assignments conditions policies demanded assigned =>
      obtain ⟨⟨kind, id⟩, member⟩ := List.exists_mem_of_ne_nil _ said.1.assigns
      intro line lineMember
      rw [List.mem_singleton.mp lineMember]
      refine ⟨kind, PolicyMap.mem_kinds.mp ?_⟩
      exact (mem_kinds_of_perm assigned kind).mpr (List.mem_map.mpr ⟨_, member, rfl⟩)

end Lines

/-! ## Places of a text -/

theorem forall_lines_of_draftOfLines {property : RuleLine → Prop} {number : Nat}
    {lines : List (List Char)} {draft : RuleDraft}
    (each : ∀ number line part, draftOfLine number line = .ok part →
      ∀ ruleLine ∈ part.lines, property ruleLine)
    (drafted : draftOfLines number lines = .ok draft) :
    ∀ ruleLine ∈ draft.lines, property ruleLine := by
  induction lines generalizing number draft with
  | nil =>
    cases Except.ok.inj drafted
    simp [RuleDraft.empty]
  | cons line rest ih =>
    obtain ⟨first, others, firstDrafted, othersDrafted, rfl⟩ :=
      draftOfLines_cons_eq_ok_iff.mp drafted
    intro ruleLine member
    rcases List.mem_append.mp member with member | member
    · exact each _ _ _ firstDrafted ruleLine member
    · exact ih othersDrafted ruleLine member

/-- What a draft lists line by line and kind by kind is sorted, and lists exactly what the lines
present. -/
theorem places_of_draftOfLines {places : RuleDraft → List Place}
    {present : List Char → PolicyKind → Prop}
    (placesOfEmpty : places .empty = [])
    (placesOfAppend : ∀ first second, places (first ++ second) = places first ++ places second)
    (each : ∀ {number : Nat} {line part}, draftOfLine (UInt32.ofNat number) line = .ok part →
      number < 2 ^ 32 → PlacesOf number (present line) (places part))
    {number : Nat} {lines : List (List Char)} {draft : RuleDraft}
    (drafted : draftOfLines number lines = .ok draft) (small : number + lines.length ≤ 2 ^ 32) :
    (places draft).Pairwise Place.Earlier ∧ (∀ place ∈ places draft, number ≤ place.1) ∧
      ∀ place : Place, place ∈ places draft ↔
        ∃ line, (line, place.1) ∈ lines.zipIdx number ∧ present line place.2 := by
  induction lines generalizing number draft with
  | nil =>
    cases Except.ok.inj drafted
    simp [placesOfEmpty]
  | cons line rest ih =>
    obtain ⟨first, others, firstDrafted, othersDrafted, rfl⟩ :=
      draftOfLines_cons_eq_ok_iff.mp drafted
    -- The bound below all places of the other lines is what puts the places of this one in front.
    rw [List.length_cons] at small
    obtain ⟨kinds, inOrder, presentHere, firstPlaces⟩ := each firstDrafted (by omega)
    obtain ⟨sorted, bounds, listed⟩ := ih othersDrafted (by omega)
    rw [placesOfAppend, firstPlaces]
    have kindsSorted : PolicyKind.all.Pairwise fun kind other =>
        PolicyKind.all.idxOf kind < PolicyKind.all.idxOf other := by decide
    refine ⟨List.pairwise_append.mpr ⟨?_, sorted, ?_⟩, ?_, ?_⟩
    · refine List.pairwise_map.mpr ((kindsSorted.sublist inOrder).imp ?_)
      intro kind other before
      exact Or.inr ⟨rfl, before⟩
    · intro place member other otherMember
      obtain ⟨kind, _, rfl⟩ := List.mem_map.mp member
      exact Or.inl (bounds other otherMember)
    · intro place member
      rcases List.mem_append.mp member with member | member
      · obtain ⟨kind, _, rfl⟩ := List.mem_map.mp member
        exact Nat.le_refl number
      · exact Nat.le_of_succ_le (bounds place member)
    · rintro ⟨position, kind⟩
      simp only [List.mem_append, List.mem_map, Prod.mk.injEq, listed, List.zipIdx_cons,
        List.mem_cons, presentHere]
      constructor
      · rintro (⟨_, here, rfl, rfl⟩ | ⟨other, member, there⟩)
        · exact ⟨line, Or.inl ⟨rfl, rfl⟩, here⟩
        · exact ⟨other, Or.inr member, there⟩
      · rintro ⟨other, ⟨rfl, rfl⟩ | member, there⟩
        · exact Or.inl ⟨kind, there, rfl, rfl⟩
        · exact Or.inr ⟨other, member, there⟩

end RuleText

end Circulation
