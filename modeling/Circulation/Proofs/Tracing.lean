import Circulation.Proofs.Applying

/-!
Contract: the lines that matches name, found again by their numbers.

Owns:
- that halving finds the line with a number among lines in the order of their numbers, if there is
  one;
- that every match of an answer but the last names a line, which applies to the query and assigns
  what the match says, and that no two matches name the same line.

Does not own: in which order matches follow one another.
-/

namespace Circulation.RuleSet

/-! ## Lines by number -/

section Lookup

variable {rules : RuleSet} {number : UInt32} {line : RuleLine}

/-- Lines stand in the order of their numbers. -/
theorem number_lt_of_position_lt (wellFormed : rules.WellFormed) {position later : Nat}
    {laterLine : RuleLine} (before : position < later)
    (found : rules.lines[position]? = some line)
    (laterFound : rules.lines[later]? = some laterLine) : line.number < laterLine.number := by
  obtain ⟨inRange, rfl⟩ := Array.getElem?_eq_some_iff.mp found
  obtain ⟨laterInRange, rfl⟩ := Array.getElem?_eq_some_iff.mp laterFound
  exact List.pairwise_iff_getElem.mp wellFormed.increasing position later
    (Array.length_toList ▸ inRange) (Array.length_toList ▸ laterInRange) before

theorem position_lt_of_number_lt (wellFormed : rules.WellFormed) {position later : Nat}
    {laterLine : RuleLine} (found : rules.lines[position]? = some line)
    (laterFound : rules.lines[later]? = some laterLine) (less : line.number < laterLine.number) :
    position < later := by
  rw [← Nat.not_le]
  intro notBefore
  rcases Nat.lt_or_eq_of_le notBefore with behind | rfl
  · exact UInt32.lt_asymm less (number_lt_of_position_lt wellFormed behind laterFound found)
  · rw [Option.some.inj (found.symm.trans laterFound)] at less
    exact UInt32.lt_irrefl _ less

/-- Numbers tell lines apart. -/
theorem eq_of_number_eq (wellFormed : rules.WellFormed) {position other : Nat}
    {otherLine : RuleLine} (found : rules.lines[position]? = some line)
    (otherFound : rules.lines[other]? = some otherLine) (same : line.number = otherLine.number) :
    line = otherLine := by
  rcases Nat.lt_trichotomy position other with before | rfl | behind
  · exact absurd same
      (Std.ne_of_lt (number_lt_of_position_lt wellFormed before found otherFound))
  · exact Option.some.inj (found.symm.trans otherFound)
  · exact absurd same.symm
      (Std.ne_of_lt (number_lt_of_position_lt wellFormed behind otherFound found))

/-- Halving finds the line with a number between two positions, if there is one there. -/
theorem lineBetween?_eq_some_iff (wellFormed : rules.WellFormed) {low high : Nat}
    {inBounds : high ≤ rules.lines.size} :
    rules.lineBetween? number low high inBounds = some line ↔
      line.number = number ∧
        ∃ position, low ≤ position ∧ position < high ∧ rules.lines[position]? = some line := by
  fun_induction lineBetween? rules number low high inBounds with
  | case1 low high inBounds nonempty middle inRange here found =>
    have foundHere : rules.lines[middle]? = some here := Array.getElem?_eq_getElem inRange
    rw [Option.some.injEq]
    constructor
    · rintro rfl
      exact ⟨found, middle, by omega, by omega, foundHere⟩
    · rintro ⟨numbered, position, _, _, foundThere⟩
      exact eq_of_number_eq wellFormed foundHere foundThere (found.trans numbered.symm)
  | case2 low high inBounds nonempty middle inRange here notFound less ih =>
    -- The number is greater than that of the middle line, so its line stands behind.
    have foundHere : rules.lines[middle]? = some here := Array.getElem?_eq_getElem inRange
    rw [ih]
    constructor
    · rintro ⟨numbered, position, above, below, foundThere⟩
      exact ⟨numbered, position, by omega, below, foundThere⟩
    · rintro ⟨numbered, position, above, below, foundThere⟩
      have behind := position_lt_of_number_lt wellFormed foundHere foundThere (numbered ▸ less)
      exact ⟨numbered, position, behind, below, foundThere⟩
  | case3 low high inBounds nonempty middle inRange here notFound notLess ih =>
    have foundHere : rules.lines[middle]? = some here := Array.getElem?_eq_getElem inRange
    have greater : number < here.number :=
      Std.lt_of_le_of_ne (Std.not_lt.mp notLess) (Ne.symm notFound)
    rw [ih]
    constructor
    · rintro ⟨numbered, position, above, below, foundThere⟩
      exact ⟨numbered, position, above, by omega, foundThere⟩
    · rintro ⟨numbered, position, above, below, foundThere⟩
      have before := position_lt_of_number_lt wellFormed foundThere foundHere (numbered ▸ greater)
      exact ⟨numbered, position, above, before, foundThere⟩
  | case4 low high inBounds isEmpty =>
    constructor
    · simp
    · rintro ⟨_, position, above, below, _⟩
      omega

/-- The line with a number is found, if there is one. -/
theorem line?_eq_some_iff (wellFormed : rules.WellFormed) :
    rules.line? number = some line ↔ line ∈ rules.lines ∧ line.number = number := by
  rw [line?, lineBetween?_eq_some_iff wellFormed, and_comm, Array.mem_iff_getElem?]
  refine and_congr_left fun _ => exists_congr fun position => ?_
  constructor
  · rintro ⟨_, _, found⟩
    exact found
  · intro found
    obtain ⟨inRange, _⟩ := Array.getElem?_eq_some_iff.mp found
    exact ⟨Nat.zero_le position, inRange, found⟩

theorem line?_eq_none_iff (wellFormed : rules.WellFormed) :
    rules.line? number = none ↔ ∀ line ∈ rules.lines, line.number ≠ number := by
  rw [Option.eq_none_iff_forall_ne_some]
  simp only [ne_eq, line?_eq_some_iff wellFormed, not_and]

end Lookup

/-! ## Lines of matches -/

section Matches

variable {rules : RuleSet} {query : Query} {ancestors : Ancestors}

/-- The match of a line that applies leads back to that line. -/
theorem exists_line?_of_mem (wellFormed : rules.WellFormed) {entry : Match}
    (member : entry ∈ rules.applyingMatches query ancestors) :
    entry.line ≠ 0 ∧ ∃ line, rules.line? entry.line = some line ∧
      line.accepts query ancestors = true ∧
      line.policies.get query.kind = some entry.policyId ∧
      line.specificity = entry.specificity := by
  obtain ⟨line, lineMember, accepted, assigned, numbered, scored⟩ := mem_applyingMatches.mp member
  refine ⟨?_, line, (line?_eq_some_iff wellFormed).mpr ⟨lineMember, numbered⟩, accepted, assigned,
    scored⟩
  rw [← numbered]
  have positive := UInt32.le_iff_toNat_le.mp (wellFormed.numbered line lineMember)
  intro isZero
  simp [isZero] at positive

/-- No line has two matches, and none bears the number of the fallback. -/
theorem nodup_lines_of_applyingMatches (wellFormed : rules.WellFormed) (policyId : String) :
    (((rules.applyingMatches query ancestors).mergeSort Match.precedes ++
      [Match.fallback policyId]).map Match.line).Nodup := by
  rw [List.map_append, List.nodup_append]
  refine ⟨?_, List.nodup_singleton _, ?_⟩
  · have perm := (List.mergeSort_perm (rules.applyingMatches query ancestors)
      Match.precedes).map Match.line
    rw [perm.nodup_iff]
    exact List.pairwise_map.mpr ((increasing_applyingMatches wellFormed).imp Std.ne_of_lt)
  · intro number numberMember last isLast
    obtain ⟨entry, entryMember, rfl⟩ := List.mem_map.mp numberMember
    rw [List.mem_singleton.mp isLast]
    exact (exists_line?_of_mem wellFormed (List.mem_mergeSort.mp entryMember)).1

end Matches

/-- A line is found by its number exactly if there is one. Every match of an answer names such a
line, which accepts the query, assigns its kind the policy of the match and is as specific as the
match is; only the last one names line 0 and has the default policy. No two name the same line. -/
theorem matches_traced {rules : RuleSet} (obtained : rules.Obtained) :
    (∀ number line, rules.line? number = some line ↔
      line ∈ rules.lines ∧ line.number = number) ∧
    (∀ number, rules.line? number = none ↔ ∀ line ∈ rules.lines, line.number ≠ number) ∧
    ∀ (hierarchy : Hierarchy) (query : Query) (found : MatchList),
      rules.resolveAll hierarchy query = .ok found →
      ∃ ancestors policyId traced, hierarchy.ancestors? query.location = some ancestors ∧
        rules.defaults.get query.kind = some policyId ∧
        found.entries = traced ++ [⟨policyId, 0, 0⟩] ∧
        (∀ entry ∈ traced, entry.line ≠ 0 ∧ ∃ line, rules.line? entry.line = some line ∧
          line.accepts query ancestors = true ∧
          line.policies.get query.kind = some entry.policyId ∧
          line.specificity = entry.specificity) ∧
        (found.entries.map Match.line).Nodup := by
  have wellFormed := wellFormed_of_obtained obtained
  refine ⟨fun _ _ => line?_eq_some_iff wellFormed, fun _ => line?_eq_none_iff wellFormed, ?_⟩
  intro hierarchy query found answered
  rcases resolve_cases obtained.made hierarchy query with
    ⟨_, _, _, _, ⟨policyId, declared⟩, known⟩ | ⟨cause, _, refused, _⟩
  · obtain ⟨ancestors, located⟩ := Option.isSome_iff_exists.mp known
    rw [resolveAll_eq_applyingMatches obtained declared located] at answered
    rw [← Except.ok.inj answered]
    refine ⟨ancestors, policyId, _, located, declared, rfl, ?_,
      nodup_lines_of_applyingMatches wellFormed policyId⟩
    intro entry member
    exact exists_line?_of_mem wellFormed (List.mem_mergeSort.mp member)
  · simp [refused] at answered

theorem matches_traced_sampleText :
    ∃ rules, ofText sampleText = .ok rules ∧
      rules.resolveAll ⟨[("desk", ⟨"main", "city", "north"⟩)]⟩ sampleQuery =
        .ok ⟨[⟨"hour", 6, 5⟩, ⟨"week", 4, 1⟩, ⟨"day", 5, 0⟩, ⟨"none", 0, 0⟩]⟩ ∧
      (∃ line ∈ rules.lines, line.number = 6 ∧ line.policies.get .loan = some "hour" ∧
        line.accepts sampleQuery ⟨"main", "city", "north"⟩ = true) ∧
      ∀ line ∈ rules.lines, line.number ≠ 2 := by
  have compiled : ∃ rules, ofText sampleText = .ok rules ∧
      rules.resolveAll ⟨[("desk", ⟨"main", "city", "north"⟩)]⟩ sampleQuery =
        .ok ⟨[⟨"hour", 6, 5⟩, ⟨"week", 4, 1⟩, ⟨"day", 5, 0⟩, ⟨"none", 0, 0⟩]⟩ ∧
      rules.line? 2 = none := ⟨_, by cbv, by cbv, by cbv⟩
  obtain ⟨rules, read, answered, absent⟩ := compiled
  obtain ⟨found, missing, traced⟩ :=
    matches_traced (.fromText sampleText (by decide +kernel) read)
  obtain ⟨ancestors, policyId, entries, located, _, whole, lines, _⟩ := traced _ _ _ answered
  cases Option.some.inj located
  refine ⟨rules, read, answered, ?_, (missing 2).mp absent⟩
  cases entries with
  | nil => simp at whole
  | cons first others =>
    obtain ⟨rfl, _⟩ := List.cons.inj whole
    obtain ⟨_, line, atNumber, accepted, assigned, _⟩ := lines _ List.mem_cons_self
    obtain ⟨member, numbered⟩ := (found _ _).mp atNumber
    exact ⟨line, member, numbered, assigned, accepted⟩

end Circulation.RuleSet
