import Circulation.Outcome
import Circulation.Rule.RuleSet
import Mathlib.Data.List.Nodup
import Mathlib.Data.List.Perm.Basic

/-!
Contract: entries collected one by one under keys of which each may be taken once.

Owns:
- when entries are collected, what the collection then holds, and which entry is refused first;
- that assignments, constraints and fallbacks are collected exactly if they are, in some order, the
  entries of the collection.

Does not own: where the entries come from.
-/

namespace Circulation

/-! ## Steps that may fail -/

/-- A run of steps fails exactly if the steps before some entry succeed and its own step fails. -/
theorem foldlM_eq_error_iff {σ β ε : Type} {step : σ → β → Except ε σ} {start : σ}
    {entries : List β} {fault : ε} :
    entries.foldlM step start = .error fault ↔
      ∃ before entry after middle, entries = before ++ entry :: after ∧
        before.foldlM step start = .ok middle ∧ step middle entry = .error fault := by
  induction entries generalizing start with
  | nil => simp [pure, Except.pure]
  | cons first rest ih =>
    rw [List.foldlM_cons, bind_eq_error_iff]
    constructor
    · rintro (refused | ⟨next, taken, failed⟩)
      · exact ⟨[], first, rest, start, rfl, rfl, refused⟩
      · obtain ⟨before, entry, after, middle, rfl, passed, refused⟩ := ih.mp failed
        refine ⟨first :: before, entry, after, middle, rfl, ?_, refused⟩
        rw [List.foldlM_cons, taken]
        exact passed
    · rintro ⟨before, entry, after, middle, split, passed, refused⟩
      cases before with
      | nil =>
        obtain ⟨rfl, rfl⟩ := List.cons.inj split
        cases Except.ok.inj passed
        exact Or.inl refused
      | cons head others =>
        obtain ⟨rfl, rfl⟩ := List.cons.inj split
        rw [List.foldlM_cons] at passed
        obtain ⟨next, taken, passed⟩ := bind_eq_ok_iff.mp passed
        exact Or.inr ⟨next, taken, ih.mpr ⟨others, entry, after, middle, rfl, passed, refused⟩⟩

/-! ## Collections -/

section Collections

variable {σ κ α β ε : Type} [DecidableEq κ]

/-- Steps that put each entry under its key unless the key is taken, and touch no other key. What a
collection holds under its keys is all there is to it. -/
structure Collecting (held? : σ → κ → Option α) (pair : β → κ × α)
    (step : σ → β → Except ε σ) (entries : List β) : Prop where
  ext : ∀ {left right : σ}, (∀ key, held? left key = held? right key) → left = right
  put : ∀ entry ∈ entries, ∀ before, held? before (pair entry).1 = none →
    ∃ after, step before entry = .ok after ∧
      ∀ key, held? after key =
        if key = (pair entry).1 then some (pair entry).2 else held? before key
  refuse : ∀ entry ∈ entries, ∀ before, held? before (pair entry).1 ≠ none →
    ∃ fault, step before entry = .error fault

variable {held? : σ → κ → Option α} {pair : β → κ × α} {step : σ → β → Except ε σ}
  {entries : List β}

theorem Collecting.of_subset {others : List β} (collecting : Collecting held? pair step entries)
    (subset : others ⊆ entries) : Collecting held? pair step others :=
  ⟨collecting.ext, fun entry member => collecting.put entry (subset member),
    fun entry member => collecting.refuse entry (subset member)⟩

/-- Entries are collected exactly if no key is taken twice or was taken before, and the collection
then holds them and what it held before. -/
theorem Collecting.foldlM_eq_ok_iff (collecting : Collecting held? pair step entries)
    {start final : σ} :
    entries.foldlM step start = .ok final ↔
      ((entries.map pair).map Prod.fst).Nodup ∧
        (∀ entry ∈ entries, held? start (pair entry).1 = none) ∧
        ∀ key value, held? final key = some value ↔
          (key, value) ∈ entries.map pair ∨ held? start key = some value := by
  induction entries generalizing start with
  | nil =>
    constructor
    · intro same
      cases Except.ok.inj same
      simp
    · rintro ⟨_, _, held⟩
      have same : start = final := by
        apply collecting.ext
        intro key
        apply Option.ext
        intro value
        simpa using (held key value).symm
      rw [same]
      rfl
  | cons first rest ih =>
    have others : Collecting held? pair step rest :=
      collecting.of_subset (List.subset_cons_self first rest)
    rw [List.foldlM_cons]
    cases vacant : held? start (pair first).1 with
    | some value =>
      obtain ⟨fault, refused⟩ :=
        collecting.refuse first List.mem_cons_self start (by simp [vacant])
      simp [refused, vacant]
    | none =>
      obtain ⟨next, taken, holds⟩ := collecting.put first List.mem_cons_self start vacant
      rw [taken, ok_bind, ih others, List.map_cons, List.map_cons, List.nodup_cons]
      have unmoved : ∀ key, key ≠ (pair first).1 → held? next key = held? start key := by
        intro key distinct
        rw [holds, if_neg distinct]
      have heldFirst : held? next (pair first).1 = some (pair first).2 := by
        rw [holds, if_pos rfl]
      constructor
      · rintro ⟨unique, fresh, held⟩
        have absent : (pair first).1 ∉ (rest.map pair).map Prod.fst := by
          intro member
          obtain ⟨_, pairMember, same⟩ := List.mem_map.mp member
          obtain ⟨entry, entryMember, rfl⟩ := List.mem_map.mp pairMember
          have freshEntry := fresh entry entryMember
          rw [same, heldFirst] at freshEntry
          simp at freshEntry
        grind
      · rintro ⟨⟨absent, unique⟩, fresh, held⟩
        refine ⟨unique, ?_, ?_⟩
        · intro entry member
          rw [unmoved]
          · exact fresh entry (List.mem_cons_of_mem _ member)
          · rintro same
            exact absent (List.mem_map.mpr
              ⟨pair entry, List.mem_map.mpr ⟨entry, member, rfl⟩, same⟩)
        · grind

/-- A collection fails at an entry whose key is that of an earlier one or was taken before. -/
theorem Collecting.exists_refused (collecting : Collecting held? pair step entries) {start : σ}
    {fault : ε} (failed : entries.foldlM step start = .error fault) :
    ∃ before entry after middle, entries = before ++ entry :: after ∧
      before.foldlM step start = .ok middle ∧ step middle entry = .error fault ∧
        ((pair entry).1 ∈ (before.map pair).map Prod.fst ∨ held? start (pair entry).1 ≠ none) := by
  obtain ⟨before, entry, after, middle, rfl, passed, refused⟩ := foldlM_eq_error_iff.mp failed
  refine ⟨before, entry, after, middle, rfl, passed, refused, ?_⟩
  have earlier := collecting.of_subset (List.subset_append_left before (entry :: after))
  obtain ⟨_, _, held⟩ := earlier.foldlM_eq_ok_iff.mp passed
  cases taken : held? middle (pair entry).1 with
  | none =>
    obtain ⟨next, accepted, _⟩ := collecting.put entry (by simp) middle taken
    simp [refused] at accepted
  | some value =>
    rcases (held _ value).mp taken with pairMember | heldBefore
    · exact Or.inl (List.mem_map.mpr ⟨_, pairMember, rfl⟩)
    · exact Or.inr (by simp [heldBefore])

theorem Collecting.exists_ok_iff (collecting : Collecting held? pair step entries) {start : σ} :
    (∃ final, entries.foldlM step start = .ok final) ↔
      ((entries.map pair).map Prod.fst).Nodup ∧
        ∀ entry ∈ entries, held? start (pair entry).1 = none := by
  constructor
  · rintro ⟨final, collected⟩
    obtain ⟨unique, fresh, _⟩ := collecting.foldlM_eq_ok_iff.mp collected
    exact ⟨unique, fresh⟩
  · rintro ⟨unique, fresh⟩
    cases collected : entries.foldlM step start with
    | ok final => exact ⟨final, rfl⟩
    | error fault =>
      obtain ⟨before, entry, after, _, rfl, _, _, repeated | taken⟩ :=
        collecting.exists_refused collected
      · rw [List.map_append, List.map_append] at unique
        have apart := (List.nodup_append.mp unique).2.2 _ repeated (pair entry).1 (by simp)
        exact absurd rfl apart
      · exact absurd (fresh entry (by simp)) taken

end Collections

/-- Entries under distinct keys are the same, in some order, as others under distinct keys exactly
if they are members of each other. -/
theorem perm_iff_of_nodup_keys {κ α : Type} {entries others : List (κ × α)}
    (unique : (others.map Prod.fst).Nodup) :
    entries.Perm others ↔ (entries.map Prod.fst).Nodup ∧
      ∀ key value, (key, value) ∈ others ↔ (key, value) ∈ entries := by
  constructor
  · intro perm
    refine ⟨(perm.map Prod.fst).nodup_iff.mpr unique, ?_⟩
    intro key value
    exact perm.mem_iff.symm
  · rintro ⟨entriesUnique, same⟩
    apply (List.perm_ext_iff_of_nodup (.of_map _ entriesUnique) (.of_map _ unique)).mpr
    rintro ⟨key, value⟩
    exact (same key value).symm

/-! ## Assignments -/

namespace PolicyMap

theorem kinds_eq_filter (policies : PolicyMap) :
    policies.kinds = PolicyKind.all.filter policies.contains := by
  obtain ⟨loan, request, notice⟩ := policies
  cases loan <;> cases request <;> cases notice <;> rfl

theorem nodup_kinds (policies : PolicyMap) : policies.kinds.Nodup := by
  rw [kinds_eq_filter]
  exact List.Nodup.filter _ (by decide)

/-- Steps that give each kind a policy, unless it has one. -/
theorem collecting_insert {β ε : Type} (pair : β → PolicyKind × String) (refusal : β → ε)
    (entries : List β) :
    Collecting PerKind.get pair (fun (policies : PolicyMap) entry =>
      if policies.contains (pair entry).1 then Except.error (refusal entry)
      else .ok (policies.insert (pair entry).1 (pair entry).2)) entries where
  ext := PerKind.ext_get
  put := by
    intro entry _ (before : PolicyMap) vacant
    have free : before.contains (pair entry).1 = false := by rw [contains, vacant]; rfl
    refine ⟨before.insert (pair entry).1 (pair entry).2, by simp [free], ?_⟩
    intro kind
    by_cases same : kind = (pair entry).1
    · rw [if_pos same, same, get_insert_self]
    · rw [if_neg same, get_insert_of_ne _ _ same]
  refuse := by
    intro entry _ (before : PolicyMap) taken
    have occupied : before.contains (pair entry).1 = true := Option.isSome_iff_ne_none.mpr taken
    exact ⟨refusal entry, by simp [occupied]⟩

theorem collecting_assign (assignments : List (PolicyKind × String)) :
    Collecting PerKind.get id assign assignments :=
  collecting_insert id Prod.fst assignments

/-- Assignments are accepted exactly if they are the entries of the policies, in any order. -/
theorem ofAssignments_eq_ok_iff {assignments : List (PolicyKind × String)}
    {policies : PolicyMap} :
    ofAssignments assignments = .ok policies ↔ assignments.Perm policies.entries := by
  rw [perm_iff_of_nodup_keys policies.nodup_kinds, ofAssignments,
    (collecting_assign assignments).foldlM_eq_ok_iff]
  simp [mem_entries]

theorem exists_ofAssignments_iff {assignments : List (PolicyKind × String)} :
    (∃ policies, ofAssignments assignments = .ok policies) ↔
      (assignments.map Prod.fst).Nodup := by
  simp only [ofAssignments, (collecting_assign assignments).exists_ok_iff]
  simp

/-- Assignments are refused for a kind that two of them assign. -/
theorem exists_repeated_of_ofAssignments {assignments : List (PolicyKind × String)}
    {kind : PolicyKind} (failed : ofAssignments assignments = .error kind) :
    ∃ before policyId after, assignments = before ++ (kind, policyId) :: after ∧
      kind ∈ before.map Prod.fst := by
  obtain ⟨before, ⟨repeated, policyId⟩, after, _, rfl, _, refused, earlier | taken⟩ :=
    (collecting_assign assignments).exists_refused failed
  · rw [assign] at refused
    split at refused
    · obtain rfl := Except.error.inj refused
      exact ⟨before, policyId, after, rfl, by rwa [List.map_id] at earlier⟩
    · simp at refused
  · simp at taken

end PolicyMap

/-! ## Constraints -/

namespace Conditions

/-- The constrained facets, each with its condition. -/
def constraints (conditions : Conditions) : List (Facet × Condition) :=
  conditions.constrained.map fun facet => (facet, conditions.get facet)

theorem mem_constraints {conditions : Conditions} {facet : Facet} {condition : Condition} :
    (facet, condition) ∈ conditions.constraints ↔
      conditions.get facet = condition ∧ condition ≠ .any := by
  simp only [constraints, List.mem_map, mem_constrained, Prod.mk.injEq]
  constructor
  · rintro ⟨_, demanded, rfl, rfl⟩
    exact ⟨rfl, demanded⟩
  · rintro ⟨rfl, demanded⟩
    exact ⟨facet, demanded, rfl, rfl⟩

theorem nodup_facets_constraints (conditions : Conditions) :
    (conditions.constraints.map Prod.fst).Nodup := by
  have facets : conditions.constraints.map Prod.fst = conditions.constrained := by
    simp [constraints, Function.comp_def]
  rw [facets]
  exact Facet.nodup_all.filter _

/-- What is demanded of a facet, if anything is. -/
def demanded? (conditions : Conditions) (facet : Facet) : Option Condition :=
  if (conditions.get facet).isAny then none else some (conditions.get facet)

theorem demanded?_eq_some_iff {conditions : Conditions} {facet : Facet} {condition : Condition} :
    conditions.demanded? facet = some condition ↔
      conditions.get facet = condition ∧ condition ≠ .any := by
  rw [demanded?, Ne, ← Condition.isAny_eq_true_iff]
  split
  · next isAny => grind
  · next demanded => grind

@[simp] theorem demanded?_unconstrained (facet : Facet) : unconstrained.demanded? facet = none := by
  rw [demanded?, get_unconstrained]
  rfl

/-- Steps that give each facet a condition, unless it has one. -/
theorem collecting_ofConstraints {constraints : List (Facet × Condition)}
    (demanding : ∀ constraint ∈ constraints, constraint.2 ≠ .any) :
    Collecting demanded? id (fun (conditions : Conditions) constraint =>
      if (conditions.get constraint.1).isAny then
        Except.ok (conditions.set constraint.1 constraint.2)
      else .error constraint.1) constraints where
  ext := by
    intro left right agree
    apply ext_get
    intro facet
    have same := agree facet
    unfold demanded? at same
    grind [Condition.isAny_eq_true_iff]
  put := by
    intro constraint member before vacant
    have isAny : (before.get constraint.1).isAny = true := by
      unfold demanded? at vacant
      grind
    refine ⟨before.set constraint.1 constraint.2, by simp [isAny], ?_⟩
    intro facet
    rw [id]
    by_cases same : facet = constraint.1
    · rw [if_pos same, same]
      exact demanded?_eq_some_iff.mpr ⟨get_set_self _ _ _, demanding constraint member⟩
    · rw [if_neg same, demanded?, demanded?, get_set_of_ne _ _ same]
  refuse := by
    intro constraint _ before taken
    have constrained : (before.get constraint.1).isAny = false := by
      unfold demanded? at taken
      grind
    exact ⟨constraint.1, by simp [constrained]⟩

/-- Constraints that demand something are accepted exactly if they are those of the conditions, in
any order. -/
theorem ofConstraints_eq_ok_iff {constraints : List (Facet × Condition)}
    (demanding : ∀ constraint ∈ constraints, constraint.2 ≠ .any) {conditions : Conditions} :
    ofConstraints constraints = .ok conditions ↔ constraints.Perm conditions.constraints := by
  rw [perm_iff_of_nodup_keys conditions.nodup_facets_constraints, ofConstraints,
    (collecting_ofConstraints demanding).foldlM_eq_ok_iff]
  simp only [demanded?_eq_some_iff, mem_constraints, demanded?_unconstrained, List.map_id_fun,
    id_eq, reduceCtorEq, or_false, implies_true, true_and]

theorem exists_ofConstraints_iff {constraints : List (Facet × Condition)}
    (demanding : ∀ constraint ∈ constraints, constraint.2 ≠ .any) :
    (∃ conditions, ofConstraints constraints = .ok conditions) ↔
      (constraints.map Prod.fst).Nodup := by
  simp only [ofConstraints, (collecting_ofConstraints demanding).exists_ok_iff]
  simp

/-- Constraints are refused for a facet that two of them constrain. -/
theorem exists_repeated_of_ofConstraints {constraints : List (Facet × Condition)}
    (demanding : ∀ constraint ∈ constraints, constraint.2 ≠ .any) {facet : Facet}
    (failed : ofConstraints constraints = .error facet) :
    ∃ before condition after, constraints = before ++ (facet, condition) :: after ∧
      facet ∈ before.map Prod.fst := by
  obtain ⟨before, ⟨repeated, condition⟩, after, _, rfl, _, refused, earlier | taken⟩ :=
    (collecting_ofConstraints demanding).exists_refused failed
  · split at refused
    · simp at refused
    · obtain rfl := Except.error.inj refused
      exact ⟨before, condition, after, rfl, by rwa [List.map_id] at earlier⟩
  · simp at taken

end Conditions

/-! ## Fallbacks -/

/-- What a fallback declares, wherever it does. -/
def Fallback.entry (fallback : Fallback) : PolicyKind × String :=
  (fallback.kind, fallback.policyId)

theorem collecting_collectDefaults (fallbacks : List Fallback) :
    Collecting PerKind.get Fallback.entry (fun (defaults : PolicyMap) (fallback : Fallback) =>
      if defaults.contains fallback.kind then
        Except.error (CompileError.duplicateDefault fallback.kind fallback.line)
      else .ok (defaults.insert fallback.kind fallback.policyId)) fallbacks :=
  PolicyMap.collecting_insert Fallback.entry _ fallbacks

/-- Fallbacks are accepted exactly if what they declare are the defaults, in any order. -/
theorem collectDefaults_eq_ok_iff {fallbacks : List Fallback} {defaults : PolicyMap} :
    collectDefaults fallbacks = .ok defaults ↔
      (fallbacks.map Fallback.entry).Perm defaults.entries := by
  rw [perm_iff_of_nodup_keys defaults.nodup_kinds, collectDefaults,
    (collecting_collectDefaults fallbacks).foldlM_eq_ok_iff]
  simp [PolicyMap.mem_entries]

/-- The fallback that is refused is the first of a kind that an earlier one declares. -/
theorem collectDefaults_eq_error {fallbacks : List Fallback} {fault : CompileError}
    (failed : collectDefaults fallbacks = .error fault) :
    ∃ before fallback after, fallbacks = before ++ fallback :: after ∧
      (before.map Fallback.kind).Nodup ∧ fallback.kind ∈ before.map Fallback.kind ∧
        fault = .duplicateDefault fallback.kind fallback.line := by
  have collecting := collecting_collectDefaults fallbacks
  obtain ⟨before, fallback, after, middle, rfl, passed, refused, repeated | taken⟩ :=
    collecting.exists_refused failed
  · have kinds : (before.map Fallback.entry).map Prod.fst = before.map Fallback.kind := by
      rw [List.map_map]
      rfl
    have unique :=
      ((collecting.of_subset (List.subset_append_left _ _)).foldlM_eq_ok_iff.mp passed).1
    rw [kinds] at unique repeated
    refine ⟨before, fallback, after, rfl, unique, repeated, ?_⟩
    split at refused
    · exact (Except.error.inj refused).symm
    · simp at refused
  · simp at taken

end Circulation
