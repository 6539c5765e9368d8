import Circulation.Outcome
import Circulation.Place.Hierarchy

/-!
Contract: the chains that a hierarchy holds, against the records that it was built from.

Owns:
- which records pass the checks of a hierarchy;
- that a built hierarchy knows exactly the chains along which the records lead from a location to
  its library, from there to a campus and from there to an institution.

Does not own: which records fail first.
-/

namespace Circulation

/-- The entry of a list that has a key, if no two entries have the same. -/
theorem lookup_eq_some_iff_mem {β : Type} {entries : List (String × β)}
    (unique : (entries.map Prod.fst).Nodup) {key : String} {value : β} :
    entries.lookup key = some value ↔ (key, value) ∈ entries := by
  induction entries with
  | nil => simp
  | cons head rest ih =>
    obtain ⟨headKey, headValue⟩ := head
    obtain ⟨absent, restUnique⟩ := List.nodup_cons.mp unique
    rw [List.mem_cons, Prod.mk.injEq, ← ih restUnique, List.lookup_cons]
    by_cases same : key = headKey
    · subst same
      have notBelow : rest.lookup key ≠ some value := by
        intro found
        exact absent (List.mem_map.mpr ⟨(key, value), (ih restUnique).mp found, rfl⟩)
      simp [notBelow, eq_comm]
    · have differs : (key == headKey) = false := beq_eq_false_iff_ne.mpr same
      simp [differs, same]

/-! ## Levels -/

namespace LevelRecords

variable {records : List LocationRecord}

/-- A selection that undoes a way to make records finds what records of that make were made of. -/
theorem mem_filterMap_iff_of_inverse {α : Type} {select : LocationRecord → Option α}
    {make : α → LocationRecord}
    (inverse : ∀ record value, select record = some value ↔ make value = record) {value : α} :
    value ∈ records.filterMap select ↔ make value ∈ records := by
  simp only [List.mem_filterMap, inverse]
  constructor
  · rintro ⟨record, member, rfl⟩
    exact member
  · intro member
    exact ⟨_, member, rfl⟩

theorem mem_campuses_ofRecords {link : String × String} :
    link ∈ (ofRecords records).campuses ↔ .campus link.1 link.2 ∈ records := by
  apply mem_filterMap_iff_of_inverse
  intro record value
  cases record <;> simp [Prod.ext_iff, eq_comm]

theorem mem_libraries_ofRecords {link : String × String} :
    link ∈ (ofRecords records).libraries ↔ .library link.1 link.2 ∈ records := by
  apply mem_filterMap_iff_of_inverse
  intro record value
  cases record <;> simp [Prod.ext_iff, eq_comm]

theorem mem_locations_ofRecords {link : String × String} :
    link ∈ (ofRecords records).locations ↔ .location link.1 link.2 ∈ records := by
  apply mem_filterMap_iff_of_inverse
  intro record value
  cases record <;> simp [Prod.ext_iff, eq_comm]

/-! ## Checks -/

/-- A level passes exactly if all its parents are known and none of its ids is repeated. -/
theorem checkLinks_eq_ok_iff {level : Level} {parents seen : List String}
    {links : List (String × String)} :
    checkLinks level parents seen links = .ok () ↔
      (∀ link ∈ links, link.2 ∈ parents) ∧ (links.map Prod.fst).Nodup ∧
        ∀ link ∈ links, link.1 ∉ seen := by
  induction links generalizing seen with
  | nil => simp [checkLinks]
  | cons link rest ih =>
    obtain ⟨id, parent⟩ := link
    rw [checkLinks]
    by_cases known : parent ∈ parents
    · by_cases repeated : id ∈ seen
      · simp [known, repeated]
      · simp only [List.contains_eq_mem, known, decide_true, Bool.not_true, Bool.false_eq_true,
          if_false, repeated, decide_false, ih, List.map_cons, List.nodup_cons, List.mem_map,
          List.mem_cons, not_or, forall_eq_or_imp, not_false_eq_true, true_and]
        grind
    · simp [known]

/-- Institutions are checked as links to one known place would be. -/
theorem checkInstitutions_eq_checkLinks (seen ids : List String) :
    checkInstitutions seen ids =
      checkLinks .institution [""] seen (ids.map fun id => (id, "")) := by
  induction ids generalizing seen with
  | nil => rfl
  | cons id rest ih =>
    simp only [checkInstitutions, List.map_cons, checkLinks, ih]
    rfl

theorem checkInstitutions_eq_ok_iff {ids : List String} :
    checkInstitutions [] ids = .ok () ↔ ids.Nodup := by
  have restored : (ids.map fun id => (id, "")).map Prod.fst = ids := by simp [Function.comp_def]
  rw [checkInstitutions_eq_checkLinks, checkLinks_eq_ok_iff, restored]
  simp

/-- Records that have a place for every parent, and no two records for one place of a level. -/
structure Linked (levels : LevelRecords) : Prop where
  institutionsUnique : levels.institutions.Nodup
  campusesUnique : (levels.campuses.map Prod.fst).Nodup
  librariesUnique : (levels.libraries.map Prod.fst).Nodup
  locationsUnique : (levels.locations.map Prod.fst).Nodup
  campusParents : ∀ link ∈ levels.campuses, link.2 ∈ levels.institutions
  libraryParents : ∀ link ∈ levels.libraries, link.2 ∈ levels.campuses.map Prod.fst
  locationParents : ∀ link ∈ levels.locations, link.2 ∈ levels.libraries.map Prod.fst

theorem check_eq_ok_iff {levels : LevelRecords} : levels.check = .ok () ↔ levels.Linked := by
  rw [check, bind_eq_ok_iff]
  constructor
  · rintro ⟨_, institutions, remaining⟩
    obtain ⟨_, campuses, remaining⟩ := bind_eq_ok_iff.mp remaining
    obtain ⟨_, libraries, locations⟩ := bind_eq_ok_iff.mp remaining
    obtain ⟨campusParents, campusesUnique, _⟩ := checkLinks_eq_ok_iff.mp campuses
    obtain ⟨libraryParents, librariesUnique, _⟩ := checkLinks_eq_ok_iff.mp libraries
    obtain ⟨locationParents, locationsUnique, _⟩ := checkLinks_eq_ok_iff.mp locations
    exact {
      institutionsUnique := checkInstitutions_eq_ok_iff.mp institutions
      campusesUnique, librariesUnique, locationsUnique
      campusParents, libraryParents, locationParents }
  · intro linked
    have unseen : ∀ links : List (String × String), ∀ link ∈ links, link.1 ∉ [] := by simp
    refine ⟨(), checkInstitutions_eq_ok_iff.mpr linked.institutionsUnique, ?_⟩
    apply bind_eq_ok_iff.mpr
    refine ⟨(), checkLinks_eq_ok_iff.mpr
      ⟨linked.campusParents, linked.campusesUnique, unseen _⟩, ?_⟩
    apply bind_eq_ok_iff.mpr
    refine ⟨(), checkLinks_eq_ok_iff.mpr
      ⟨linked.libraryParents, linked.librariesUnique, unseen _⟩, ?_⟩
    apply checkLinks_eq_ok_iff.mpr
    exact ⟨linked.locationParents, linked.locationsUnique, unseen _⟩

/-! ## Chains -/

theorem chain?_eq_some_iff {levels : LevelRecords} (linked : levels.Linked) {library : String}
    {ancestors : Ancestors} :
    levels.chain? library = some ancestors ↔
      ancestors.library = library ∧ (library, ancestors.campus) ∈ levels.libraries ∧
        (ancestors.campus, ancestors.institution) ∈ levels.campuses := by
  rw [← lookup_eq_some_iff_mem linked.librariesUnique,
    ← lookup_eq_some_iff_mem linked.campusesUnique, chain?]
  constructor
  · intro found
    obtain ⟨campus, atLibrary, found⟩ := Option.bind_eq_some_iff.mp found
    obtain ⟨institution, atCampus, same⟩ := Option.bind_eq_some_iff.mp found
    cases Option.some.inj same
    exact ⟨rfl, atLibrary, atCampus⟩
  · rintro ⟨rfl, atLibrary, atCampus⟩
    rw [atLibrary, Option.bind_eq_bind, Option.bind_some, atCampus]
    rfl

theorem mem_chains {levels : LevelRecords} {location : String} {ancestors : Ancestors} :
    (location, ancestors) ∈ levels.chains ↔
      ∃ library, (location, library) ∈ levels.locations ∧
        levels.chain? library = some ancestors := by
  rw [chains, List.mem_filterMap]
  constructor
  · rintro ⟨⟨id, library⟩, member, found⟩
    obtain ⟨chain, traced, same⟩ := Option.map_eq_some_iff.mp found
    cases same
    exact ⟨library, member, traced⟩
  · rintro ⟨library, member, traced⟩
    exact ⟨(location, library), member, Option.map_eq_some_iff.mpr ⟨ancestors, traced, rfl⟩⟩

theorem nodup_keys_chains {levels : LevelRecords} (linked : levels.Linked) :
    (levels.chains.map Prod.fst).Nodup := by
  have kept : (levels.chains.map Prod.fst).Sublist (levels.locations.map Prod.fst) := by
    rw [chains]
    induction levels.locations with
    | nil => exact List.Sublist.slnil
    | cons link rest ih =>
      cases found : levels.chain? link.2 with
      | none =>
        rw [List.filterMap_cons_none (by simp [found])]
        exact ih.cons link.1
      | some ancestors =>
        rw [List.filterMap_cons_some (by simp [found]; rfl)]
        exact ih.cons_cons link.1
  exact kept.nodup linked.locationsUnique

end LevelRecords

/-! ## Hierarchies -/

/-- The place records lead from a location, one by one, to the places of a chain. -/
def Traced (records : List LocationRecord) (location : String) (ancestors : Ancestors) : Prop :=
  .location location ancestors.library ∈ records ∧
    .library ancestors.library ancestors.campus ∈ records ∧
    .campus ancestors.campus ancestors.institution ∈ records

namespace Hierarchy

theorem build_eq_ok_iff {records : List LocationRecord} {hierarchy : Hierarchy} :
    build records = .ok hierarchy ↔
      (LevelRecords.ofRecords records).Linked ∧
        hierarchy = ⟨(LevelRecords.ofRecords records).chains⟩ := by
  rw [build, bind_eq_ok_iff, ← LevelRecords.check_eq_ok_iff]
  constructor
  · rintro ⟨_, checked, same⟩
    exact ⟨checked, (Except.ok.inj same).symm⟩
  · rintro ⟨checked, rfl⟩
    exact ⟨(), checked, rfl⟩

theorem mem_chains_iff {records : List LocationRecord} {hierarchy : Hierarchy}
    (built : build records = .ok hierarchy) {location : String} {ancestors : Ancestors} :
    (location, ancestors) ∈ hierarchy.chains ↔ Traced records location ancestors := by
  obtain ⟨linked, rfl⟩ := build_eq_ok_iff.mp built
  rw [LevelRecords.mem_chains]
  simp only [LevelRecords.chain?_eq_some_iff linked, LevelRecords.mem_locations_ofRecords,
    LevelRecords.mem_libraries_ofRecords, LevelRecords.mem_campuses_ofRecords]
  constructor
  · rintro ⟨library, atLocation, rfl, atLibrary, atCampus⟩
    exact ⟨atLocation, atLibrary, atCampus⟩
  · rintro ⟨atLocation, atLibrary, atCampus⟩
    exact ⟨_, atLocation, rfl, atLibrary, atCampus⟩

/-- A built hierarchy knows the chain of a location exactly if the records lead along it. -/
theorem ancestors?_eq_some_iff {records : List LocationRecord} {hierarchy : Hierarchy}
    (built : build records = .ok hierarchy) {location : String} {ancestors : Ancestors} :
    hierarchy.ancestors? location = some ancestors ↔ Traced records location ancestors := by
  rw [← mem_chains_iff built, ancestors?]
  obtain ⟨linked, rfl⟩ := build_eq_ok_iff.mp built
  exact lookup_eq_some_iff_mem (LevelRecords.nodup_keys_chains linked)

end Hierarchy

end Circulation
