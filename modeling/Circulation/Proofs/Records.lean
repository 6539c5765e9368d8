import Circulation.Proofs.Chains
import Circulation.Resolution.Answer
import Mathlib.Data.List.Basic

/-!
Contract: which location records make a hierarchy, and which of them is reported if they do not.

Owns:
- the place of a record, and the place that it belongs to;
- complete records, and what keeps a record from fitting in with the others;
- the order in which records are checked;
- that exactly complete records make a hierarchy, what it knows, and that of other records the first
  one in checking order that does not fit is reported.

Does not own: what becomes of a hierarchy when its records are reordered or more are added.
-/

namespace Circulation

/-- All levels, the widest first. -/
def Level.all : List Level :=
  [.institution, .campus, .library, .location]

theorem Level.mem_all (level : Level) : level ∈ all := by
  cases level <;> decide

/-- The level next to a level on the wider side. -/
def Level.above? : Level → Option Level
  | .institution => none
  | .campus => some .institution
  | .library => some .campus
  | .location => some .library

/-- A list repeats nothing exactly if no entry is among those before it. -/
theorem nodup_iff_not_mem_take {β : Type} {values : List β} :
    values.Nodup ↔ ∀ position value, values[position]? = some value →
      value ∉ values.take position := by
  constructor
  · intro unrepeated position value here repeated
    obtain ⟨inside, rfl⟩ := List.getElem?_eq_some_iff.mp here
    rw [← List.take_append_drop position values, List.drop_eq_getElem_cons inside] at unrepeated
    exact (List.nodup_append.mp unrepeated).2.2 _ repeated _ List.mem_cons_self rfl
  · intro fresh
    rw [List.Nodup, List.pairwise_iff_getElem]
    intro earlier later _ laterInside before same
    refine fresh later values[later] (List.getElem?_eq_getElem laterInside) ?_
    exact List.mem_take_iff_getElem.mpr ⟨earlier, by omega, same⟩

/-! ## Places of records -/

namespace LocationRecord

def level : LocationRecord → Level
  | .institution _ => .institution
  | .campus _ _ => .campus
  | .library _ _ => .library
  | .location _ _ => .location

def id : LocationRecord → String
  | .institution id => id
  | .campus id _ => id
  | .library id _ => id
  | .location id _ => id

/-- The level and the id that a record is for. -/
def place (record : LocationRecord) : Level × String :=
  (record.level, record.id)

/-- The place that a record belongs to; an institution belongs to none. -/
def parent? : LocationRecord → Option (Level × String)
  | .institution _ => none
  | .campus _ parent => some (.institution, parent)
  | .library _ parent => some (.campus, parent)
  | .location _ parent => some (.library, parent)

/-- The place that the record belongs to, if any, is that of one of `records`. -/
def Supplied (records : List LocationRecord) (record : LocationRecord) : Prop :=
  ∀ parent ∈ record.parent?, parent ∈ records.map place

/-- No two of the records are for one place, and each one belongs to a place that has a record. -/
structure Complete (records : List LocationRecord) : Prop where
  unrepeated : (records.map place).Nodup
  supplied : ∀ record ∈ records, record.Supplied records

/-! ## Records that do not fit -/

/-- What is wrong with one of the records, which stands at a position among them: the place that it
belongs to has no record, or else an earlier record is for its own place. -/
inductive Offends (records : List LocationRecord) (entry : LocationRecord × Nat) :
    HierarchyError → Prop where
  | unknownParent {level : Level} {id : String} (named : entry.1.parent? = some (level, id))
      (unknown : (level, id) ∉ records.map place) :
      Offends records entry (.unknownParent entry.1.level entry.1.id id)
  | duplicateId (supplied : entry.1.Supplied records)
      (repeated : entry.1.place ∈ (records.take entry.2).map place) :
      Offends records entry (.duplicateId entry.1.level entry.1.id)

def Fits (records : List LocationRecord) (entry : LocationRecord × Nat) : Prop :=
  ∀ error, ¬Offends records entry error

/-- Of the entries the first that does not fit has the fault. -/
def FirstOffence (records : List LocationRecord) (entries : List (LocationRecord × Nat))
    (error : HierarchyError) : Prop :=
  ∃ before entry after, entries = before ++ entry :: after ∧
    (∀ other ∈ before, Fits records other) ∧ Offends records entry error

/-- The records with their positions as they are checked: level by level from the widest, and in the
order supplied inside a level. -/
def inCheckingOrder (records : List LocationRecord) : List (LocationRecord × Nat) :=
  Level.all.flatMap fun level => records.zipIdx.filter fun entry => entry.1.level = level

variable {records : List LocationRecord}

theorem mem_inCheckingOrder {entry : LocationRecord × Nat} :
    entry ∈ inCheckingOrder records ↔ entry ∈ records.zipIdx := by
  simp [inCheckingOrder, List.mem_flatMap, Level.mem_all]

theorem Offends.unique {entry : LocationRecord × Nat} {error other : HierarchyError}
    (offends : Offends records entry error) (otherwise : Offends records entry other) :
    error = other := by
  cases offends with
  | unknownParent named unknown =>
    cases otherwise with
    | unknownParent otherNamed _ =>
      rw [named] at otherNamed
      cases otherNamed
      rfl
    | duplicateId supplied _ => exact absurd (supplied _ named) unknown
  | duplicateId supplied _ =>
    cases otherwise with
    | unknownParent named unknown => exact absurd (supplied _ named) unknown
    | duplicateId _ _ => rfl

/-- Records are complete exactly if each one fits. -/
theorem complete_iff_fits :
    Complete records ↔ ∀ entry ∈ inCheckingOrder records, Fits records entry := by
  simp only [mem_inCheckingOrder]
  constructor
  · rintro ⟨unrepeated, supplied⟩ ⟨record, position⟩ member error offends
    have here := List.mem_zipIdx_iff_getElem?.mp member
    cases offends with
    | unknownParent named unknown =>
      exact unknown (supplied record (List.mem_of_getElem? here) _ named)
    | duplicateId _ repeated =>
      rw [List.map_take] at repeated
      refine (nodup_iff_not_mem_take.mp unrepeated) position record.place ?_ repeated
      rw [List.getElem?_map, here, Option.map_some]
  · intro fits
    have supplied : ∀ record ∈ records, record.Supplied records := by
      intro record member parent named
      obtain ⟨position, here⟩ := List.mem_iff_getElem?.mp member
      by_contra unknown
      exact fits (record, position) (List.mem_zipIdx_iff_getElem?.mpr here) _
        (.unknownParent named unknown)
    refine ⟨nodup_iff_not_mem_take.mpr ?_, supplied⟩
    intro position place placed repeated
    rw [List.getElem?_map] at placed
    obtain ⟨record, here, rfl⟩ := Option.map_eq_some_iff.mp placed
    rw [← List.map_take] at repeated
    exact fits (record, position) (List.mem_zipIdx_iff_getElem?.mpr here) _
      (.duplicateId (supplied record (List.mem_of_getElem? here)) repeated)

/-! ## Reports -/

/-- What checking entries one after another comes to: nothing is found, or the first fault is. -/
inductive Reports (records : List LocationRecord) (entries : List (LocationRecord × Nat)) :
    Except HierarchyError Unit → Prop where
  | sound (fits : ∀ entry ∈ entries, Fits records entry) : Reports records entries (.ok ())
  | fault {error : HierarchyError} (first : FirstOffence records entries error) :
      Reports records entries (.error error)

namespace Reports

variable {entries others : List (LocationRecord × Nat)} {entry : LocationRecord × Nat}
  {outcome : Except HierarchyError Unit}

theorem of_offends {error : HierarchyError} (offends : Offends records entry error) :
    Reports records (entry :: entries) (.error error) :=
  .fault ⟨[], entry, entries, rfl, by simp, offends⟩

theorem append {next : Except HierarchyError Unit} (here : Reports records entries outcome)
    (there : Reports records others next) :
    Reports records (entries ++ others) (outcome >>= fun _ => next) := by
  cases here with
  | fault first =>
    obtain ⟨before, entry, after, rfl, fits, offends⟩ := first
    exact .fault ⟨before, entry, after ++ others, by simp, fits, offends⟩
  | sound fits =>
    cases there with
    | sound othersFit => exact .sound (List.forall_mem_append.mpr ⟨fits, othersFit⟩)
    | fault first =>
      obtain ⟨before, entry, after, rfl, beforeFits, offends⟩ := first
      exact .fault ⟨entries ++ before, entry, after, by simp,
        List.forall_mem_append.mpr ⟨fits, beforeFits⟩, offends⟩

theorem cons (fits : Fits records entry) (there : Reports records entries outcome) :
    Reports records (entry :: entries) outcome :=
  append (.sound (List.forall_mem_singleton.mpr fits)) there

end Reports

theorem FirstOffence.unique {entries : List (LocationRecord × Nat)} {error other : HierarchyError}
    (first : FirstOffence records entries error) (otherwise : FirstOffence records entries other) :
    error = other := by
  obtain ⟨before, entry, after, whole, fits, offends⟩ := first
  obtain ⟨otherBefore, otherEntry, otherAfter, same, otherFits, otherOffends⟩ := otherwise
  rw [whole] at same
  -- The entries before either one fit, so that neither of the two offences comes before the other.
  rcases List.append_eq_append_iff.mp same with ⟨middle, rfl, rest⟩ | ⟨middle, rfl, rest⟩
  · cases middle with
    | nil =>
      cases rest
      exact offends.unique otherOffends
    | cons head middle =>
      cases rest
      exact absurd offends (otherFits entry (by simp) error)
  · cases middle with
    | nil =>
      cases rest
      exact offends.unique otherOffends
    | cons head middle =>
      cases rest
      exact absurd otherOffends (fits otherEntry (by simp) other)

/-! ## Levels -/

/-- The id of a record with that of the place it belongs to, left empty for institutions. -/
def link (record : LocationRecord) : String × String :=
  (record.id, (record.parent?.map Prod.snd).getD "")

theorem parent?_eq (record : LocationRecord) :
    record.parent? = record.level.above?.map fun level => (level, record.link.2) := by
  cases record <;> rfl

def atLevel (records : List LocationRecord) (level : Level) : List LocationRecord :=
  records.filter fun record => record.level = level

theorem filterMap_eq_map_atLevel {α : Type} {select : LocationRecord → Option α} {level : Level}
    {value : LocationRecord → α}
    (selects : ∀ record,
      select record = if record.level = level then some (value record) else none) :
    records.filterMap select = (atLevel records level).map value := by
  induction records with
  | nil => rfl
  | cons record rest ih =>
    rw [List.filterMap_cons, selects, ih, atLevel, atLevel, List.filter_cons]
    by_cases here : record.level = level <;> simp [here]

theorem mem_ids_atLevel {level : Level} {id : String} :
    id ∈ (atLevel records level).map LocationRecord.id ↔ (level, id) ∈ records.map place := by
  simp [atLevel, place, and_comm, and_left_comm]

/-- What the check of one record adds, which tests whether its place is supplied and whether it is
repeated, to that of the entries after it. -/
theorem Reports.cons_link {record : LocationRecord} {position : Nat}
    {entries : List (LocationRecord × Nat)} {outcome : Except HierarchyError Unit}
    {known repeated : Bool} (isKnown : known = true ↔ record.Supplied records)
    (isRepeated : repeated = true ↔ record.place ∈ (records.take position).map place)
    (others : Reports records entries outcome) :
    Reports records ((record, position) :: entries)
      (if !known then .error (.unknownParent record.level record.link.1 record.link.2)
      else if repeated then .error (.duplicateId record.level record.link.1)
      else outcome) := by
  cases known with
  | false =>
    have unsupplied : ¬record.Supplied records := by simp [← isKnown]
    simp only [Supplied, not_forall] at unsupplied
    obtain ⟨⟨level, id⟩, named, unknown⟩ := unsupplied
    have linked : record.link.2 = id := by rw [link, Option.mem_def.mp named]; rfl
    rw [linked]
    exact .of_offends (.unknownParent named unknown)
  | true =>
    have supplied : record.Supplied records := isKnown.mp rfl
    cases repeated with
    | true => exact .of_offends (.duplicateId supplied (isRepeated.mp rfl))
    | false =>
      refine .cons ?_ others
      intro error offends
      cases offends with
      | unknownParent named unknown => exact unknown (supplied _ named)
      | duplicateId _ again => exact absurd (isRepeated.mpr again) Bool.false_ne_true

end LocationRecord

namespace LevelRecords

open LocationRecord

variable {records : List LocationRecord}

theorem institutions_ofRecords :
    (ofRecords records).institutions = (atLevel records .institution).map LocationRecord.id :=
  filterMap_eq_map_atLevel fun record => by cases record <;> rfl

theorem campuses_ofRecords : (ofRecords records).campuses = (atLevel records .campus).map link :=
  filterMap_eq_map_atLevel fun record => by cases record <;> rfl

theorem libraries_ofRecords : (ofRecords records).libraries = (atLevel records .library).map link :=
  filterMap_eq_map_atLevel fun record => by cases record <;> rfl

theorem locations_ofRecords :
    (ofRecords records).locations = (atLevel records .location).map link :=
  filterMap_eq_map_atLevel fun record => by cases record <;> rfl

theorem ofRecords_eq :
    ofRecords records =
      ⟨(atLevel records .institution).map LocationRecord.id, (atLevel records .campus).map link,
        (atLevel records .library).map link, (atLevel records .location).map link⟩ := by
  rw [← institutions_ofRecords, ← campuses_ofRecords, ← libraries_ofRecords, ← locations_ofRecords]

/-! ## Checks -/

theorem checkLinks_cons {level : Level} {parents seen : List String} {link : String × String}
    {rest : List (String × String)} :
    checkLinks level parents seen (link :: rest) =
      if !parents.contains link.2 then .error (.unknownParent level link.1 link.2)
      else if seen.contains link.1 then .error (.duplicateId level link.1)
      else checkLinks level parents (link.1 :: seen) rest :=
  rfl

/-- The check of a level reports the first of its records that does not fit. Of the records that are
to be checked those of `rest` are left, and `seen` are the ids of the level among the others. -/
theorem reports_checkLinks {done rest : List LocationRecord} {level : Level}
    {parents seen : List String} (whole : records = done ++ rest)
    (known : ∀ record : LocationRecord, record.level = level →
      (record.link.2 ∈ parents ↔ record.Supplied records))
    (passed : ∀ id, id ∈ seen ↔ (level, id) ∈ done.map place) :
    Reports records ((rest.zipIdx done.length).filter fun entry => entry.1.level = level)
      (checkLinks level parents seen ((atLevel rest level).map link)) := by
  induction rest generalizing done seen with
  | nil => exact .sound (by simp)
  | cons record rest ih =>
    -- The record joins those that are done, and its id those that are seen if it is of the level.
    have shifted : records = done ++ [record] ++ rest := by
      rw [whole, List.append_assoc, List.singleton_append]
    have remaining := fun seen => @ih (done ++ [record]) seen shifted
    rw [List.length_append, List.length_singleton] at remaining
    have before : records.take done.length = done := by rw [whole, List.take_left]
    rw [List.zipIdx_cons, List.filter_cons, atLevel, List.filter_cons]
    by_cases here : record.level = level
    · subst here
      simp only [decide_true, if_true, List.map_cons, checkLinks_cons]
      refine .cons_link ?_ ?_ (remaining (record.id :: seen) fun id => ?_)
      · rw [List.contains_iff_mem, known record rfl]
      · rw [List.contains_iff_mem, before]
        exact passed record.id
      · rw [List.mem_cons, passed, List.map_append, List.mem_append, or_comm]
        simp [place]
    · simp only [here, decide_false, Bool.false_eq_true, if_false]
      refine remaining seen fun id => ?_
      rw [passed, List.map_append, List.mem_append]
      simp [place, Ne.symm here]

theorem reports_level {level : Level} {parents : List String}
    (known : ∀ record : LocationRecord, record.level = level →
      (record.link.2 ∈ parents ↔ record.Supplied records)) :
    Reports records (records.zipIdx.filter fun entry => entry.1.level = level)
      (checkLinks level parents [] ((atLevel records level).map link)) :=
  @reports_checkLinks records [] records level parents [] rfl known (by simp)

theorem reports_lowerLevel {level above : Level} (next : level.above? = some above) :
    Reports records (records.zipIdx.filter fun entry => entry.1.level = level)
      (checkLinks level ((atLevel records above).map LocationRecord.id) []
        ((atLevel records level).map link)) := by
  refine reports_level fun record here => ?_
  rw [mem_ids_atLevel, Supplied, parent?_eq, here, next]
  simp

theorem reports_institutions :
    Reports records (records.zipIdx.filter fun entry => entry.1.level = .institution)
      (checkInstitutions [] ((atLevel records .institution).map LocationRecord.id)) := by
  have links : ((atLevel records .institution).map LocationRecord.id).map (fun id => (id, "")) =
      (atLevel records .institution).map link := by
    rw [List.map_map]
    refine List.map_congr_left fun record member => ?_
    cases record with
    | institution id => rfl
    | _ => simp [atLevel, LocationRecord.level] at member
  rw [checkInstitutions_eq_checkLinks, links]
  refine reports_level fun record here => ?_
  cases record with
  | institution id => simp [Supplied, LocationRecord.parent?, link]
  | _ => simp [LocationRecord.level] at here

/-- Checking records reports the first one in checking order that does not fit. -/
theorem reports_check : Reports records (inCheckingOrder records) (ofRecords records).check := by
  have ids : ∀ level, ((atLevel records level).map link).map Prod.fst =
      (atLevel records level).map LocationRecord.id := fun level => List.map_map
  rw [check, institutions_ofRecords, campuses_ofRecords, libraries_ofRecords, locations_ofRecords,
    ids, ids, inCheckingOrder, Level.all]
  simp only [List.flatMap_cons, List.flatMap_nil, List.append_nil]
  exact reports_institutions.append ((reports_lowerLevel rfl).append
    ((reports_lowerLevel rfl).append (reports_lowerLevel rfl)))

/-! ## Lookups -/

/-- In linked records no lookup on the way up from a location fails. -/
theorem Linked.exists_lookup {levels : LevelRecords} (linked : levels.Linked)
    {location library : String} (member : (location, library) ∈ levels.locations) :
    ∃ campus institution, levels.libraries.lookup library = some campus ∧
      levels.campuses.lookup campus = some institution := by
  obtain ⟨⟨_, campus⟩, atLibrary, rfl⟩ := List.mem_map.mp (linked.locationParents _ member)
  obtain ⟨⟨_, institution⟩, atCampus, rfl⟩ := List.mem_map.mp (linked.libraryParents _ atLibrary)
  exact ⟨_, institution, (lookup_eq_some_iff_mem linked.librariesUnique).mpr atLibrary,
    (lookup_eq_some_iff_mem linked.campusesUnique).mpr atCampus⟩

theorem Linked.length_chains {levels : LevelRecords} (linked : levels.Linked) :
    levels.chains.length = levels.locations.length := by
  rw [chains, List.filterMap_length_eq_length]
  rintro ⟨location, library⟩ member
  obtain ⟨campus, institution, atLibrary, atCampus⟩ := linked.exists_lookup member
  simp [chain?, atLibrary, atCampus]

end LevelRecords

namespace Hierarchy

open LocationRecord

variable {records : List LocationRecord} {hierarchy : Hierarchy}

theorem build_eq_error_iff {error : HierarchyError} :
    build records = .error error ↔ FirstOffence records (inCheckingOrder records) error := by
  have reports := @LevelRecords.reports_check records
  rw [build, bind_eq_error_iff]
  constructor
  · rintro (failed | ⟨_, _, failed⟩)
    · rw [failed] at reports
      cases reports with
      | fault first => exact first
    · cases failed
  · intro first
    left
    generalize (LevelRecords.ofRecords records).check = outcome at reports ⊢
    cases reports with
    | sound fits =>
      obtain ⟨before, entry, after, whole, _, offends⟩ := first
      exact absurd offends (fits entry (by simp [whole]) error)
    | fault other => rw [first.unique other]

theorem builds_iff_complete : (∃ hierarchy, build records = .ok hierarchy) ↔ Complete records := by
  have reports := @LevelRecords.reports_check records
  rw [complete_iff_fits]
  constructor
  · rintro ⟨hierarchy, built⟩
    obtain ⟨_, checked, _⟩ := bind_eq_ok_iff.mp built
    rw [checked] at reports
    cases reports with
    | sound fits => exact fits
  · intro fits
    cases outcome : build records with
    | ok hierarchy => exact ⟨hierarchy, rfl⟩
    | error error =>
      obtain ⟨before, entry, after, whole, _, offends⟩ := build_eq_error_iff.mp outcome
      exact absurd offends (fits entry (by simp [whole]) error)

/-- A built hierarchy has the chain of every location that has a record. -/
theorem exists_traced (built : build records = .ok hierarchy) {id library : String}
    (member : .location id library ∈ records) :
    ∃ campus institution, .library library campus ∈ records ∧
      .campus campus institution ∈ records ∧
      (LevelRecords.ofRecords records).libraries.lookup library = some campus ∧
      (LevelRecords.ofRecords records).campuses.lookup campus = some institution ∧
      hierarchy.ancestors? id = some ⟨library, campus, institution⟩ := by
  obtain ⟨linked, _⟩ := build_eq_ok_iff.mp built
  obtain ⟨campus, institution, atLibrary, atCampus⟩ :=
    linked.exists_lookup (LevelRecords.mem_locations_ofRecords.mpr member)
  have library := LevelRecords.mem_libraries_ofRecords.mp
    ((lookup_eq_some_iff_mem linked.librariesUnique).mp atLibrary)
  have campus := LevelRecords.mem_campuses_ofRecords.mp
    ((lookup_eq_some_iff_mem linked.campusesUnique).mp atCampus)
  exact ⟨_, _, library, campus, atLibrary, atCampus,
    (ancestors?_eq_some_iff built).mpr ⟨member, library, campus⟩⟩

theorem contains_iff (built : build records = .ok hierarchy) {id : String} :
    hierarchy.contains id = true ↔ ∃ library, .location id library ∈ records := by
  rw [contains, Option.isSome_iff_exists]
  constructor
  · rintro ⟨ancestors, found⟩
    exact ⟨ancestors.library, ((ancestors?_eq_some_iff built).mp found).1⟩
  · rintro ⟨library, member⟩
    obtain ⟨_, _, _, _, _, _, found⟩ := exists_traced built member
    exact ⟨_, found⟩

theorem size_eq_countP (built : build records = .ok hierarchy) :
    hierarchy.size = records.countP fun record => record.level = .location := by
  obtain ⟨linked, rfl⟩ := build_eq_ok_iff.mp built
  rw [size, linked.length_chains, LevelRecords.locations_ofRecords, List.length_map, atLevel,
    List.countP_eq_length_filter]

/-- Exactly complete records make a hierarchy. It knows the locations that have a record, and each
one's chain has the places that the records name from there upwards, none of which is missing where
it is looked up. Of other records the first one in checking order that does not fit is reported. -/
theorem build_complete_or_firstOffence (records : List LocationRecord) :
    ((∃ hierarchy, build records = .ok hierarchy) ↔ Complete records) ∧
      (∀ hierarchy, build records = .ok hierarchy →
        (∀ id, hierarchy.contains id = true ↔ ∃ library, .location id library ∈ records) ∧
        hierarchy.size = records.countP (fun record => record.level = .location) ∧
        ∀ id library, .location id library ∈ records →
          ∃ campus institution, .library library campus ∈ records ∧
            .campus campus institution ∈ records ∧
            (LevelRecords.ofRecords records).libraries.lookup library = some campus ∧
            (LevelRecords.ofRecords records).campuses.lookup campus = some institution ∧
            hierarchy.ancestorsOf id = .ok ⟨library, campus, institution⟩) ∧
      ∀ error, build records = .error error ↔
        FirstOffence records (inCheckingOrder records) error := by
  refine ⟨builds_iff_complete, ?_, fun error => build_eq_error_iff⟩
  intro hierarchy built
  refine ⟨fun id => contains_iff built, size_eq_countP built, ?_⟩
  intro id library member
  obtain ⟨campus, institution, atLibrary, atCampus, foundLibrary, foundCampus, found⟩ :=
    exists_traced built member
  exact ⟨campus, institution, atLibrary, atCampus, foundLibrary, foundCampus,
    by rw [ancestorsOf, found]⟩

/-- Records from the narrowest level to the widest, with one id on all of them. -/
def sampleRecords : List LocationRecord :=
  [.location "hall" "main", .location "main" "main", .library "main" "main", .campus "main" "main",
    .institution "main"]

/-- More records that do not fit, among them one for a library with an unknown campus, again. -/
def unfitRecords : List LocationRecord :=
  sampleRecords ++ [.location "hall" "annex", .library "main" "east", .library "main" "main"]

theorem build_complete_or_firstOffence_sampleRecords :
    Complete sampleRecords ∧
      (∃ hierarchy, build sampleRecords = .ok hierarchy ∧ hierarchy.size = 2 ∧
        ∃ campus institution, .library "main" campus ∈ sampleRecords ∧
          .campus campus institution ∈ sampleRecords ∧
          hierarchy.ancestorsOf "hall" = .ok ⟨"main", campus, institution⟩) ∧
      ¬Complete unfitRecords ∧
      FirstOffence unfitRecords (inCheckingOrder unfitRecords)
        (.unknownParent .library "main" "east") := by
  obtain ⟨complete, known, _⟩ := build_complete_or_firstOffence sampleRecords
  obtain ⟨unfit, _, faults⟩ := build_complete_or_firstOffence unfitRecords
  have built : ∃ hierarchy, build sampleRecords = .ok hierarchy := ⟨_, rfl⟩
  have failed : build unfitRecords = .error (.unknownParent .library "main" "east") := by decide
  refine ⟨complete.mp built, ?_, ?_, (faults _).mp failed⟩
  · obtain ⟨hierarchy, built⟩ := built
    obtain ⟨_, counted, chains⟩ := known hierarchy built
    obtain ⟨campus, institution, atLibrary, atCampus, _, _, found⟩ :=
      chains "hall" "main" (by decide)
    exact ⟨hierarchy, built, counted, campus, institution, atLibrary, atCampus, found⟩
  · intro complete
    obtain ⟨hierarchy, built⟩ := unfit.mpr complete
    simp [failed] at built

end Hierarchy

end Circulation
