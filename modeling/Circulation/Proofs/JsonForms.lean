import Circulation.Json.Form
import Mathlib

/-!
Contract: JSON forms that lead back to one form.

Owns:
- the forms in which a condition, a chain, a match and a list of matches may stand, and the one
  form of each that is normal;
- that exactly these forms are read;
- that what is written is normal, is read as what was written, and is written again as it is.

Does not own: the text of JSON.
-/

namespace Circulation

/-! ## Forms of a type -/

/-- How the values of a type are written and read, which forms stand for which value, and which of
these forms is normal. -/
structure JsonForm (α : Type) where
  write : α → Json
  read? : Json → Option α
  Stands : Json → α → Prop
  Normal : Json → Prop

namespace JsonForm

variable {α : Type} {form : JsonForm α}

/-- A JSON value read and written again. -/
def rewrite? (form : JsonForm α) (json : Json) : Option Json :=
  (form.read? json).map form.write

/-- What reading accepts, what writing gives, and that every value is written in one normal form. -/
structure Lawful (form : JsonForm α) : Prop where
  read_iff : ∀ json value, form.read? json = some value ↔ form.Stands json value
  stands_write : ∀ value, form.Stands (form.write value) value
  normal_iff : ∀ json, form.Normal json ↔ ∃ value, form.write value = json

/-- Values survive being written and read. Whatever is read is written in a normal form, which is
read as the same value and written again as it is; and so is every normal form. -/
structure Survives (form : JsonForm α) : Prop where
  accepted : ∀ json value, form.read? json = some value ↔ form.Stands json value
  value : ∀ value, form.read? (form.write value) = some value
  json : ∀ json value, form.read? json = some value →
    form.Normal (form.write value) ∧ form.read? (form.write value) = some value ∧
      form.rewrite? (form.write value) = some (form.write value)
  normal : ∀ json, form.Normal json → form.rewrite? json = some json

theorem Lawful.survives (lawful : form.Lawful) : form.Survives := by
  have back (value : α) : form.read? (form.write value) = some value :=
    (lawful.read_iff _ value).mpr (lawful.stands_write value)
  have again (value : α) : form.rewrite? (form.write value) = some (form.write value) := by
    rw [rewrite?, back]
    rfl
  refine ⟨lawful.read_iff, back, ?_, ?_⟩
  · intro json value _
    exact ⟨(lawful.normal_iff _).mpr ⟨value, rfl⟩, back value, again value⟩
  · intro json isNormal
    obtain ⟨value, rfl⟩ := (lawful.normal_iff json).mp isNormal
    exact again value

end JsonForm

/-! ## Parts of forms -/

namespace Json

/-- One member has this name, and no other has it, and this is its value. -/
structure OnlyMember (members : List (String × Json)) (name : String) (value : Json) : Prop where
  member : (name, value) ∈ members
  once : (members.map Prod.fst).count name = 1

/-- The values stand in fields of these names: in the only members of an object that have them,
whatever others it has, or in the items of an array, in this order. -/
inductive Holds (names : List String) : Json → List Json → Prop where
  | object {members : List (String × Json)} {values : List Json}
      (held : List.Forall₂ (OnlyMember members) names values) :
      Holds names (.object members) values
  | array {items : List Json} (count : items.length = names.length) :
      Holds names (.array items) items

theorem text?_eq_some_iff {json : Json} {value : String} :
    json.text? = some value ↔ json = .text value := by
  cases json <;> simp [text?]

theorem natBelow?_eq_some_iff {bound value : Nat} {json : Json} :
    json.natBelow? bound = some value ↔ json = .ofNat value ∧ value < bound := by
  unfold natBelow?
  split
  · next other =>
    have same : Json.number (.ofNat other) 0 = .ofNat value ↔ other = value := by
      simp [Json.ofNat]
    rw [same]
    split
    · next small =>
      rw [Option.some.injEq]
      exact ⟨fun same => ⟨same, same ▸ small⟩, And.left⟩
    · next large =>
      constructor
      · simp
      · rintro ⟨rfl, small⟩
        exact absurd small large
  · next notNatural =>
    constructor
    · simp
    · rintro ⟨rfl, _⟩
      exact absurd rfl (notNatural value)

/-- If an item is read as what it stands for, items are read as what they stand for, one by one. -/
theorem mapM_eq_some_iff {α β : Type} {read : α → Option β} {Stands : α → β → Prop}
    (read_iff : ∀ item value, read item = some value ↔ Stands item value) {items : List α}
    {values : List β} : items.mapM read = some values ↔ List.Forall₂ Stands items values := by
  induction items generalizing values with
  | nil => simp [eq_comm]
  | cons item items ih =>
    rw [List.mapM_cons, List.forall₂_cons_left_iff]
    constructor
    · intro ended
      obtain ⟨value, first, remaining⟩ := Option.bind_eq_some_iff.mp ended
      obtain ⟨others, more, same⟩ := Option.bind_eq_some_iff.mp remaining
      exact ⟨value, others, (read_iff item value).mp first, ih.mp more,
        (Option.some.inj same).symm⟩
    · rintro ⟨value, others, stands, more, rfl⟩
      rw [(read_iff item value).mpr stands, ih.mpr more]
      rfl

theorem texts?_eq_some_iff {json : Json} {listed : List String} :
    json.texts? = some listed ↔ json = .texts listed := by
  cases json with
  | array items =>
    rw [texts?, texts, mapM_eq_some_iff fun _ _ => text?_eq_some_iff, Json.array.injEq,
      ← List.forall₂_map_right_iff, List.forall₂_eq_eq_eq]
  | null => simp [texts?, texts]
  | boolean value => simp [texts?, texts]
  | number mantissa places => simp [texts?, texts]
  | text value => simp [texts?, texts]
  | object members => simp [texts?, texts]

theorem variantName?_eq_some_iff {json : Json} {name : String} :
    json.variantName? = some name ↔ json = .text name ∨ json = .object [(name, .null)] := by
  unfold variantName?
  split
  · simp
  · simp
  · next notText notMember =>
    constructor
    · simp
    · rintro (rfl | rfl)
      · exact absurd rfl (notText name)
      · exact absurd rfl (notMember name)

theorem count_names_eq_length {members : List (String × Json)} {name : String} :
    (members.map Prod.fst).count name =
      (members.filter fun member => member.1 = name).length := by
  rw [List.count, List.countP_map, List.countP_eq_length_filter]
  rfl

theorem onlyMember?_eq_some_iff {members : List (String × Json)} {name : String} {value : Json} :
    onlyMember? members name = some value ↔ OnlyMember members name value := by
  constructor
  · intro found
    unfold onlyMember? at found
    split at found
    · next other _ sole =>
      cases Option.some.inj found
      have kept : (other, value) ∈ members.filter fun member => member.1 = name := by
        rw [sole, List.mem_singleton]
      obtain ⟨member, named⟩ := List.mem_filter.mp kept
      refine ⟨of_decide_eq_true named ▸ member, ?_⟩
      rw [count_names_eq_length, sole, List.length_singleton]
    · simp at found
  · rintro ⟨member, once⟩
    have kept : (name, value) ∈ members.filter fun member => member.1 = name :=
      List.mem_filter.mpr ⟨member, decide_eq_true rfl⟩
    rw [count_names_eq_length] at once
    obtain ⟨sole, only⟩ := List.length_eq_one_iff.mp once
    rw [only, List.mem_singleton] at kept
    rw [onlyMember?, only, ← kept]

/-- An object whose members have different names holds the value of each in a field. -/
theorem holds_object {members : List (String × Json)} {names : List String} {values : List Json}
    (named : members.map Prod.fst = names) (valued : members.map Prod.snd = values)
    (different : names.Nodup) : Holds names (.object members) values := by
  subst named valued
  apply Holds.object
  rw [List.forall₂_map_left_iff, List.forall₂_map_right_iff, List.forall₂_same]
  intro member isMember
  exact ⟨isMember, List.count_eq_one_of_mem different (List.mem_map_of_mem isMember)⟩

theorem fields?_eq_some_iff {json : Json} {names : List String} {values : List Json} :
    json.fields? names = some values ↔ Holds names json values := by
  unfold fields?
  split
  · next members =>
    rw [mapM_eq_some_iff fun _ _ => onlyMember?_eq_some_iff]
    constructor
    · exact .object
    · rintro (held | _)
      exact held
  · next items =>
    constructor
    · intro counted
      split at counted
      · next count =>
        cases Option.some.inj counted
        exact .array count
      · simp at counted
    · rintro (_ | count)
      exact if_pos count
  · next notObject notArray =>
    constructor
    · simp
    · rintro (held | count)
      · exact absurd rfl (notObject _)
      · exact absurd rfl (notArray _)

end Json

/-! ## Conditions -/

namespace Condition

/-- The condition by its name, alone or as a member with the value null, or with its ids in any
order and number. -/
inductive Stands : Json → Condition → Prop where
  | anyName : Stands (.text "Any") any
  | anyMember : Stands (.object [("Any", .null)]) any
  | isIn (ids : List String) : Stands (.object [("In", .texts ids)]) (isIn (.ofList ids))
  | notIn (ids : List String) : Stands (.object [("NotIn", .texts ids)]) (notIn (.ofList ids))

/-- The name `Any`, or one member with its ids in strictly ascending order. -/
inductive Normal : Json → Prop where
  | any : Normal (.text "Any")
  | isIn {ids : List String} (ascending : ids.Pairwise (· < ·)) :
      Normal (.object [("In", .array (ids.map .text))])
  | notIn {ids : List String} (ascending : ids.Pairwise (· < ·)) :
      Normal (.object [("NotIn", .array (ids.map .text))])

def jsonForm : JsonForm Condition :=
  ⟨toJson, ofJson?, Stands, Normal⟩

theorem ofJson?_eq_some_iff {json : Json} {condition : Condition} :
    ofJson? json = some condition ↔ Stands json condition := by
  constructor
  · intro read
    unfold ofJson? at read
    split at read
    · obtain ⟨listed, ids, rfl⟩ := Option.map_eq_some_iff.mp read
      rw [Json.texts?_eq_some_iff.mp ids]
      exact .isIn listed
    · obtain ⟨listed, ids, rfl⟩ := Option.map_eq_some_iff.mp read
      rw [Json.texts?_eq_some_iff.mp ids]
      exact .notIn listed
    · split at read
      · next named =>
        cases Option.some.inj read
        rcases Json.variantName?_eq_some_iff.mp named with rfl | rfl
        · exact .anyName
        · exact .anyMember
      · simp at read
  · intro stands
    cases stands with
    | anyName => rfl
    | anyMember => rfl
    | isIn ids => exact Option.map_eq_some_iff.mpr ⟨ids, Json.texts?_eq_some_iff.mpr rfl, rfl⟩
    | notIn ids => exact Option.map_eq_some_iff.mpr ⟨ids, Json.texts?_eq_some_iff.mpr rfl, rfl⟩

theorem lawful_jsonForm : jsonForm.Lawful where
  read_iff := fun _ _ => ofJson?_eq_some_iff
  stands_write := by
    intro condition
    cases condition with
    | any => exact .anyName
    | isIn ids =>
      have stands := Stands.isIn ids.ids
      rwa [IdSet.ofList_ids] at stands
    | notIn ids =>
      have stands := Stands.notIn ids.ids
      rwa [IdSet.ofList_ids] at stands
  normal_iff := by
    intro json
    constructor
    · intro isNormal
      cases isNormal with
      | any => exact ⟨any, rfl⟩
      | @isIn ids ascending => exact ⟨isIn ⟨ids, ascending⟩, rfl⟩
      | @notIn ids ascending => exact ⟨notIn ⟨ids, ascending⟩, rfl⟩
    · rintro ⟨condition, rfl⟩
      cases condition with
      | any => exact .any
      | isIn ids => exact .isIn ids.ascending
      | notIn ids => exact .notIn ids.ascending

end Condition

/-! ## Chains -/

namespace Ancestors

def Stands (json : Json) (ancestors : Ancestors) : Prop :=
  json.Holds ["library", "campus", "institution"]
    [.text ancestors.library, .text ancestors.campus, .text ancestors.institution]

/-- An object with the three ids in order and nothing else. -/
inductive Normal : Json → Prop where
  | intro (library campus institution : String) :
      Normal (.object [("library", .text library), ("campus", .text campus),
        ("institution", .text institution)])

def jsonForm : JsonForm Ancestors :=
  ⟨toJson, ofJson?, Stands, Normal⟩

theorem ofJson?_eq_some_iff {json : Json} {ancestors : Ancestors} :
    ofJson? json = some ancestors ↔ Stands json ancestors := by
  constructor
  · intro read
    obtain ⟨values, held, made⟩ := Option.bind_eq_some_iff.mp read
    split at made
    · obtain ⟨library, isLibrary, made⟩ := Option.bind_eq_some_iff.mp made
      obtain ⟨campus, isCampus, made⟩ := Option.bind_eq_some_iff.mp made
      obtain ⟨institution, isInstitution, made⟩ := Option.bind_eq_some_iff.mp made
      cases Option.some.inj made
      rw [Json.text?_eq_some_iff.mp isLibrary, Json.text?_eq_some_iff.mp isCampus,
        Json.text?_eq_some_iff.mp isInstitution] at held
      exact Json.fields?_eq_some_iff.mp held
    · simp at made
  · intro stands
    exact Option.bind_eq_some_iff.mpr ⟨_, Json.fields?_eq_some_iff.mpr stands, rfl⟩

/-- Other names may be repeated, those of the fields may not. -/
example :
    ofJson? (.object [("x", .null), ("library", .text "l"), ("campus", .text "c"),
      ("institution", .text "i"), ("x", .null)]) = some ⟨"l", "c", "i"⟩ ∧
    ofJson? (.object [("library", .text "l"), ("campus", .text "c"), ("institution", .text "i"),
      ("library", .null)]) = none := by
  decide +kernel

theorem lawful_jsonForm : jsonForm.Lawful where
  read_iff := fun _ _ => ofJson?_eq_some_iff
  stands_write := fun _ => Json.holds_object rfl rfl (by decide)
  normal_iff := by
    intro json
    constructor
    · rintro ⟨library, campus, institution⟩
      exact ⟨⟨library, campus, institution⟩, rfl⟩
    · rintro ⟨ancestors, rfl⟩
      exact .intro _ _ _

end Ancestors

/-! ## Matches -/

namespace Match

def Stands (json : Json) (found : Match) : Prop :=
  json.Holds ["policyId", "circulationRuleLine", "specificity"]
    [.text found.policyId, .ofNat found.line.toNat, .ofNat found.specificity.toNat]

/-- An object with the policy and two numbers in range, in order, and nothing else. -/
inductive Normal : Json → Prop where
  | intro (policyId : String) {line specificity : Nat} (lineFits : line < 2 ^ 32)
      (specificityFits : specificity < 2 ^ 8) :
      Normal (.object [("policyId", .text policyId), ("circulationRuleLine", .ofNat line),
        ("specificity", .ofNat specificity)])

def jsonForm : JsonForm Match :=
  ⟨toJson, ofJson?, Stands, Normal⟩

theorem ofJson?_eq_some_iff {json : Json} {found : Match} :
    ofJson? json = some found ↔ Stands json found := by
  constructor
  · intro read
    obtain ⟨values, held, made⟩ := Option.bind_eq_some_iff.mp read
    split at made
    · obtain ⟨policyId, isPolicyId, made⟩ := Option.bind_eq_some_iff.mp made
      obtain ⟨line, isLine, made⟩ := Option.bind_eq_some_iff.mp made
      obtain ⟨specificity, isSpecificity, made⟩ := Option.bind_eq_some_iff.mp made
      cases Option.some.inj made
      obtain ⟨rfl, lineFits⟩ := Json.natBelow?_eq_some_iff.mp isLine
      obtain ⟨rfl, specificityFits⟩ := Json.natBelow?_eq_some_iff.mp isSpecificity
      rw [Json.text?_eq_some_iff.mp isPolicyId] at held
      have holds := Json.fields?_eq_some_iff.mp held
      rwa [Stands, UInt32.toNat_ofNat_of_lt' lineFits, UInt8.toNat_ofNat_of_lt' specificityFits]
    · simp at made
  · intro stands
    refine Option.bind_eq_some_iff.mpr ⟨_, Json.fields?_eq_some_iff.mpr stands, ?_⟩
    have line := Json.natBelow?_eq_some_iff.mpr ⟨rfl, found.line.toNat_lt⟩
    have specificity := Json.natBelow?_eq_some_iff.mpr ⟨rfl, found.specificity.toNat_lt⟩
    refine Option.bind_eq_some_iff.mpr ⟨found.policyId, rfl, ?_⟩
    refine Option.bind_eq_some_iff.mpr ⟨_, line, ?_⟩
    refine Option.bind_eq_some_iff.mpr ⟨_, specificity, ?_⟩
    rw [UInt32.ofNat_toNat, UInt8.ofNat_toNat]
    rfl

theorem lawful_jsonForm : jsonForm.Lawful where
  read_iff := fun _ _ => ofJson?_eq_some_iff
  stands_write := fun _ => Json.holds_object rfl rfl (by decide)
  normal_iff := by
    intro json
    constructor
    · intro isNormal
      cases isNormal with
      | @intro policyId line specificity lineFits specificityFits =>
        refine ⟨⟨policyId, .ofNat line, .ofNat specificity⟩, ?_⟩
        simp only [jsonForm, toJson, UInt32.toNat_ofNat_of_lt' lineFits,
          UInt8.toNat_ofNat_of_lt' specificityFits]
    · rintro ⟨found, rfl⟩
      exact .intro _ found.line.toNat_lt found.specificity.toNat_lt

end Match

/-! ## Lists of matches -/

namespace MatchList

/-- An array in which every item stands for a match. -/
inductive Stands : Json → MatchList → Prop where
  | intro {items : List Json} {entries : List Match}
      (each : List.Forall₂ Match.Stands items entries) : Stands (.array items) ⟨entries⟩

/-- An array of matches in their normal form. -/
inductive Normal : Json → Prop where
  | intro {items : List Json} (each : ∀ item ∈ items, Match.Normal item) : Normal (.array items)

def jsonForm : JsonForm MatchList :=
  ⟨toJson, ofJson?, Stands, Normal⟩

theorem ofJson?_eq_some_iff {json : Json} {found : MatchList} :
    ofJson? json = some found ↔ Stands json found := by
  constructor
  · intro read
    unfold ofJson? at read
    split at read
    · obtain ⟨entries, each, rfl⟩ := Option.map_eq_some_iff.mp read
      exact .intro ((Json.mapM_eq_some_iff fun _ _ => Match.ofJson?_eq_some_iff).mp each)
    · simp at read
  · intro stands
    cases stands with
    | @intro items entries each =>
      have read := (Json.mapM_eq_some_iff fun _ _ => Match.ofJson?_eq_some_iff).mpr each
      exact Option.map_eq_some_iff.mpr ⟨entries, read, rfl⟩

theorem lawful_jsonForm : jsonForm.Lawful where
  read_iff := fun _ _ => ofJson?_eq_some_iff
  stands_write := by
    intro found
    apply Stands.intro
    rw [List.forall₂_map_left_iff, List.forall₂_same]
    exact fun entry _ => Match.lawful_jsonForm.stands_write entry
  normal_iff := by
    intro json
    constructor
    · intro isNormal
      cases isNormal with
      | @intro items each =>
        have written : items ∈ Set.range (List.map Match.toJson) := by
          rw [Set.range_list_map]
          exact fun item member => (Match.lawful_jsonForm.normal_iff item).mp (each item member)
        obtain ⟨entries, rfl⟩ := written
        exact ⟨⟨entries⟩, rfl⟩
    · rintro ⟨found, rfl⟩
      apply Normal.intro
      intro item member
      obtain ⟨entry, _, rfl⟩ := List.mem_map.mp member
      exact (Match.lawful_jsonForm.normal_iff _).mpr ⟨entry, rfl⟩

end MatchList

/-! ## All forms -/

/-- Conditions, chains, matches and lists of matches survive their JSON forms. -/
theorem jsonForms_survive :
    Condition.jsonForm.Survives ∧ Ancestors.jsonForm.Survives ∧ Match.jsonForm.Survives ∧
      MatchList.jsonForm.Survives :=
  ⟨Condition.lawful_jsonForm.survives, Ancestors.lawful_jsonForm.survives,
    Match.lawful_jsonForm.survives, MatchList.lawful_jsonForm.survives⟩

/-- Two matches, one in an array and one among other members and out of order. -/
def sampleMatches : Json :=
  .array [.array [.text "p", .ofNat 4294967295, .ofNat 255],
    .object [("specificity", .ofNat 0), ("reason", .null), ("circulationRuleLine", .ofNat 0),
      ("policyId", .text "q")]]

/-- The same matches as a value. -/
def sampleMatchList : MatchList :=
  ⟨[⟨"p", 4294967295, 255⟩, ⟨"q", 0, 0⟩]⟩

/-- A condition with an id twice and out of order. -/
def sampleCondition : Json :=
  .object [("NotIn", .texts ["b", "a", "b"])]

theorem jsonForms_survive_sampleForms :
    (MatchList.ofJson? sampleMatches = some sampleMatchList ∧
      MatchList.Normal sampleMatchList.toJson ∧
      MatchList.ofJson? sampleMatchList.toJson = some sampleMatchList) ∧
      ∃ condition, Condition.ofJson? sampleCondition = some condition ∧
        condition.toJson = .object [("NotIn", .texts ["a", "b"])] ∧
        Condition.Normal condition.toJson ∧
        Condition.jsonForm.rewrite? condition.toJson = some condition.toJson := by
  have matchesRead : MatchList.ofJson? sampleMatches = some sampleMatchList := by decide +kernel
  have conditionRead : Condition.ofJson? sampleCondition =
      some (.notIn ⟨["a", "b"], by decide⟩) := by decide +kernel
  obtain ⟨matchesNormal, matchesBack, _⟩ :=
    jsonForms_survive.2.2.2.json sampleMatches sampleMatchList matchesRead
  obtain ⟨conditionNormal, _, conditionAgain⟩ :=
    jsonForms_survive.1.json sampleCondition (.notIn ⟨["a", "b"], by decide⟩) conditionRead
  exact ⟨⟨matchesRead, matchesNormal, matchesBack⟩, _, conditionRead, rfl, conditionNormal,
    conditionAgain⟩

end Circulation
