/-!
Contract: finite sets of ids.

Owns:
- the one stored form of a set: its ids in strictly ascending order of code points;
- insertion, membership, and that two sets with the same members are equal.

Does not own: what the ids stand for.
-/

namespace Circulation

/-- A finite set of ids, stored in strictly ascending order. -/
structure IdSet where
  ids : List String
  ascending : ids.Pairwise (· < ·)
deriving DecidableEq, Repr

namespace IdSet

/-! ## Insertion into an ascending list -/

/-- The ids with `id` put before the first one that is not smaller. -/
def insertInto (id : String) : List String → List String
  | [] => [id]
  | first :: rest =>
      if id < first then id :: first :: rest
      else if id = first then first :: rest
      else first :: insertInto id rest

theorem mem_insertInto {id member : String} {ids : List String} :
    member ∈ insertInto id ids ↔ member = id ∨ member ∈ ids := by
  induction ids with
  | nil => simp [insertInto]
  | cons first rest ih =>
    simp only [insertInto]
    split
    · simp
    · split
      · next same => subst same; simp
      · simp only [List.mem_cons, ih, or_left_comm]

theorem pairwise_insertInto {id : String} {ids : List String}
    (ascending : ids.Pairwise (· < ·)) : (insertInto id ids).Pairwise (· < ·) := by
  induction ids with
  | nil => simp [insertInto]
  | cons first rest ih =>
    obtain ⟨firstLeast, restAscending⟩ := List.pairwise_cons.mp ascending
    simp only [insertInto]
    split
    · next smaller =>
      refine List.pairwise_cons.mpr ⟨fun member found => ?_, ascending⟩
      rcases List.mem_cons.mp found with same | found
      · exact same ▸ smaller
      · exact String.lt_trans smaller (firstLeast member found)
    · next notSmaller =>
      split
      · exact ascending
      · next distinct =>
        have larger : first < id :=
          Std.lt_of_le_of_ne (String.not_lt.mp notSmaller) (Ne.symm distinct)
        refine List.pairwise_cons.mpr ⟨fun member found => ?_, ih restAscending⟩
        rcases mem_insertInto.mp found with same | found
        · exact same ▸ larger
        · exact firstLeast member found

/-! ## Sets -/

instance : Membership String IdSet where
  mem set id := id ∈ set.ids

def empty : IdSet :=
  ⟨[], .nil⟩

def insert (set : IdSet) (id : String) : IdSet :=
  ⟨insertInto id set.ids, pairwise_insertInto set.ascending⟩

/-- The set of the ids of a list, whatever their order and however often they occur. -/
def ofList (ids : List String) : IdSet :=
  ids.foldr (fun id set => set.insert id) empty

def contains (set : IdSet) (id : String) : Bool :=
  set.ids.contains id

@[simp] theorem mem_ids {set : IdSet} {id : String} : id ∈ set.ids ↔ id ∈ set :=
  Iff.rfl

@[simp] theorem contains_iff {set : IdSet} {id : String} :
    set.contains id = true ↔ id ∈ set := by
  simp [contains]

@[simp] theorem mem_insert {set : IdSet} {id member : String} :
    member ∈ set.insert id ↔ member = id ∨ member ∈ set :=
  mem_insertInto

@[simp] theorem mem_ofList {ids : List String} {member : String} :
    member ∈ ofList ids ↔ member ∈ ids := by
  induction ids with
  | nil => simp [ofList, empty, ← mem_ids]
  | cons first rest ih =>
    rw [ofList, List.foldr_cons, mem_insert, ← ofList, ih, List.mem_cons]

theorem eq_of_mem_iff {left right : IdSet}
    (same : ∀ id, id ∈ left ↔ id ∈ right) : left = right := by
  obtain ⟨leftIds, leftAscending⟩ := left
  obtain ⟨rightIds, rightAscending⟩ := right
  have samePerm : leftIds.Perm rightIds := by
    refine (List.perm_ext_iff_of_nodup ?_ ?_).mpr same
    · exact leftAscending.imp Std.ne_of_lt
    · exact rightAscending.imp Std.ne_of_lt
  have sameIds : leftIds = rightIds :=
    samePerm.eq_of_pairwise
      (fun _ _ _ _ before after => absurd after (String.lt_asymm before))
      leftAscending rightAscending
  subst sameIds
  rfl

/-- A set is the set of the ids it is stored as. -/
theorem ofList_ids (set : IdSet) : ofList set.ids = set :=
  eq_of_mem_iff fun _ => mem_ofList

end IdSet

end Circulation
