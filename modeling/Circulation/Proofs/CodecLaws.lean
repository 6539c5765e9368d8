import Circulation.Cache.Codec
import Mathlib.Algebra.Group.Nat.Defs
import Mathlib.Data.List.Flatten
import Mathlib.Data.List.Forall2
import Mathlib.Data.List.Perm.Subperm

/-!
Contract: what the codecs of numbers, texts, options, pairs and lists promise.

Owns:
- that a codec reads back what it wrote, whatever follows;
- that a codec writes what it read in no more bytes than it read;
- both laws for every basic codec and combinator;
- which lists take no more bytes than others.

Does not own: the layout of any particular format.

Long forms of small integers are read as well, so reading and writing again may give other bytes,
but never more of them.
-/

namespace Circulation.Cache

/-! ## Numbers at a width -/

theorem ofLittleEndian_littleEndian {width value : Nat} (fits : value < 256 ^ width) :
    ofLittleEndian (littleEndian width value) = value := by
  induction width generalizing value with
  | zero =>
    simp only [Nat.pow_zero, Nat.lt_one_iff] at fits
    subst fits
    rfl
  | succ width ih =>
    have quotientFits : value / 256 < 256 ^ width := by
      rw [Nat.pow_succ] at fits
      exact Nat.div_lt_of_lt_mul (by omega)
    simp only [littleEndian, ofLittleEndian, ih quotientFits, UInt8.toNat_ofNat']
    omega

theorem ofLittleEndian_lt (bytes : List UInt8) :
    ofLittleEndian bytes < 256 ^ bytes.length := by
  induction bytes with
  | nil => decide
  | cons byte rest ih =>
    have small := byte.toNat_lt
    simp only [ofLittleEndian, List.length_cons, Nat.pow_succ]
    omega

namespace Codec

variable {α β : Type}

/-! ## Bytes -/

theorem take_append (taken rest : List UInt8) :
    take taken.length (taken ++ rest) = .ok (taken, rest) := by
  induction taken with
  | nil => rfl
  | cons byte taken ih =>
    rw [List.length_cons, List.cons_append, take, ih]
    rfl

theorem eq_append_of_take {count : Nat} {bytes taken rest : List UInt8}
    (read : take count bytes = .ok (taken, rest)) : bytes = taken ++ rest := by
  induction count generalizing bytes taken rest with
  | zero =>
    cases Except.ok.inj read
    rfl
  | succ count ih =>
    cases bytes with
    | nil => simp [take] at read
    | cons byte bytes =>
      obtain ⟨⟨others, afterOthers⟩, more, same⟩ := bind_eq_ok_iff.mp read
      cases Except.ok.inj same
      rw [ih more, List.cons_append]

/-! ## Integers -/

theorem markerWidth?_eq_some_iff {marker : UInt8} {width : Nat} :
    markerWidth? marker = some width ↔
      marker = 251 ∧ width = 2 ∨ marker = 252 ∧ width = 4 ∨ marker = 253 ∧ width = 8 := by
  unfold markerWidth?
  grind

theorem readInteger_marker {widest width value : Nat} {marker : UInt8} (rest : List UInt8)
    (known : markerWidth? marker = some width) (allowed : width ≤ widest)
    (fits : value < 256 ^ width) :
    readInteger widest (marker :: littleEndian width value ++ rest) = .ok (value, rest) := by
  have taken : take width (littleEndian width value ++ rest) =
      .ok (littleEndian width value, rest) := by
    have whole := take_append (littleEndian width value) rest
    rwa [length_littleEndian] at whole
  have beyond : ¬ marker ≤ 250 := by
    rcases markerWidth?_eq_some_iff.mp known with ⟨rfl, _⟩ | ⟨rfl, _⟩ | ⟨rfl, _⟩ <;> decide
  have permitted : (markerWidth? marker).filter (fun width => width ≤ widest) = some width := by
    rw [known, Option.filter, if_pos (decide_eq_true allowed)]
  rw [List.cons_append, readInteger, if_neg beyond, permitted]
  show (take width (littleEndian width value ++ rest) >>= _) = _
  rw [taken, ok_bind]
  exact congrArg (fun number => Except.ok (number, rest)) (ofLittleEndian_littleEndian fits)

/-- Integers are read back, if their bytes may be as many as they take. -/
theorem readInteger_writeInteger {widest value : Nat} (rest : List UInt8)
    (standard : widest = 4 ∨ widest = 8) (fits : value < 256 ^ widest) :
    readInteger widest (writeInteger value ++ rest) = .ok (value, rest) := by
  have wideEnough : 4 ≤ widest := by omega
  rw [writeInteger]
  split
  · next small =>
    have same : (UInt8.ofNat value).toNat = value := by
      rw [UInt8.toNat_ofNat']
      omega
    have first : UInt8.ofNat value ≤ 250 := by
      rw [UInt8.le_iff_toNat_le, same]
      exact small
    rw [List.singleton_append, readInteger, if_pos first, same]
  · split
    · next small =>
      exact readInteger_marker rest (by rfl) (by omega) small
    · split
      · next small =>
        exact readInteger_marker rest (by rfl) wideEnough small
      · next large =>
        rcases standard with rfl | rfl
        · exact absurd fits large
        · exact readInteger_marker rest (by rfl) (Nat.le_refl _) fits

theorem length_writeInteger (value : Nat) :
    (writeInteger value).length =
      if value ≤ 250 then 1
      else if value < UInt16.size then 3
      else if value < UInt32.size then 5
      else 9 := by
  unfold writeInteger
  split
  · rfl
  · split
    · simp
    · split <;> simp

theorem length_writeInteger_pos (value : Nat) : 0 < (writeInteger value).length := by
  rw [length_writeInteger]
  grind

theorem length_writeInteger_mono {value larger : Nat} (ordered : value ≤ larger) :
    (writeInteger value).length ≤ (writeInteger larger).length := by
  rw [length_writeInteger, length_writeInteger]
  grind

theorem length_writeInteger_le {marker : UInt8} {width value : Nat}
    (known : markerWidth? marker = some width) (fits : value < 256 ^ width) :
    (writeInteger value).length ≤ width + 1 := by
  rw [length_writeInteger]
  rcases markerWidth?_eq_some_iff.mp known with ⟨_, rfl⟩ | ⟨_, rfl⟩ | ⟨_, rfl⟩ <;> grind

/-- An integer that was read is as small as its bytes allow, and takes no more bytes when it is
written again. -/
theorem readInteger_bounds {widest value : Nat} {bytes rest : List UInt8} (some : 1 ≤ widest)
    (read : readInteger widest bytes = .ok (value, rest)) :
    value < 256 ^ widest ∧ (writeInteger value).length + rest.length ≤ bytes.length := by
  cases bytes with
  | nil => simp [readInteger] at read
  | cons first bytes =>
    rw [readInteger] at read
    split at read
    · next small =>
      cases Except.ok.inj read
      have bound : first.toNat ≤ 250 := UInt8.le_iff_toNat_le.mp small
      have widened : 256 ^ 1 ≤ 256 ^ widest := Nat.pow_le_pow_right (by decide) some
      rw [writeInteger, if_pos bound, List.length_singleton, List.length_cons]
      omega
    · split at read
      · simp at read
      · next width chosen =>
        obtain ⟨known, allowed⟩ := Option.filter_eq_some_iff.mp chosen
        obtain ⟨⟨taken, others⟩, more, same⟩ := bind_eq_ok_iff.mp read
        cases Except.ok.inj same
        have counted : taken.length = width := length_of_take more
        have fits : ofLittleEndian taken < 256 ^ width := by
          rw [← counted]
          exact ofLittleEndian_lt taken
        have widened : 256 ^ width ≤ 256 ^ widest :=
          Nat.pow_le_pow_right (by decide) (of_decide_eq_true allowed)
        have short := length_writeInteger_le known fits
        rw [eq_append_of_take more, List.length_cons, List.length_append]
        omega

/-! ## The laws -/

/-- What the codec writes for a value is read back as that value, whatever follows. -/
def Recovers (codec : Codec α) (value : α) : Prop :=
  ∀ rest, codec.read (codec.write value ++ rest) = .ok (value, rest)

/-- Every value takes some bytes, and is read back if an integer can count them. -/
structure Faithful (codec : Codec α) : Prop where
  occupied : ∀ value, 0 < (codec.write value).length
  recovers : ∀ value, (codec.write value).length < 256 ^ 8 → codec.Recovers value

/-- A value that was read takes no more bytes when it is written again. -/
def Compact (codec : Codec α) : Prop :=
  ∀ bytes value rest, codec.read bytes = .ok (value, rest) →
    (codec.write value).length + rest.length ≤ bytes.length

/-! ## Numbers, texts and fixed bytes -/

theorem recovers_natural {value : Nat} (fits : value < 256 ^ 8) : natural.Recovers value :=
  fun rest => readInteger_writeInteger rest (Or.inr rfl) fits

theorem compact_natural : natural.Compact :=
  fun _ _ _ read => (readInteger_bounds (by decide) read).2

theorem recovers_word (value : UInt32) : word.Recovers value := by
  intro rest
  have read : readInteger 4 (writeInteger value.toNat ++ rest) = .ok (value.toNat, rest) :=
    readInteger_writeInteger rest (Or.inl rfl) value.toNat_lt
  show (readInteger 4 (writeInteger value.toNat ++ rest) >>= _) = _
  rw [read, ok_bind]
  exact congrArg (fun number => Except.ok (number, rest)) UInt32.ofNat_toNat

theorem faithful_word : word.Faithful where
  occupied value := length_writeInteger_pos value.toNat
  recovers value _ := recovers_word value

theorem compact_word : word.Compact := by
  intro bytes value rest read
  obtain ⟨⟨number, others⟩, integerRead, same⟩ := bind_eq_ok_iff.mp read
  cases Except.ok.inj same
  obtain ⟨bound, short⟩ := readInteger_bounds (by decide) integerRead
  change (writeInteger (UInt32.ofNat number).toNat).length + _ ≤ _
  rwa [UInt32.toNat_ofNat_of_lt' bound]

theorem eq_utf8_of_ofUtf8? {encoded : List UInt8} {value : String}
    (decoded : ofUtf8? encoded = some value) : encoded = utf8 value := by
  unfold ofUtf8? String.fromUTF8? at decoded
  split at decoded
  · rw [← Option.some.inj decoded]
    rfl
  · simp at decoded

theorem length_write_text (value : String) :
    (text.write value).length =
      (writeInteger (utf8 value).length).length + (utf8 value).length :=
  List.length_append

theorem faithful_text : text.Faithful where
  occupied value := by
    have counted := length_writeInteger_pos (utf8 value).length
    rw [length_write_text]
    omega
  recovers value short := by
    intro rest
    have fits : (utf8 value).length < 256 ^ 8 := by
      rw [length_write_text] at short
      omega
    show (readInteger 8 (writeInteger _ ++ utf8 value ++ rest) >>= _) = _
    rw [List.append_assoc, readInteger_writeInteger _ (Or.inr rfl) fits, ok_bind]
    show (take _ (utf8 value ++ rest) >>= _) = _
    rw [take_append, ok_bind]
    simp only [ofUtf8?_utf8]
    rfl

theorem compact_text : text.Compact := by
  intro bytes value rest read
  obtain ⟨⟨count, counted⟩, countRead, remaining⟩ := bind_eq_ok_iff.mp read
  obtain ⟨⟨encoded, others⟩, taken, remaining⟩ := bind_eq_ok_iff.mp remaining
  simp only at taken remaining
  split at remaining
  · next decoded =>
    cases Except.ok.inj remaining
    have short := (readInteger_bounds (by decide) countRead).2
    have whole := eq_append_of_take taken
    have size : (utf8 value).length = count := by
      rw [← eq_utf8_of_ofUtf8? decoded]
      exact length_of_take taken
    rw [whole, eq_utf8_of_ofUtf8? decoded, List.length_append] at short
    rw [length_write_text, size]
    omega
  · simp at remaining

theorem fixed_read_eq_ok_iff {count : Nat} {input rest : List UInt8}
    {value : Vector UInt8 count} :
    (fixed count).read input = .ok (value, rest) ↔ take count input = .ok (value.toList, rest) := by
  unfold fixed
  simp only
  split
  · next failed => simp [failed]
  · next taken others succeeded =>
    have sameBytes : (⟨taken.toArray, by simp [length_of_take succeeded]⟩ :
        Vector UInt8 count) = value ↔ taken = value.toList := by
      rw [← Vector.toArray_inj, ← Array.toList_inj]
      rfl
    simp only [succeeded, Except.ok.injEq, Prod.mk.injEq, sameBytes]

theorem recovers_fixed {count : Nat} (value : Vector UInt8 count) :
    (fixed count).Recovers value := by
  intro rest
  rw [fixed_read_eq_ok_iff]
  change take count (value.toList ++ rest) = _
  have whole := take_append value.toList rest
  rwa [Vector.length_toList] at whole

theorem compact_fixed (count : Nat) : (fixed count).Compact := by
  intro bytes value rest read
  rw [eq_append_of_take (fixed_read_eq_ok_iff.mp read), List.length_append]
  exact Nat.le_refl _

/-! ## Pairs and options -/

theorem Recovers.via {codec : Codec α} {restore : α → β} {store : β → α} {value : β}
    (restored : restore (store value) = value) (stored : codec.Recovers (store value)) :
    (codec.via restore store).Recovers value := by
  intro rest
  show (codec.read (codec.write (store value) ++ rest) >>= _) = _
  rw [stored rest, ok_bind]
  exact congrArg (fun value => Except.ok (value, rest)) restored

theorem Faithful.via {codec : Codec α} {restore : α → β} {store : β → α}
    (faithful : codec.Faithful) (restored : ∀ value, restore (store value) = value) :
    (codec.via restore store).Faithful where
  occupied value := faithful.occupied (store value)
  recovers value short := Recovers.via (restored value) (faithful.recovers (store value) short)

theorem Compact.via {codec : Codec α} {restore : α → β} {store : β → α}
    (compact : codec.Compact) (kept : ∀ value, store (restore value) = value) :
    (codec.via restore store).Compact := by
  intro bytes value rest read
  obtain ⟨⟨stored, others⟩, storedRead, same⟩ := bind_eq_ok_iff.mp read
  cases Except.ok.inj same
  change (codec.write (store (restore stored))).length + _ ≤ _
  rw [kept]
  exact compact _ _ _ storedRead

theorem Recovers.pair {first : Codec α} {second : Codec β} {left : α} {right : β}
    (leftRead : first.Recovers left) (rightRead : second.Recovers right) :
    (first.pair second).Recovers (left, right) := by
  intro rest
  show (first.read (first.write left ++ second.write right ++ rest) >>= _) = _
  rw [List.append_assoc, leftRead, ok_bind]
  show (second.read (second.write right ++ rest) >>= _) = _
  rw [rightRead, ok_bind]
  rfl

theorem length_write_pair (first : Codec α) (second : Codec β) (value : α × β) :
    ((first.pair second).write value).length =
      (first.write value.1).length + (second.write value.2).length :=
  List.length_append

theorem Faithful.pair {first : Codec α} {second : Codec β} (left : first.Faithful)
    (right : second.Faithful) : (first.pair second).Faithful where
  occupied value := by
    have counted := left.occupied value.1
    rw [length_write_pair]
    omega
  recovers value short := by
    rw [length_write_pair] at short
    exact Recovers.pair (left.recovers value.1 (by omega)) (right.recovers value.2 (by omega))

theorem Compact.pair {first : Codec α} {second : Codec β} (left : first.Compact)
    (right : second.Compact) : (first.pair second).Compact := by
  intro bytes value rest read
  obtain ⟨⟨leftValue, middle⟩, leftRead, remaining⟩ := bind_eq_ok_iff.mp read
  obtain ⟨⟨rightValue, others⟩, rightRead, same⟩ := bind_eq_ok_iff.mp remaining
  cases Except.ok.inj same
  have leftShort := left _ _ _ leftRead
  have rightShort := right _ _ _ rightRead
  rw [length_write_pair]
  show (first.write leftValue).length + (second.write rightValue).length + rest.length ≤ _
  omega

theorem Recovers.optional {codec : Codec α} {value : Option α}
    (recovers : ∀ held ∈ value, codec.Recovers held) : (optional codec).Recovers value := by
  intro rest
  cases value with
  | none => rfl
  | some held =>
    show (codec.read (codec.write held ++ rest) >>= _) = _
    rw [recovers held rfl, ok_bind]
    rfl

theorem Compact.optional {codec : Codec α} (compact : codec.Compact) :
    (optional codec).Compact := by
  intro bytes value rest read
  cases bytes with
  | nil => simp [Codec.optional] at read
  | cons marker bytes =>
    simp only [Codec.optional] at read
    split at read
    · cases Except.ok.inj read
      simp [Codec.optional, Nat.add_comm]
    · split at read
      · obtain ⟨⟨held, others⟩, heldRead, same⟩ := bind_eq_ok_iff.mp read
        cases Except.ok.inj same
        have short := compact _ _ _ heldRead
        change (codec.write held).length + 1 + others.length ≤ bytes.length + 1
        omega
      · simp at read

/-! ## Lists -/

theorem length_write_list (codec : Codec α) (values : List α) :
    ((list codec).write values).length =
      (writeInteger values.length).length + (values.flatMap codec.write).length :=
  List.length_append

theorem readMany_flatMap {codec : Codec α} {values : List α}
    (recovers : ∀ value ∈ values, codec.Recovers value) (rest : List UInt8) :
    readMany codec.read values.length (values.flatMap codec.write ++ rest) =
      .ok (values, rest) := by
  induction values with
  | nil => rfl
  | cons value values ih =>
    have others := ih fun value member => recovers value (List.mem_cons_of_mem _ member)
    rw [List.flatMap_cons, List.append_assoc, List.length_cons, readMany,
      recovers value List.mem_cons_self, ok_bind]
    show (readMany codec.read values.length (values.flatMap codec.write ++ rest) >>= _) = _
    rw [others, ok_bind]
    rfl

theorem Recovers.list {codec : Codec α} {values : List α} (fits : values.length < 256 ^ 8)
    (recovers : ∀ value ∈ values, codec.Recovers value) : (list codec).Recovers values := by
  intro rest
  show (readInteger 8 (writeInteger values.length ++ values.flatMap codec.write ++ rest) >>= _) =
    _
  rw [List.append_assoc, readInteger_writeInteger _ (Or.inr rfl) fits, ok_bind]
  exact readMany_flatMap recovers rest

theorem length_write_le_of_mem {codec : Codec α} {value : α} {values : List α}
    (member : value ∈ values) :
    (codec.write value).length ≤ (values.flatMap codec.write).length := by
  obtain ⟨before, after, rfl⟩ := List.append_of_mem member
  simp only [List.flatMap_append, List.flatMap_cons, List.length_append]
  omega

/-- If every value takes some bytes, a list is no longer than its bytes are. -/
theorem length_le_length_flatMap {codec : Codec α}
    (occupied : ∀ value, 0 < (codec.write value).length) (values : List α) :
    values.length ≤ (values.flatMap codec.write).length := by
  induction values with
  | nil => exact Nat.zero_le _
  | cons value values ih =>
    have here := occupied value
    rw [List.flatMap_cons, List.length_append, List.length_cons]
    omega

theorem length_write_list_pos (codec : Codec α) (values : List α) :
    0 < ((list codec).write values).length := by
  have counted := length_writeInteger_pos values.length
  rw [length_write_list]
  omega

/-- A list that takes few bytes is read back if those of its values are that take few bytes. -/
theorem Recovers.list_of_short {codec : Codec α} {values : List α}
    (occupied : ∀ value, 0 < (codec.write value).length)
    (recovers : ∀ value ∈ values, (codec.write value).length < 256 ^ 8 → codec.Recovers value)
    (short : ((Codec.list codec).write values).length < 256 ^ 8) :
    (Codec.list codec).Recovers values := by
  rw [length_write_list] at short
  have counted := length_le_length_flatMap occupied values
  refine Recovers.list (by omega) fun value member => recovers value member ?_
  have contained : (codec.write value).length ≤ (values.flatMap codec.write).length :=
    length_write_le_of_mem member
  omega

theorem Faithful.list {codec : Codec α} (faithful : codec.Faithful) :
    (list codec).Faithful where
  occupied := length_write_list_pos codec
  recovers _ := .list_of_short faithful.occupied fun value _ => faithful.recovers value

theorem readMany_bounds {codec : Codec α} (compact : codec.Compact) {count : Nat}
    {bytes rest : List UInt8} {values : List α}
    (read : readMany codec.read count bytes = .ok (values, rest)) :
    values.length = count ∧
      (values.flatMap codec.write).length + rest.length ≤ bytes.length := by
  induction count generalizing bytes values with
  | zero =>
    cases Except.ok.inj read
    simp
  | succ count ih =>
    obtain ⟨⟨value, middle⟩, valueRead, remaining⟩ := bind_eq_ok_iff.mp read
    obtain ⟨⟨others, afterOthers⟩, othersRead, same⟩ := bind_eq_ok_iff.mp remaining
    cases Except.ok.inj same
    have valueShort := compact _ _ _ valueRead
    obtain ⟨counted, othersShort⟩ := ih othersRead
    simp only [List.length_cons, List.flatMap_cons, List.length_append, counted, true_and]
    omega

theorem Compact.list {codec : Codec α} (compact : codec.Compact) : (list codec).Compact := by
  intro bytes values rest read
  obtain ⟨⟨count, counted⟩, countRead, valuesRead⟩ := bind_eq_ok_iff.mp read
  have countShort := (readInteger_bounds (by decide) countRead).2
  obtain ⟨size, valuesShort⟩ := readMany_bounds compact valuesRead
  rw [length_write_list, size]
  omega

/-! ## Sizes of lists -/

/-- Values that take no more bytes one by one take no more as a list. -/
theorem length_write_list_le_of_forall₂ {codec : Codec α} {values others : List α}
    (smaller : List.Forall₂ (fun value other =>
      (codec.write value).length ≤ (codec.write other).length) values others) :
    ((list codec).write values).length ≤ ((list codec).write others).length := by
  have contents : (values.flatMap codec.write).length ≤ (others.flatMap codec.write).length := by
    induction smaller with
    | nil => exact Nat.le_refl _
    | cons head _ ih =>
      simp only [List.flatMap_cons, List.length_append]
      omega
  rw [length_write_list, length_write_list, smaller.length_eq]
  omega

/-- Some of the values of a list, each once, take no more bytes than the list. -/
theorem length_write_list_le_of_subset {codec : Codec α} {values others : List α}
    (distinct : values.Nodup) (contained : values ⊆ others) :
    ((list codec).write values).length ≤ ((list codec).write others).length := by
  obtain ⟨arranged, same, inside⟩ := List.subperm_of_subset distinct contained
  have counted := length_writeInteger_mono inside.length_le
  have contents := (inside.flatMap codec.write).length_le
  rw [same.length_eq] at counted
  rw [(same.flatMap_right codec.write).length_eq] at contents
  rw [length_write_list, length_write_list]
  omega

end Codec

end Circulation.Cache
