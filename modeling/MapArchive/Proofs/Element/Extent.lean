import Mathlib.Algebra.Order.BigOperators.Group.List
import Mathlib.Algebra.Order.Ring.Nat
import MapArchive.Proofs.Element.Checked
import MapArchive.Proofs.RunningSum
import MapArchive.Proofs.Wire.Weight

/-!
# How large coordinates can get

Stored coordinates are sums, and there is no bound for sums; but a group of elements is given in a
single record, so no column in it has more entries than a record has bytes. That bounds the sums,
and with them the coordinates in nanodegrees, far below the largest double.
-/

namespace MapArchive

/-! ## How long columns can get -/

/-- Groups in which no column of coordinates has more entries than the longest record has bytes. -/
structure GroupMessage.IsShort (group : GroupMessage) : Prop where
  /-- The columns of dense nodes. -/
  dense : ∀ dense, group.dense = some dense →
    dense.lat.length ≤ Record.maxLength ∧ dense.lon.length ≤ Record.maxLength
  /-- The columns of ways. -/
  ways : ∀ way ∈ group.ways,
    way.lat.length ≤ Record.maxLength ∧ way.lon.length ≤ Record.maxLength

open Record (weights)

/-- Columns of coordinates of dense nodes are no longer than their records weigh. -/
theorem DenseNodesMessage.length_le_weights {room : Nat} {records : List Record}
    {dense : DenseNodesMessage} (h : Message.ofRecords room records = some dense) :
    dense.lat.length ≤ weights records ∧ dense.lon.length ≤ weights records := by
  simp only [Message.ofRecords, Option.bind_eq_bind, Option.bind_eq_some_iff, Option.pure_def,
    Option.some.injEq] at h
  obtain ⟨id, -, info, -, lat, hlat, lon, hlon, keysVals, -, rfl⟩ := h
  exact ⟨Field.length_numbers hlat, Field.length_numbers hlon⟩

/-- Columns of coordinates of ways are no longer than their records weigh. -/
theorem WayMessage.length_le_weights {room : Nat} {records : List Record} {way : WayMessage}
    (h : Message.ofRecords room records = some way) :
    way.lat.length ≤ weights records ∧ way.lon.length ≤ weights records := by
  simp only [Message.ofRecords, Option.bind_eq_bind, Option.bind_eq_some_iff, Option.pure_def,
    Option.some.injEq] at h
  obtain ⟨keys, -, vals, -, info, -, refs, -, lat, hlat, lon, hlon, rfl⟩ := h
  exact ⟨Field.length_numbers hlat, Field.length_numbers hlon⟩

/-- Groups made of records that are not too heavy are short. -/
theorem GroupMessage.isShort_of_records {room : Nat} {records : List Record}
    {group : GroupMessage} (h : Message.ofRecords room records = some group)
    (hweights : weights records ≤ Record.maxLength) : group.IsShort := by
  simp only [Message.ofRecords, Option.bind_eq_bind, Option.bind_eq_some_iff, Option.pure_def,
    Option.some.injEq] at h
  obtain ⟨nodes, -, dense, hdense, ways, hways, relations, -, changesets, -, rfl⟩ := h
  constructor
  · rintro found rfl
    obtain ⟨inner, hinner, hle⟩ := Field.exists_of_message? hdense
    have hlengths := DenseNodesMessage.length_le_weights hinner
    omega
  · intro way hway
    obtain ⟨content, hcontent, inner, hinner, hle⟩ := Field.exists_of_messages hways hway
    have hlengths := WayMessage.length_le_weights hinner
    have hsum := Field.size_contents 3 records
    have hsize : content.size ≤ ((Field.contents 3 records).map ByteArray.size).sum :=
      List.le_sum_of_mem (List.mem_map_of_mem hcontent)
    omega

/-- A byte string stored for a field is no longer than a record can be. -/
theorem Record.size_of_mem_contents {room field : Nat} {bytes content : ByteArray}
    {records : List Record} (h : readAll room bytes = some records)
    (hmem : content ∈ Field.contents field records) : content.size ≤ maxLength := by
  obtain ⟨r, hr, hcontent⟩ := List.mem_filterMap.mp hmem
  have hsound := (sound_of_readAll h r hr).payload
  obtain ⟨f, payload⟩ := r
  cases payload with
  | bytes stored =>
    obtain rfl : stored = content := by simpa using (Option.ite_none_right_eq_some.mp hcontent).2
    cases hsound with
    | bytes hsize => exact hsize
  | varint | fixed64 | group | fixed32 => cases hcontent

/-- The groups of a block that was read are short. -/
theorem BlockMessage.isShort_of_decode {bytes : ByteArray} {block : BlockMessage}
    (h : Message.decode bytes = some block) : ∀ group ∈ block.groups, group.IsShort := by
  obtain ⟨records, hrecords, hblock⟩ := Option.bind_eq_some_iff.mp h
  simp only [Message.ofRecords, Option.bind_eq_bind, Option.bind_eq_some_iff, Option.pure_def,
    Option.some.injEq] at hblock
  obtain ⟨table, -, groups, hgroups, rfl⟩ := hblock
  intro group hgroup
  obtain ⟨content, hcontent, inner, hinner, hle⟩ := Field.exists_of_messages hgroups hgroup
  have hsize := Record.size_of_mem_contents hrecords hcontent
  exact GroupMessage.isShort_of_records hinner (Nat.le_trans hle hsize)

/-! ## How large sums can get -/

/-- Sums of bounded differences are bounded by their number. -/
theorem natAbs_le_of_mem_sums {b : Nat} {start s : Int} {deltas : List Int}
    (hdeltas : ∀ d ∈ deltas, d.natAbs ≤ b) (hs : s ∈ sums start deltas) :
    s.natAbs ≤ start.natAbs + deltas.length * b := by
  induction deltas generalizing start with
  | nil => cases hs
  | cons d rest ih =>
    rw [List.forall_mem_cons] at hdeltas
    rw [sums_cons] at hs
    have hd := hdeltas.1
    have hfirst := Int.natAbs_add_le start d
    rw [List.length_cons, Nat.succ_mul]
    rcases List.mem_cons.mp hs with rfl | hmem
    · omega
    · have hrest := ih hdeltas.2 hmem
      omega

/-- A number of 64 bits has at most this size. -/
theorem natAbs_toInt_int64 (a : Int64) : a.toInt.natAbs ≤ 2 ^ 63 := by
  have hle := a.le_toInt
  have hlt := a.toInt_lt
  omega

/-- A number of 32 bits has at most this size. -/
theorem natAbs_toInt_int32 (a : Int32) : a.toInt.natAbs ≤ 2 ^ 31 := by
  have hle := a.le_toInt
  have hlt := a.toInt_lt
  omega

/-- The sums of a column that is not too long. -/
theorem natAbs_le_of_mem_column {column : List Int64} (hlength : column.length ≤ Record.maxLength)
    {s : Int} (hs : s ∈ sums 0 (column.map (·.toInt))) : s.natAbs ≤ 2 ^ 94 := by
  have hdeltas : ∀ d ∈ column.map (·.toInt), d.natAbs ≤ 2 ^ 63 := by
    intro d hd
    obtain ⟨a, -, rfl⟩ := List.mem_map.mp hd
    exact natAbs_toInt_int64 a
  have hle := natAbs_le_of_mem_sums hdeltas hs
  rw [List.length_map, Int.natAbs_zero, Nat.zero_add] at hle
  unfold Record.maxLength at hlength
  omega

/-! ## How large coordinates can get -/

/-- Units that 32 bits can tell, and offsets that 64 bits can. -/
structure Parameters.AreStorable (p : Parameters) : Prop where
  /-- The unit of the coordinates. -/
  granularity : p.granularity.natAbs ≤ 2 ^ 31
  /-- The offset of latitudes. -/
  latOffset : p.latOffset.natAbs ≤ 2 ^ 63
  /-- The offset of longitudes. -/
  lonOffset : p.lonOffset.natAbs ≤ 2 ^ 63

/-- The parameters of a block are numbers as a block stores them. -/
theorem BlockMessage.areStorable_parameters (block : BlockMessage) :
    block.parameters.AreStorable where
  granularity := natAbs_toInt_int32 _
  latOffset := natAbs_toInt_int64 _
  lonOffset := natAbs_toInt_int64 _

/-- Integers of a moderate size can be rounded to a double. -/
theorem fitsDouble_of_le {n : Int} (h : n.natAbs ≤ 2 ^ 126) : FitsDouble n :=
  Nat.lt_of_le_of_lt h moderate_lt_doubleLimit

/-- An offset and some units make a number of moderate size. -/
theorem fitsDouble_of_units {offset unit stored : Int} (hoffset : offset.natAbs ≤ 2 ^ 63)
    (hunit : unit.natAbs ≤ 2 ^ 31) (hstored : stored.natAbs ≤ 2 ^ 94) :
    FitsDouble (offset + unit * stored) := by
  have hadd := Int.natAbs_add_le offset (unit * stored)
  have hmul := Nat.mul_le_mul hunit hstored
  rw [← Int.natAbs_mul] at hmul
  exact fitsDouble_of_le (by omega)

/-- Places with coordinates that are no sums of too many differences are found. -/
theorem Parameters.AreStorable.locate_eq {p : Parameters} (hp : p.AreStorable) {lat lon : Int}
    (hlat : lat.natAbs ≤ 2 ^ 94) (hlon : lon.natAbs ≤ 2 ^ 94) :
    p.locate lat lon = .ok (p.position lat lon) :=
  Parameters.locate_eq (fitsDouble_of_units hp.latOffset hp.granularity hlat)
    (fitsDouble_of_units hp.lonOffset hp.granularity hlon)

end MapArchive
