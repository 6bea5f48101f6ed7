import MapArchive.Element.Members
import MapArchive.Proofs.RunningSum
import MapArchive.Proofs.Wire.Column

/-!
# Members and the columns they are stored in

The members of a relation are paired up from three columns by their places. On reading, numbers that
stand for no type of members are left out of the column of types. So a member has the role and the
number stored at its place, but its type is the one at its place among the types that are known: it
is the one stored at its place as long as no unknown type stands before it. Where one does, the
types after it move up and go to members they were not stored for.
-/

namespace MapArchive

/-! ## The walk through the members -/

namespace MemberWalk

/-- A walk pairs up roles, sums and types by their places, as far as there are all three. -/
theorem toList_eq_zip (w : MemberWalk) :
    Walk.toList w = (w.roles.zip ((sums w.ids.current w.ids.deltas).zip w.types)).map
      fun (role, id, type) => ⟨role, id, type⟩ := by
  obtain ⟨roles, ids, types⟩ := w
  induction roles generalizing ids types with
  | nil => exact Walk.toList_of_none (s := MemberWalk.mk [] ids types) rfl
  | cons role roles ih =>
    obtain ⟨_ | ⟨d, deltas⟩, remaining, current⟩ := ids
    · exact Walk.toList_of_none
        (s := MemberWalk.mk (role :: roles) ⟨[], remaining, current⟩ types) rfl
    · rcases types with _ | ⟨type, types⟩
      · simpa using Walk.toList_of_none
          (s := MemberWalk.mk (role :: roles) ⟨d :: deltas, remaining, current⟩ []) rfl
      · let later : MemberWalk := ⟨roles, ⟨deltas, remaining - 1, current + d⟩, types⟩
        have hnext : (MemberWalk.mk (role :: roles) ⟨d :: deltas, remaining, current⟩
            (type :: types)).next = (some ⟨role, current + d, type⟩, later) := rfl
        rw [Walk.toList_of_some (s := MemberWalk.mk _ _ _) hnext, ih]
        simp

instance : Walk.Fused MemberWalk where
  next_of_none {s t} h := by
    have hnext := h
    change MemberWalk.next _ = _ at h
    unfold MemberWalk.next at h
    split at h
    · cases h
    · cases h
      exact hnext

end MemberWalk

namespace RelationMessage

/-- There are as many members as entries in the shortest column. -/
theorem length_members (relation : RelationMessage) :
    (Walk.toList relation.members).length = min relation.rolesSid.length
      (min relation.memberIds.length relation.types.length) := by
  simp [MemberWalk.toList_eq_zip, members, RunningSum.ofDeltas]

/-- A member has what the columns hold at its place: the role, the sum of the differences, and the
type. -/
theorem getElem?_members {relation : RelationMessage} {k : Nat} {m : Member}
    (h : (Walk.toList relation.members)[k]? = some m) :
    (relation.rolesSid[k]?).map (·.toInt) = some m.roleSid ∧ k < relation.memberIds.length ∧
      m.memberId = ((relation.memberIds.take (k + 1)).map (·.toInt)).sum ∧
      relation.types[k]? = some m.type := by
  rw [MemberWalk.toList_eq_zip, List.getElem?_map, Option.map_eq_some_iff] at h
  obtain ⟨⟨role, id, type⟩, hzip, rfl⟩ := h
  obtain ⟨hrole, hrest⟩ := List.getElem?_zip_eq_some.mp hzip
  obtain ⟨hid, htype⟩ := List.getElem?_zip_eq_some.mp hrest
  simp only [members, RunningSum.ofDeltas, List.getElem?_map] at hrole hid htype
  have hlt : k < relation.memberIds.length := by
    simpa using (List.getElem?_eq_some_iff.mp hid).1
  exact ⟨hrole, hlt, eq_of_getElem?_sums hid, htype⟩

end RelationMessage

/-! ## The columns in the bytes -/

/-- The three columns of members, as they stand in the bytes of a relation. -/
structure MemberColumns where
  /-- The indices of the roles. -/
  roles : List Int32
  /-- The differences of the numbers. -/
  deltas : List Int64
  /-- The numbers that stand for the types, and others that stand for none. -/
  codes : List Int32
  deriving DecidableEq

namespace MemberColumns

/-- The numbers that records hold for a field, one after the other. -/
def column {α : Type} (kind : Scalar α) (field : Nat) (records : List Record) : Option (List α) :=
  (records.mapM (Field.items field)).map fun found => found.flatten.map kind.ofWord

/-- The columns in the bytes of a relation. -/
def ofBytes? (bytes : ByteArray) : Option MemberColumns := do
  let records ← Record.readAll Record.maxDepth bytes
  return {
    roles := ← column .int32 8 records
    deltas := ← column .sint64 9 records
    codes := ← column .int32 10 records }

/-- The types that are known, in their order. -/
def knownTypes (columns : MemberColumns) : List MemberType :=
  columns.codes.filterMap MemberType.ofCode?

/-- The columns of a relation that was read are those in its bytes, but for unknown types. -/
theorem exists_of_decode {bytes : ByteArray} {relation : RelationMessage}
    (h : Message.decode bytes = some relation) :
    ∃ columns, ofBytes? bytes = some columns ∧ relation.rolesSid = columns.roles ∧
      relation.memberIds = columns.deltas ∧ relation.types = columns.knownTypes := by
  simp only [Message.decode, Message.decodeWithin, Option.bind_eq_some_iff] at h
  obtain ⟨records, hrecords, hrelation⟩ := h
  simp only [Message.ofRecords, Option.bind_eq_bind, Option.bind_eq_some_iff, Option.pure_def,
    Option.some.injEq, Field.numbers_eq_items] at hrelation
  obtain ⟨keys, -, vals, -, info, -, roles, hroles, deltas, hdeltas, codes, hcodes, rfl⟩ :=
    hrelation
  refine ⟨⟨roles, deltas, codes⟩, ?_, rfl, rfl, rfl⟩
  simp only [ofBytes?, column, hrecords, hroles, hdeltas, hcodes, Option.bind_eq_bind,
    Option.bind_some, Option.pure_def]

/-- Up to a place where all codes are known, the known types stand at their own places. -/
theorem getElem?_codes {codes : List Int32} {k : Nat} {type : MemberType}
    (hknown : ∀ code ∈ codes.take (k + 1), (MemberType.ofCode? code).isSome)
    (htype : (codes.filterMap MemberType.ofCode?)[k]? = some type) :
    (codes[k]?).bind MemberType.ofCode? = some type := by
  induction codes generalizing k with
  | nil => cases htype
  | cons code codes ih =>
    rw [List.take_succ_cons, List.forall_mem_cons] at hknown
    obtain ⟨first, hfirst⟩ := Option.isSome_iff_exists.mp hknown.1
    rw [List.filterMap_cons, hfirst] at htype
    cases k with
    | zero => simpa [hfirst] using htype
    | succ k => exact ih hknown.2 htype

end MemberColumns

namespace RelationMessage

/-- Members have the roles and numbers stored at their places, and the known types in their order.
Let a relation be read from bytes that hold three columns of members. There are as many members as
the shortest of the columns of roles and differences and of the known types has entries, and the
member at a place has the role stored at that place, the sum of the differences up to it as its
number, and the known type at that place. If no unknown type stands at the place or before it, that
is the type stored there. -/
theorem members_take_known_types {bytes : ByteArray} {relation : RelationMessage}
    (h : Message.decode bytes = some relation) :
    ∃ columns, MemberColumns.ofBytes? bytes = some columns ∧
      (Walk.toList relation.members).length =
        min columns.roles.length (min columns.deltas.length columns.knownTypes.length) ∧
      ∀ k m, (Walk.toList relation.members)[k]? = some m →
        (columns.roles[k]?).map (·.toInt) = some m.roleSid ∧ k < columns.deltas.length ∧
        m.memberId = ((columns.deltas.take (k + 1)).map (·.toInt)).sum ∧
        columns.knownTypes[k]? = some m.type ∧
        ((∀ code ∈ columns.codes.take (k + 1), (MemberType.ofCode? code).isSome) →
          (columns.codes[k]?).bind MemberType.ofCode? = some m.type) := by
  obtain ⟨columns, hcolumns, hroles, hdeltas, htypes⟩ := MemberColumns.exists_of_decode h
  refine ⟨columns, hcolumns, ?_, fun k m hm => ?_⟩
  · rw [length_members, hroles, hdeltas, htypes]
  · obtain ⟨hrole, hlt, hid, htype⟩ := getElem?_members hm
    rw [hroles] at hrole
    rw [hdeltas] at hlt hid
    rw [htypes] at htype
    exact ⟨hrole, hlt, hid, htype, fun hknown => MemberColumns.getElem?_codes hknown htype⟩

/-- The bytes of a relation of three members, with the types 1, 7 and 0 in a record each. The second
type is unknown. -/
def threeTypes : ByteArray :=
  ofOctets [0x50, 0x01, 0x50, 0x07, 0x50, 0x00, 0x42, 0x03, 0x00, 0x01, 0x02, 0x4A, 0x03, 0x14,
    0x0A, 0x02]

/-- The relation that is read from them. It has two members: the first one with the type stored for
it, the second one with that of the third. -/
theorem three_types_make_two_members :
    ∃ relation : RelationMessage, Message.decode threeTypes = some relation ∧
      (Walk.toList relation.members).length = 2 ∧
      (∀ m, (Walk.toList relation.members)[0]? = some m → m.memberId = 10 ∧ m.type = .way) ∧
      ∀ m, (Walk.toList relation.members)[1]? = some m → m.memberId = 15 ∧ m.type = .node := by
  obtain ⟨relation, hdecode⟩ : ∃ relation : RelationMessage,
      Message.decode threeTypes = some relation :=
    Option.isSome_iff_exists.mp (by decide +kernel)
  have hstored : MemberColumns.ofBytes? threeTypes = some ⟨[0, 1, 2], [10, 5, 1], [1, 7, 0]⟩ := by
    decide +kernel
  obtain ⟨columns, hcolumns, hlength, hmembers⟩ := members_take_known_types hdecode
  obtain rfl : columns = ⟨[0, 1, 2], [10, 5, 1], [1, 7, 0]⟩ :=
    Option.some.inj (hcolumns.symm.trans hstored)
  refine ⟨relation, hdecode, hlength.trans (by decide), fun m hm => ?_, fun m hm => ?_⟩
  · obtain ⟨-, -, hid, -, htype⟩ := hmembers 0 m hm
    have hknown : ∀ code ∈ ([1, 7, 0] : List Int32).take 1, (MemberType.ofCode? code).isSome := by
      simp [MemberType.ofCode?]
    exact ⟨hid.trans (by decide), (Option.some.inj (htype hknown)).symm⟩
  · obtain ⟨-, -, hid, htype, -⟩ := hmembers 1 m hm
    exact ⟨hid.trans (by decide), (Option.some.inj htype).symm⟩

/-- The bytes of a relation of two members, with the types 7, which is unknown, and 1. -/
def unknownTypeFirst : ByteArray :=
  ofOctets [0x08, 0x01, 0x42, 0x02, 0x00, 0x01, 0x4A, 0x02, 0x14, 0x0A, 0x52, 0x02, 0x07, 0x01]

/-- It does not hold that a member has the type stored at its place, if it has one: where the first
type is unknown, the first member takes the second one. -/
theorem types_move_up :
    ¬ ∀ (bytes : ByteArray) (relation : RelationMessage) (columns : MemberColumns),
      Message.decode bytes = some relation → MemberColumns.ofBytes? bytes = some columns →
        ∀ (k : Nat) (m : Member), (Walk.toList relation.members)[k]? = some m →
          (columns.codes[k]?).bind MemberType.ofCode? = some m.type := by
  intro h
  have hdecode : Message.decode unknownTypeFirst =
      some (⟨1, [], [], none, [0, 1], [10, 5], [.way]⟩ : RelationMessage) := by decide +kernel
  have hcolumns : MemberColumns.ofBytes? unknownTypeFirst = some ⟨[0, 1], [10, 5], [7, 1]⟩ := by
    decide +kernel
  have htype := h _ _ _ hdecode hcolumns 0 ⟨0, 10, .way⟩ (by decide +kernel)
  revert htype
  decide

end RelationMessage

end MapArchive
