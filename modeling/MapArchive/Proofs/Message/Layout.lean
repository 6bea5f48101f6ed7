import MapArchive.Proofs.Message.Schema
import MapArchive.Proofs.Wire.Column

/-!
# The layout of the messages in a block

A layout says which fields the messages of a type have and how each is stored. All that is read from
the records of a message is what is read for its fields, and what is read for a field depends only
on the records that it admits: those with its number and a payload that it can be stored in. Records
that no field admits are passed over, wherever they stand.
-/

namespace MapArchive

/-- The types of messages that a block is made of. -/
inductive BlockPart where
  /-- The block itself. -/
  | block
  /-- Groups of elements. -/
  | group
  /-- The string table. -/
  | stringTable
  /-- Data about the version of an element. -/
  | info
  /-- Data about the versions of dense nodes. -/
  | denseInfo
  /-- Sets of changes. -/
  | changeSet
  /-- Nodes. -/
  | node
  /-- Nodes as columns. -/
  | denseNodes
  /-- Ways. -/
  | way
  /-- Relations. -/
  | relation
  deriving DecidableEq, Repr

/-- How a field is stored. -/
inductive FieldKind : Type 1 where
  /-- As a single number. -/
  | number
  /-- As numbers of a kind, packed or not. -/
  | numbers {α : Type} (kind : Scalar α)
  /-- As byte strings. -/
  | bytes
  /-- As a single submessage, which several records may make up. -/
  | message (part : BlockPart)
  /-- As submessages, one to a record. -/
  | messages (part : BlockPart)

/-- The kinds of payloads that a field can be stored in, by their numbers. -/
def FieldKind.payloads : FieldKind → List Nat
  | .number => [0]
  | .numbers _ => [0, 2]
  | .bytes => [2]
  | .message _ => [2]
  | .messages _ => [2]

namespace BlockPart

/-- The type of messages. -/
def type : BlockPart → MessageType
  | .block => .block
  | .group => .group
  | .stringTable => .stringTable
  | .info => .info
  | .denseInfo => .denseInfo
  | .changeSet => .changeSet
  | .node => .node
  | .denseNodes => .denseNodes
  | .way => .way
  | .relation => .relation

/-- How the field with a number is stored, if there is such a field. -/
def field? : BlockPart → Nat → Option FieldKind
  | .block, 1 => some (.message .stringTable)
  | .block, 2 => some (.messages .group)
  | .block, 17 => some .number
  | .block, 18 => some .number
  | .block, 19 => some .number
  | .block, 20 => some .number
  | .group, 1 => some (.messages .node)
  | .group, 2 => some (.message .denseNodes)
  | .group, 3 => some (.messages .way)
  | .group, 4 => some (.messages .relation)
  | .group, 5 => some (.messages .changeSet)
  | .stringTable, 1 => some .bytes
  | .info, 1 => some .number
  | .info, 2 => some .number
  | .info, 3 => some .number
  | .info, 4 => some .number
  | .info, 5 => some .number
  | .info, 6 => some .number
  | .denseInfo, 1 => some (.numbers .int32)
  | .denseInfo, 2 => some (.numbers .sint64)
  | .denseInfo, 3 => some (.numbers .sint64)
  | .denseInfo, 4 => some (.numbers .sint32)
  | .denseInfo, 5 => some (.numbers .sint32)
  | .denseInfo, 6 => some (.numbers .bool)
  | .changeSet, 1 => some .number
  | .node, 1 => some .number
  | .node, 2 => some (.numbers .uint32)
  | .node, 3 => some (.numbers .uint32)
  | .node, 4 => some (.message .info)
  | .node, 8 => some .number
  | .node, 9 => some .number
  | .denseNodes, 1 => some (.numbers .sint64)
  | .denseNodes, 5 => some (.message .denseInfo)
  | .denseNodes, 8 => some (.numbers .sint64)
  | .denseNodes, 9 => some (.numbers .sint64)
  | .denseNodes, 10 => some (.numbers .int32)
  | .way, 1 => some .number
  | .way, 2 => some (.numbers .uint32)
  | .way, 3 => some (.numbers .uint32)
  | .way, 4 => some (.message .info)
  | .way, 8 => some (.numbers .sint64)
  | .way, 9 => some (.numbers .sint64)
  | .way, 10 => some (.numbers .sint64)
  | .relation, 1 => some .number
  | .relation, 2 => some (.numbers .uint32)
  | .relation, 3 => some (.numbers .uint32)
  | .relation, 4 => some (.message .info)
  | .relation, 8 => some (.numbers .int32)
  | .relation, 9 => some (.numbers .sint64)
  | .relation, 10 => some (.numbers .int32)
  | _, _ => none

/-- Messages of a type have a field with the record's number, and it can be stored in the record's
payload. -/
def Admits (part : BlockPart) (r : Record) : Prop :=
  ∃ kind, part.field? r.field = some kind ∧ r.payload.kind ∈ kind.payloads

/-- The message that records make up. -/
abbrev ofRecords (part : BlockPart) (room : Nat) (records : List Record) :
    Option part.type.Carrier :=
  Message.ofRecords room records

end BlockPart

/-! ## What is read for a field -/

namespace FieldKind

/-- Records in which the same is stored for a field. -/
def Same (room field : Nat) (a b : List Record) : FieldKind → Prop
  | .number => Field.words field a = Field.words field b
  | .numbers kind => Field.numbers kind field a = Field.numbers kind field b
  | .bytes => Field.contents field a = Field.contents field b
  | .message part =>
    Field.message? part.type.Carrier field room a = Field.message? part.type.Carrier field room b
  | .messages part =>
    Field.messages part.type.Carrier field room a = Field.messages part.type.Carrier field room b

/-- The records that a field admits. -/
def admitted (kind : FieldKind) (field : Nat) (records : List Record) : List Record :=
  records.filter fun r => r.field = field ∧ r.payload.kind ∈ kind.payloads

/-- Varints stored for a field stand in records that it admits. -/
theorem words_admitted (kind : FieldKind) (h : 0 ∈ kind.payloads) (field : Nat)
    (records : List Record) :
    Field.words field (kind.admitted field records) = Field.words field records := by
  unfold Field.words admitted
  rw [List.filterMap_filter]
  congr 1
  funext ⟨f, payload⟩
  cases payload <;> grind [Payload.kind]

/-- Byte strings stored for a field stand in records that it admits. -/
theorem contents_admitted (kind : FieldKind) (h : 2 ∈ kind.payloads) (field : Nat)
    (records : List Record) :
    Field.contents field (kind.admitted field records) = Field.contents field records := by
  unfold Field.contents admitted
  rw [List.filterMap_filter]
  congr 1
  funext ⟨f, payload⟩
  cases payload <;> grind [Payload.kind]

/-- A record holds nothing for a repeated field of numbers that does not admit it. -/
theorem items_of_not_admitted {α : Type} {kind : Scalar α} {field : Nat} {r : Record}
    (h : ¬(r.field = field ∧ r.payload.kind ∈ (FieldKind.numbers kind).payloads)) :
    Field.items field r = some [] := by
  obtain ⟨f, payload⟩ := r
  unfold Field.items
  cases payload <;> grind [Payload.kind, payloads]

/-- Numbers stored for a field stand in records that it admits. -/
theorem numbers_admitted {α : Type} (kind : Scalar α) (field : Nat) (records : List Record) :
    Field.numbers kind field ((FieldKind.numbers kind).admitted field records) =
      Field.numbers kind field records := by
  have hseen : ∀ seen, Field.unpackAllOnto field seen
      ((FieldKind.numbers kind).admitted field records) =
        Field.unpackAllOnto field seen records := by
    unfold admitted
    induction records with
    | nil => exact fun _ => rfl
    | cons r records ih =>
      intro seen
      rw [List.filter_cons]
      split
      case isTrue =>
        rw [Field.unpackAllOnto_cons, Field.unpackAllOnto_cons]
        simp only [ih]
      case isFalse h =>
        rw [Field.unpackAllOnto_cons, items_of_not_admitted (by simpa using h), ih]
        simp
  rw [Field.numbers, Field.numbers, hseen]

/-- A single submessage depends on the byte strings stored for it. -/
theorem message?_congr {α : Type} [Message α] {field : Nat} {a b : List Record}
    (h : Field.contents field a = Field.contents field b) (room : Nat) :
    Field.message? α field room a = Field.message? α field room b := by
  rw [Field.message?, Field.message?, h]

/-- What is stored for a field depends on the records that it admits. -/
theorem same_of_admitted {kind : FieldKind} {field : Nat} {a b : List Record}
    (h : kind.admitted field a = kind.admitted field b) (room : Nat) :
    kind.Same room field a b := by
  cases kind with
  | number =>
    have hwords := words_admitted .number (by decide) field
    exact (hwords a).symm.trans (h ▸ hwords b)
  | numbers kind =>
    have hnumbers := numbers_admitted kind field
    exact (hnumbers a).symm.trans (h ▸ hnumbers b)
  | bytes =>
    have hcontents := contents_admitted .bytes (by decide) field
    exact (hcontents a).symm.trans (h ▸ hcontents b)
  | message part =>
    have hcontents := contents_admitted (.message part) (List.mem_singleton.mpr rfl) field
    exact message?_congr ((hcontents a).symm.trans (h ▸ hcontents b)) room
  | messages part =>
    have hcontents := contents_admitted (.messages part) (List.mem_singleton.mpr rfl) field
    have hsame := (hcontents a).symm.trans (h ▸ hcontents b)
    simp only [Same, Field.messages, hsame]

end FieldKind

/-! ## What is read for all fields -/

namespace BlockPart

/-- What is read from the records of a message is what is read for its fields. -/
theorem ofRecords_congr {part : BlockPart} {room : Nat} {a b : List Record}
    (h : ∀ field kind, part.field? field = some kind → kind.Same room field a b) :
    part.ofRecords room a = part.ofRecords room b := by
  cases part with
  | block =>
    have htable : Field.message? StringTable 1 room a =
        Field.message? StringTable 1 room b := h 1 _ rfl
    have hgroups : Field.messages GroupMessage 2 room a =
        Field.messages GroupMessage 2 room b := h 2 _ rfl
    have hgranularity : Field.words 17 a = Field.words 17 b := h 17 _ rfl
    have hdate : Field.words 18 a = Field.words 18 b := h 18 _ rfl
    have hlat : Field.words 19 a = Field.words 19 b := h 19 _ rfl
    have hlon : Field.words 20 a = Field.words 20 b := h 20 _ rfl
    show Message.ofRecords (α := BlockMessage) room a = Message.ofRecords room b
    simp only [Message.ofRecords, Field.number?, htable, hgroups, hgranularity, hdate, hlat, hlon]
  | group =>
    have hnodes : Field.messages NodeMessage 1 room a =
        Field.messages NodeMessage 1 room b := h 1 _ rfl
    have hdense : Field.message? DenseNodesMessage 2 room a =
        Field.message? DenseNodesMessage 2 room b := h 2 _ rfl
    have hways : Field.messages WayMessage 3 room a =
        Field.messages WayMessage 3 room b := h 3 _ rfl
    have hrelations : Field.messages RelationMessage 4 room a =
        Field.messages RelationMessage 4 room b := h 4 _ rfl
    have hchangesets : Field.messages ChangeSetMessage 5 room a =
        Field.messages ChangeSetMessage 5 room b := h 5 _ rfl
    show Message.ofRecords (α := GroupMessage) room a = Message.ofRecords room b
    simp only [Message.ofRecords, hnodes, hdense, hways, hrelations, hchangesets]
  | stringTable =>
    have hentries : Field.contents 1 a = Field.contents 1 b := h 1 _ rfl
    show Message.ofRecords (α := StringTable) room a = Message.ofRecords room b
    simp only [Message.ofRecords, hentries]
  | info =>
    have hversion : Field.words 1 a = Field.words 1 b := h 1 _ rfl
    have htimestamp : Field.words 2 a = Field.words 2 b := h 2 _ rfl
    have hchangeset : Field.words 3 a = Field.words 3 b := h 3 _ rfl
    have huid : Field.words 4 a = Field.words 4 b := h 4 _ rfl
    have huser : Field.words 5 a = Field.words 5 b := h 5 _ rfl
    have hvisible : Field.words 6 a = Field.words 6 b := h 6 _ rfl
    show Message.ofRecords (α := InfoMessage) room a = Message.ofRecords room b
    simp only [Message.ofRecords, Field.number?, hversion, htimestamp, hchangeset, huid,
      huser, hvisible]
  | denseInfo =>
    have hversion : Field.numbers .int32 1 a = Field.numbers .int32 1 b := h 1 _ rfl
    have htimestamp : Field.numbers .sint64 2 a = Field.numbers .sint64 2 b := h 2 _ rfl
    have hchangeset : Field.numbers .sint64 3 a = Field.numbers .sint64 3 b := h 3 _ rfl
    have huid : Field.numbers .sint32 4 a = Field.numbers .sint32 4 b := h 4 _ rfl
    have huser : Field.numbers .sint32 5 a = Field.numbers .sint32 5 b := h 5 _ rfl
    have hvisible : Field.numbers .bool 6 a = Field.numbers .bool 6 b := h 6 _ rfl
    show Message.ofRecords (α := DenseInfoMessage) room a = Message.ofRecords room b
    simp only [Message.ofRecords, hversion, htimestamp, hchangeset, huid, huser, hvisible]
  | changeSet =>
    have hid : Field.words 1 a = Field.words 1 b := h 1 _ rfl
    show Message.ofRecords (α := ChangeSetMessage) room a = Message.ofRecords room b
    simp only [Message.ofRecords, Field.number?, hid]
  | node =>
    have hid : Field.words 1 a = Field.words 1 b := h 1 _ rfl
    have hkeys : Field.numbers .uint32 2 a = Field.numbers .uint32 2 b := h 2 _ rfl
    have hvals : Field.numbers .uint32 3 a = Field.numbers .uint32 3 b := h 3 _ rfl
    have hinfo : Field.message? InfoMessage 4 room a =
        Field.message? InfoMessage 4 room b := h 4 _ rfl
    have hlat : Field.words 8 a = Field.words 8 b := h 8 _ rfl
    have hlon : Field.words 9 a = Field.words 9 b := h 9 _ rfl
    show Message.ofRecords (α := NodeMessage) room a = Message.ofRecords room b
    simp only [Message.ofRecords, Field.number?, hid, hkeys, hvals, hinfo, hlat, hlon]
  | denseNodes =>
    have hid : Field.numbers .sint64 1 a = Field.numbers .sint64 1 b := h 1 _ rfl
    have hinfo : Field.message? DenseInfoMessage 5 room a =
        Field.message? DenseInfoMessage 5 room b := h 5 _ rfl
    have hlat : Field.numbers .sint64 8 a = Field.numbers .sint64 8 b := h 8 _ rfl
    have hlon : Field.numbers .sint64 9 a = Field.numbers .sint64 9 b := h 9 _ rfl
    have hkeysVals : Field.numbers .int32 10 a = Field.numbers .int32 10 b := h 10 _ rfl
    show Message.ofRecords (α := DenseNodesMessage) room a = Message.ofRecords room b
    simp only [Message.ofRecords, hid, hinfo, hlat, hlon, hkeysVals]
  | way =>
    have hid : Field.words 1 a = Field.words 1 b := h 1 _ rfl
    have hkeys : Field.numbers .uint32 2 a = Field.numbers .uint32 2 b := h 2 _ rfl
    have hvals : Field.numbers .uint32 3 a = Field.numbers .uint32 3 b := h 3 _ rfl
    have hinfo : Field.message? InfoMessage 4 room a =
        Field.message? InfoMessage 4 room b := h 4 _ rfl
    have hrefs : Field.numbers .sint64 8 a = Field.numbers .sint64 8 b := h 8 _ rfl
    have hlat : Field.numbers .sint64 9 a = Field.numbers .sint64 9 b := h 9 _ rfl
    have hlon : Field.numbers .sint64 10 a = Field.numbers .sint64 10 b := h 10 _ rfl
    show Message.ofRecords (α := WayMessage) room a = Message.ofRecords room b
    simp only [Message.ofRecords, Field.number?, hid, hkeys, hvals, hinfo, hrefs, hlat, hlon]
  | relation =>
    have hid : Field.words 1 a = Field.words 1 b := h 1 _ rfl
    have hkeys : Field.numbers .uint32 2 a = Field.numbers .uint32 2 b := h 2 _ rfl
    have hvals : Field.numbers .uint32 3 a = Field.numbers .uint32 3 b := h 3 _ rfl
    have hinfo : Field.message? InfoMessage 4 room a =
        Field.message? InfoMessage 4 room b := h 4 _ rfl
    have hroles : Field.numbers .int32 8 a = Field.numbers .int32 8 b := h 8 _ rfl
    have hmembers : Field.numbers .sint64 9 a = Field.numbers .sint64 9 b := h 9 _ rfl
    have htypes : Field.numbers .int32 10 a = Field.numbers .int32 10 b := h 10 _ rfl
    show Message.ofRecords (α := RelationMessage) room a = Message.ofRecords room b
    simp only [Message.ofRecords, Field.number?, hid, hkeys, hvals, hinfo, hroles, hmembers, htypes]

end BlockPart

end MapArchive
