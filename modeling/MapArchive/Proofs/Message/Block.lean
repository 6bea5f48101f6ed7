import MapArchive.Message.Block
import MapArchive.Proofs.Wire.Message

/-!
# Reading what was written: messages of the map data

All messages that a block is made of are faithful, from the string table up to the block itself. A
message with submessages is faithful because these can be stored if it can.
-/

namespace MapArchive

instance : Message.Faithful StringTable where
  areSimple table := by simp [Message.toRecords]
  ofRecords_toRecords room table _ := by
    have hentries : Field.contents 1 (Message.toRecords table) = table.entries.toList :=
      Field.contents_eq (by simp [Message.toRecords])
    simp only [Message.ofRecords, hentries, Array.toArray_toList]

instance : Message.Faithful InfoMessage where
  areSimple info := by simp [Message.toRecords]
  ofRecords_toRecords room info _ := by
    have hversion : Field.number? .int32 1 (Message.toRecords info) = info.version :=
      Field.number?_eq (by simp [Message.toRecords])
    have htimestamp : Field.number? .int64 2 (Message.toRecords info) = info.timestamp :=
      Field.number?_eq (by simp [Message.toRecords])
    have hchangeset : Field.number? .int64 3 (Message.toRecords info) = info.changeset :=
      Field.number?_eq (by simp [Message.toRecords])
    have huid : Field.number? .int32 4 (Message.toRecords info) = info.uid :=
      Field.number?_eq (by simp [Message.toRecords])
    have huserSid : Field.number? .uint32 5 (Message.toRecords info) = info.userSid :=
      Field.number?_eq (by simp [Message.toRecords])
    have hvisible : Field.number? .bool 6 (Message.toRecords info) = info.visible :=
      Field.number?_eq (by simp [Message.toRecords])
    simp only [Message.ofRecords, hversion, htimestamp, hchangeset, huid, huserSid, hvisible]

instance : Message.Faithful DenseInfoMessage where
  areSimple info := by simp [Message.toRecords]
  ofRecords_toRecords room info _ := by
    have hversion : Field.numbers .int32 1 (Message.toRecords info) = some info.version :=
      Field.numbers_eq (by simp [Message.toRecords])
    have htimestamp : Field.numbers .sint64 2 (Message.toRecords info) = some info.timestamp :=
      Field.numbers_eq (by simp [Message.toRecords])
    have hchangeset : Field.numbers .sint64 3 (Message.toRecords info) = some info.changeset :=
      Field.numbers_eq (by simp [Message.toRecords])
    have huid : Field.numbers .sint32 4 (Message.toRecords info) = some info.uid :=
      Field.numbers_eq (by simp [Message.toRecords])
    have huserSid : Field.numbers .sint32 5 (Message.toRecords info) = some info.userSid :=
      Field.numbers_eq (by simp [Message.toRecords])
    have hvisible : Field.numbers .bool 6 (Message.toRecords info) = some info.visible :=
      Field.numbers_eq (by simp [Message.toRecords])
    simp only [Message.ofRecords, hversion, htimestamp, hchangeset, huid, huserSid, hvisible]
    rfl

instance : Message.Faithful ChangeSetMessage where
  areSimple changes := by simp [Message.toRecords]
  ofRecords_toRecords room changes _ := by
    have hid : Field.number? .int64 1 (Message.toRecords changes) = some changes.id :=
      Field.number?_eq (by simp [Message.toRecords])
    simp only [Message.ofRecords, hid, Option.getD_some]

instance : Message.Faithful NodeMessage where
  areSimple node := by simp [Message.toRecords]
  ofRecords_toRecords room node hstorable := by
    have hid : Field.number? .sint64 1 (Message.toRecords node) = some node.id :=
      Field.number?_eq (by simp [Message.toRecords])
    have hkeys : Field.numbers .uint32 2 (Message.toRecords node) = some node.keys :=
      Field.numbers_eq (by simp [Message.toRecords])
    have hvals : Field.numbers .uint32 3 (Message.toRecords node) = some node.vals :=
      Field.numbers_eq (by simp [Message.toRecords])
    have hlat : Field.number? .sint64 8 (Message.toRecords node) = some node.lat :=
      Field.number?_eq (by simp [Message.toRecords])
    have hlon : Field.number? .sint64 9 (Message.toRecords node) = some node.lon :=
      Field.number?_eq (by simp [Message.toRecords])
    have hinfo : Field.message? InfoMessage 4 room (Message.toRecords node) = some node.info :=
      Field.message?_eq (by simp [Message.toRecords]) hstorable room
    simp only [Message.ofRecords, hid, hkeys, hvals, hlat, hlon, hinfo]
    rfl

instance : Message.Faithful DenseNodesMessage where
  areSimple dense := by simp [Message.toRecords]
  ofRecords_toRecords room dense hstorable := by
    have hid : Field.numbers .sint64 1 (Message.toRecords dense) = some dense.id :=
      Field.numbers_eq (by simp [Message.toRecords])
    have hinfo : Field.message? DenseInfoMessage 5 room (Message.toRecords dense) =
        some dense.info :=
      Field.message?_eq (by simp [Message.toRecords]) hstorable room
    have hlat : Field.numbers .sint64 8 (Message.toRecords dense) = some dense.lat :=
      Field.numbers_eq (by simp [Message.toRecords])
    have hlon : Field.numbers .sint64 9 (Message.toRecords dense) = some dense.lon :=
      Field.numbers_eq (by simp [Message.toRecords])
    have hkeysVals : Field.numbers .int32 10 (Message.toRecords dense) = some dense.keysVals :=
      Field.numbers_eq (by simp [Message.toRecords])
    simp only [Message.ofRecords, hid, hinfo, hlat, hlon, hkeysVals]
    rfl

instance : Message.Faithful WayMessage where
  areSimple way := by simp [Message.toRecords]
  ofRecords_toRecords room way hstorable := by
    have hid : Field.number? .int64 1 (Message.toRecords way) = some way.id :=
      Field.number?_eq (by simp [Message.toRecords])
    have hkeys : Field.numbers .uint32 2 (Message.toRecords way) = some way.keys :=
      Field.numbers_eq (by simp [Message.toRecords])
    have hvals : Field.numbers .uint32 3 (Message.toRecords way) = some way.vals :=
      Field.numbers_eq (by simp [Message.toRecords])
    have hinfo : Field.message? InfoMessage 4 room (Message.toRecords way) = some way.info :=
      Field.message?_eq (by simp [Message.toRecords]) hstorable room
    have hrefs : Field.numbers .sint64 8 (Message.toRecords way) = some way.refs :=
      Field.numbers_eq (by simp [Message.toRecords])
    have hlat : Field.numbers .sint64 9 (Message.toRecords way) = some way.lat :=
      Field.numbers_eq (by simp [Message.toRecords])
    have hlon : Field.numbers .sint64 10 (Message.toRecords way) = some way.lon :=
      Field.numbers_eq (by simp [Message.toRecords])
    simp only [Message.ofRecords, hid, hkeys, hvals, hinfo, hrefs, hlat, hlon]
    rfl

/-- The types of members are found again among the numbers that stand for them. -/
theorem filterMap_ofCode?_code (types : List MemberType) :
    (types.map MemberType.code).filterMap MemberType.ofCode? = types := by
  have hcode : MemberType.ofCode? ∘ MemberType.code = some := funext MemberType.ofCode?_code
  rw [List.filterMap_map, hcode, List.filterMap_some]

instance : Message.Faithful RelationMessage where
  areSimple relation := by simp [Message.toRecords]
  ofRecords_toRecords room relation hstorable := by
    have hid : Field.number? .int64 1 (Message.toRecords relation) = some relation.id :=
      Field.number?_eq (by simp [Message.toRecords])
    have hkeys : Field.numbers .uint32 2 (Message.toRecords relation) = some relation.keys :=
      Field.numbers_eq (by simp [Message.toRecords])
    have hvals : Field.numbers .uint32 3 (Message.toRecords relation) = some relation.vals :=
      Field.numbers_eq (by simp [Message.toRecords])
    have hinfo : Field.message? InfoMessage 4 room (Message.toRecords relation) =
        some relation.info :=
      Field.message?_eq (by simp [Message.toRecords]) hstorable room
    have hrolesSid : Field.numbers .int32 8 (Message.toRecords relation) = some relation.rolesSid :=
      Field.numbers_eq (by simp [Message.toRecords])
    have hmemberIds : Field.numbers .sint64 9 (Message.toRecords relation) =
        some relation.memberIds :=
      Field.numbers_eq (by simp [Message.toRecords])
    have htypes : Field.numbers .int32 10 (Message.toRecords relation) =
        some (relation.types.map MemberType.code) :=
      Field.numbers_eq (by simp [Message.toRecords])
    simp only [Message.ofRecords, hid, hkeys, hvals, hinfo, hrolesSid, hmemberIds, htypes,
      Option.bind_eq_bind, Option.bind_some, filterMap_ofCode?_code]
    rfl

instance : Message.Faithful GroupMessage where
  areSimple group := by simp [Message.toRecords]
  ofRecords_toRecords room group hstorable := by
    have hnodes : Field.messages NodeMessage 1 room (Message.toRecords group) = some group.nodes :=
      Field.messages_eq (by simp [Message.toRecords]) hstorable room
    have hdense : Field.message? DenseNodesMessage 2 room (Message.toRecords group) =
        some group.dense :=
      Field.message?_eq (by simp [Message.toRecords]) hstorable room
    have hways : Field.messages WayMessage 3 room (Message.toRecords group) = some group.ways :=
      Field.messages_eq (by simp [Message.toRecords]) hstorable room
    have hrelations : Field.messages RelationMessage 4 room (Message.toRecords group) =
        some group.relations :=
      Field.messages_eq (by simp [Message.toRecords]) hstorable room
    have hchangesets : Field.messages ChangeSetMessage 5 room (Message.toRecords group) =
        some group.changesets :=
      Field.messages_eq (by simp [Message.toRecords]) hstorable room
    simp only [Message.ofRecords, hnodes, hdense, hways, hrelations, hchangesets]
    rfl

instance : Message.Faithful BlockMessage where
  areSimple block := by simp [Message.toRecords]
  ofRecords_toRecords room block hstorable := by
    have hstringTable : Field.message? StringTable 1 room (Message.toRecords block) =
        some (some block.stringTable) :=
      Field.message?_eq (by simp [Message.toRecords]) hstorable room
    have hgroups : Field.messages GroupMessage 2 room (Message.toRecords block) =
        some block.groups :=
      Field.messages_eq (by simp [Message.toRecords]) hstorable room
    have hgranularity : Field.number? .int32 17 (Message.toRecords block) = block.granularity :=
      Field.number?_eq (by simp [Message.toRecords])
    have hlatOffset : Field.number? .int64 19 (Message.toRecords block) = block.latOffset :=
      Field.number?_eq (by simp [Message.toRecords])
    have hlonOffset : Field.number? .int64 20 (Message.toRecords block) = block.lonOffset :=
      Field.number?_eq (by simp [Message.toRecords])
    have hdateGranularity : Field.number? .int32 18 (Message.toRecords block) =
        block.dateGranularity :=
      Field.number?_eq (by simp [Message.toRecords])
    simp only [Message.ofRecords, hstringTable, hgroups, hgranularity, hlatOffset, hlonOffset,
      hdateGranularity]
    rfl

end MapArchive
