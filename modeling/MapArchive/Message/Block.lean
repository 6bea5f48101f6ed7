import MapArchive.Wire.Field

/-!
# Messages of the map data

A block holds a string table and groups of elements: nodes, ways and relations. Nodes may also be
stored densely, as columns of numbers. The structures here are the messages just as they are
stored: coordinates in units of the block's granularity, identifiers in columns as differences, and
texts as indices into the string table. Absent optional fields stay distinct from fields that hold
their default; a required field that is absent reads as zero.
-/

namespace MapArchive

/-- The strings that the elements of a block refer to. -/
structure StringTable where
  /-- The strings, in the order of their indices. -/
  entries : Array ByteArray
  deriving DecidableEq

/-- Data about a single version of an element. -/
structure InfoMessage where
  /-- The number of the version. -/
  version : Option Int32
  /-- The time, in units of the block's date granularity. -/
  timestamp : Option Int64
  /-- The set of changes that the version belongs to. -/
  changeset : Option Int64
  /-- The number of the user. -/
  uid : Option Int32
  /-- The name of the user, as an index. -/
  userSid : Option UInt32
  /-- Whether the element exists in this version. -/
  visible : Option Bool
  deriving DecidableEq

/-- Data about the versions of dense nodes, as columns. -/
structure DenseInfoMessage where
  /-- The numbers of the versions. -/
  version : List Int32
  /-- Differences of times. -/
  timestamp : List Int64
  /-- Differences of sets of changes. -/
  changeset : List Int64
  /-- Differences of numbers of users. -/
  uid : List Int32
  /-- Differences of indices of names. -/
  userSid : List Int32
  /-- Whether the nodes exist. -/
  visible : List Bool
  deriving DecidableEq

/-- A set of changes. -/
structure ChangeSetMessage where
  /-- The number of the set. -/
  id : Int64
  deriving DecidableEq

/-- A node. -/
structure NodeMessage where
  /-- The number of the node. -/
  id : Int64
  /-- The keys of its tags, as indices. -/
  keys : List UInt32
  /-- The values of its tags, as indices. -/
  vals : List UInt32
  /-- Data about its version. -/
  info : Option InfoMessage
  /-- Latitude in units of the granularity. -/
  lat : Int64
  /-- Longitude in units of the granularity. -/
  lon : Int64
  deriving DecidableEq

/-- Nodes as columns. -/
structure DenseNodesMessage where
  /-- Differences of numbers of nodes. -/
  id : List Int64
  /-- Data about the versions. -/
  info : Option DenseInfoMessage
  /-- Differences of latitudes. -/
  lat : List Int64
  /-- Differences of longitudes. -/
  lon : List Int64
  /-- Keys and values of all nodes' tags as indices, those of each node ended by a zero. -/
  keysVals : List Int32
  deriving DecidableEq

/-- A way. -/
structure WayMessage where
  /-- The number of the way. -/
  id : Int64
  /-- The keys of its tags, as indices. -/
  keys : List UInt32
  /-- The values of its tags, as indices. -/
  vals : List UInt32
  /-- Data about its version. -/
  info : Option InfoMessage
  /-- Differences of the numbers of its nodes. -/
  refs : List Int64
  /-- Differences of the latitudes of its nodes, if the file has them. -/
  lat : List Int64
  /-- Differences of the longitudes of its nodes, if the file has them. -/
  lon : List Int64
  deriving DecidableEq

/-- What a member of a relation is. -/
inductive MemberType where
  /-- A node. -/
  | node
  /-- A way. -/
  | way
  /-- A relation. -/
  | relation
  deriving DecidableEq, Repr

/-- The number that stands for a type of members. -/
def MemberType.code : MemberType → Int32
  | .node => 0
  | .way => 1
  | .relation => 2

/-- The type of members that a number stands for. -/
def MemberType.ofCode? (code : Int32) : Option MemberType :=
  if code = 0 then some .node
  else if code = 1 then some .way
  else if code = 2 then some .relation
  else none

/-- The number of a type stands for this type. -/
@[simp] theorem MemberType.ofCode?_code (t : MemberType) : ofCode? t.code = some t := by
  cases t <;> decide

/-- A relation. -/
structure RelationMessage where
  /-- The number of the relation. -/
  id : Int64
  /-- The keys of its tags, as indices. -/
  keys : List UInt32
  /-- The values of its tags, as indices. -/
  vals : List UInt32
  /-- Data about its version. -/
  info : Option InfoMessage
  /-- The roles of its members, as indices. -/
  rolesSid : List Int32
  /-- Differences of the numbers of its members. -/
  memberIds : List Int64
  /-- The types of its members. Numbers that stand for no type are left out when read. -/
  types : List MemberType
  deriving DecidableEq

/-- Elements that are stored together. -/
structure GroupMessage where
  /-- Nodes. -/
  nodes : List NodeMessage
  /-- Nodes as columns. -/
  dense : Option DenseNodesMessage
  /-- Ways. -/
  ways : List WayMessage
  /-- Relations. -/
  relations : List RelationMessage
  /-- Sets of changes. -/
  changesets : List ChangeSetMessage
  deriving DecidableEq

/-- A block of map data. -/
structure BlockMessage where
  /-- The strings that the elements refer to. -/
  stringTable : StringTable
  /-- The elements. -/
  groups : List GroupMessage
  /-- Nanodegrees in a unit of the coordinates. -/
  granularity : Option Int32
  /-- Nanodegrees to be added to each latitude. -/
  latOffset : Option Int64
  /-- Nanodegrees to be added to each longitude. -/
  lonOffset : Option Int64
  /-- Milliseconds in a unit of time. -/
  dateGranularity : Option Int32
  deriving DecidableEq

instance : Message StringTable where
  ofRecords _ records := some ⟨(Field.contents 1 records).toArray⟩
  toRecords table := table.entries.toList.map (Field.writeBytes 1)

instance : Message InfoMessage where
  ofRecords _ records := some
    { version := Field.number? .int32 1 records
      timestamp := Field.number? .int64 2 records
      changeset := Field.number? .int64 3 records
      uid := Field.number? .int32 4 records
      userSid := Field.number? .uint32 5 records
      visible := Field.number? .bool 6 records }
  toRecords info :=
    (info.version.map (Field.writeNumber .int32 1)).toList ++
      (info.timestamp.map (Field.writeNumber .int64 2)).toList ++
      (info.changeset.map (Field.writeNumber .int64 3)).toList ++
      (info.uid.map (Field.writeNumber .int32 4)).toList ++
      (info.userSid.map (Field.writeNumber .uint32 5)).toList ++
      (info.visible.map (Field.writeNumber .bool 6)).toList

instance : Message DenseInfoMessage where
  ofRecords _ records := do
    return {
      version := ← Field.numbers .int32 1 records
      timestamp := ← Field.numbers .sint64 2 records
      changeset := ← Field.numbers .sint64 3 records
      uid := ← Field.numbers .sint32 4 records
      userSid := ← Field.numbers .sint32 5 records
      visible := ← Field.numbers .bool 6 records }
  toRecords info :=
    Field.writeNumbers .int32 1 info.version ++
      Field.writeNumbers .sint64 2 info.timestamp ++
      Field.writeNumbers .sint64 3 info.changeset ++
      Field.writeNumbers .sint32 4 info.uid ++
      Field.writeNumbers .sint32 5 info.userSid ++
      Field.writeNumbers .bool 6 info.visible

instance : Message ChangeSetMessage where
  ofRecords _ records := some ⟨(Field.number? .int64 1 records).getD 0⟩
  toRecords changes := [Field.writeNumber .int64 1 changes.id]

instance : Message NodeMessage where
  ofRecords room records := do
    return {
      id := (Field.number? .sint64 1 records).getD 0
      keys := ← Field.numbers .uint32 2 records
      vals := ← Field.numbers .uint32 3 records
      info := ← Field.message? InfoMessage 4 room records
      lat := (Field.number? .sint64 8 records).getD 0
      lon := (Field.number? .sint64 9 records).getD 0 }
  toRecords node :=
    [Field.writeNumber .sint64 1 node.id] ++
      Field.writeNumbers .uint32 2 node.keys ++
      Field.writeNumbers .uint32 3 node.vals ++
      (node.info.map (Field.writeMessage 4)).toList ++
      [Field.writeNumber .sint64 8 node.lat, Field.writeNumber .sint64 9 node.lon]

instance : Message DenseNodesMessage where
  ofRecords room records := do
    return {
      id := ← Field.numbers .sint64 1 records
      info := ← Field.message? DenseInfoMessage 5 room records
      lat := ← Field.numbers .sint64 8 records
      lon := ← Field.numbers .sint64 9 records
      keysVals := ← Field.numbers .int32 10 records }
  toRecords dense :=
    Field.writeNumbers .sint64 1 dense.id ++
      (dense.info.map (Field.writeMessage 5)).toList ++
      Field.writeNumbers .sint64 8 dense.lat ++
      Field.writeNumbers .sint64 9 dense.lon ++
      Field.writeNumbers .int32 10 dense.keysVals

instance : Message WayMessage where
  ofRecords room records := do
    return {
      id := (Field.number? .int64 1 records).getD 0
      keys := ← Field.numbers .uint32 2 records
      vals := ← Field.numbers .uint32 3 records
      info := ← Field.message? InfoMessage 4 room records
      refs := ← Field.numbers .sint64 8 records
      lat := ← Field.numbers .sint64 9 records
      lon := ← Field.numbers .sint64 10 records }
  toRecords way :=
    [Field.writeNumber .int64 1 way.id] ++
      Field.writeNumbers .uint32 2 way.keys ++
      Field.writeNumbers .uint32 3 way.vals ++
      (way.info.map (Field.writeMessage 4)).toList ++
      Field.writeNumbers .sint64 8 way.refs ++
      Field.writeNumbers .sint64 9 way.lat ++
      Field.writeNumbers .sint64 10 way.lon

instance : Message RelationMessage where
  ofRecords room records := do
    return {
      id := (Field.number? .int64 1 records).getD 0
      keys := ← Field.numbers .uint32 2 records
      vals := ← Field.numbers .uint32 3 records
      info := ← Field.message? InfoMessage 4 room records
      rolesSid := ← Field.numbers .int32 8 records
      memberIds := ← Field.numbers .sint64 9 records
      types := (← Field.numbers .int32 10 records).filterMap MemberType.ofCode? }
  toRecords relation :=
    [Field.writeNumber .int64 1 relation.id] ++
      Field.writeNumbers .uint32 2 relation.keys ++
      Field.writeNumbers .uint32 3 relation.vals ++
      (relation.info.map (Field.writeMessage 4)).toList ++
      Field.writeNumbers .int32 8 relation.rolesSid ++
      Field.writeNumbers .sint64 9 relation.memberIds ++
      Field.writeNumbers .int32 10 (relation.types.map MemberType.code)

instance : Message GroupMessage where
  ofRecords room records := do
    return {
      nodes := ← Field.messages NodeMessage 1 room records
      dense := ← Field.message? DenseNodesMessage 2 room records
      ways := ← Field.messages WayMessage 3 room records
      relations := ← Field.messages RelationMessage 4 room records
      changesets := ← Field.messages ChangeSetMessage 5 room records }
  toRecords group :=
    group.nodes.map (Field.writeMessage 1) ++
      (group.dense.map (Field.writeMessage 2)).toList ++
      group.ways.map (Field.writeMessage 3) ++
      group.relations.map (Field.writeMessage 4) ++
      group.changesets.map (Field.writeMessage 5)

instance : Message BlockMessage where
  ofRecords room records := do
    return {
      stringTable := (← Field.message? StringTable 1 room records).getD ⟨#[]⟩
      groups := ← Field.messages GroupMessage 2 room records
      granularity := Field.number? .int32 17 records
      latOffset := Field.number? .int64 19 records
      lonOffset := Field.number? .int64 20 records
      dateGranularity := Field.number? .int32 18 records }
  toRecords block :=
    [Field.writeMessage 1 block.stringTable] ++
      block.groups.map (Field.writeMessage 2) ++
      (block.granularity.map (Field.writeNumber .int32 17)).toList ++
      (block.dateGranularity.map (Field.writeNumber .int32 18)).toList ++
      (block.latOffset.map (Field.writeNumber .int64 19)).toList ++
      (block.lonOffset.map (Field.writeNumber .int64 20)).toList

end MapArchive
