import Mathlib.Algebra.Ring.Int.Defs
import MapArchive.Block.Group
import MapArchive.Proofs.Element.TagArray
import MapArchive.Proofs.RunningSum
import MapArchive.Proofs.Walk

/-!
# Nodes one by one and in columns

Nodes can be stored in two ways, as a message each or together as columns. Here both are written
down for the same nodes, and both read the same: whatever can be asked of a node has the same answer
in either way of storing, also where a look-up fails.

The walk through the columns is told from a single step. As long as the columns hold what a list of
nodes has left in them, a step gives the first of these nodes, and the columns hold what the others
have left.
-/

namespace MapArchive

/-! ## What is stored about a node -/

/-- Everything that is stored about a node. -/
structure NodeData where
  /-- The number of the node. -/
  id : Int
  /-- Latitude in units of the block. -/
  lat : Int
  /-- Longitude in units of the block. -/
  lon : Int
  /-- The tags, as indices of keys and values. -/
  tags : List (Int × Int)
  /-- The number of the version. -/
  version : Int
  /-- The time, in units of the block. -/
  timestamp : Int
  /-- The set of changes that the version belongs to. -/
  changeset : Int
  /-- The number of the user. -/
  uid : Int
  /-- The name of the user, as an index. -/
  userSid : Int
  /-- Whether the node exists. -/
  visible : Bool

/-- The numbers that signed fields of 32 bits can hold. -/
def IsInt32 (n : Int) : Prop := -2 ^ 31 ≤ n ∧ n < 2 ^ 31

/-- The numbers that signed fields of 64 bits can hold. -/
def IsInt64 (n : Int) : Prop := -2 ^ 63 ≤ n ∧ n < 2 ^ 63

/-- The numbers that unsigned fields of 32 bits can hold. -/
def IsUInt32 (n : Int) : Prop := 0 ≤ n ∧ n < 2 ^ 32

instance (n : Int) : Decidable (IsInt32 n) := inferInstanceAs (Decidable (_ ∧ _))
instance (n : Int) : Decidable (IsInt64 n) := inferInstanceAs (Decidable (_ ∧ _))
instance (n : Int) : Decidable (IsUInt32 n) := inferInstanceAs (Decidable (_ ∧ _))

/-- A number that fits 32 bits is kept by them. -/
theorem IsInt32.toInt_ofInt {n : Int} (h : IsInt32 n) : (Int32.ofInt n).toInt = n :=
  Int32.toInt_ofInt_of_le h.1 h.2

/-- A number that fits 64 bits is kept by them. -/
theorem IsInt64.toInt_ofInt {n : Int} (h : IsInt64 n) : (Int64.ofInt n).toInt = n :=
  Int64.toInt_ofInt_of_le h.1 h.2

/-- A number that fits 32 bits without a sign is kept by them. -/
theorem IsUInt32.toNat_ofInt {n : Int} (h : IsUInt32 n) : ((UInt32.ofInt n).toNat : Int) = n := by
  obtain ⟨hpos, hlt⟩ := h
  rw [UInt32.ofInt, UInt32.toNat_ofNat']
  omega

namespace NodeData

/-! ### As a message -/

/-- The message of a node. -/
def message (n : NodeData) : NodeMessage where
  id := .ofInt n.id
  keys := n.tags.map fun tag => .ofInt tag.1
  vals := n.tags.map fun tag => .ofInt tag.2
  info := some
    { version := some (.ofInt n.version)
      timestamp := some (.ofInt n.timestamp)
      changeset := some (.ofInt n.changeset)
      uid := some (.ofInt n.uid)
      userSid := some (.ofInt n.userSid)
      visible := some n.visible }
  lat := .ofInt n.lat
  lon := .ofInt n.lon

/-- The fields of a message can hold all numbers of the node. -/
structure FitsMessage (n : NodeData) : Prop where
  /-- The number. -/
  id : IsInt64 n.id
  /-- The latitude. -/
  lat : IsInt64 n.lat
  /-- The longitude. -/
  lon : IsInt64 n.lon
  /-- The indices of keys. -/
  keys : ∀ tag ∈ n.tags, IsUInt32 tag.1
  /-- The indices of values. -/
  vals : ∀ tag ∈ n.tags, IsUInt32 tag.2
  /-- The version. -/
  version : IsInt32 n.version
  /-- The time. -/
  timestamp : IsInt64 n.timestamp
  /-- The set of changes. -/
  changeset : IsInt64 n.changeset
  /-- The user. -/
  uid : IsInt32 n.uid
  /-- The index of the name. -/
  userSid : IsUInt32 n.userSid

/-! ### As columns -/

/-- What the array of all tags holds for a node. -/
def entries (n : NodeData) : List Int := flattenTags n.tags ++ [0]

/-- The node as it comes out of columns. -/
def denseNode (n : NodeData) : DenseNode where
  id := n.id
  lat := n.lat
  lon := n.lon
  keysVals := flattenTags n.tags
  info := some ⟨n.version, n.timestamp, n.changeset, n.uid, n.userSid, n.visible⟩

/-- What some nodes have left in a column of differences, the number of the one before them being
known. -/
def sumsAfter (field : NodeData → Int) (last : Int) (nodes : List NodeData) : RunningSum :=
  .ofDeltas (differences last (nodes.map field)) last

/-- A walk that stands between nodes. The node `last` was given, `passed` is what the array of tags
holds for it and those before it, and `nodes` are to come. -/
def walkAfter (last : NodeData) (passed : List Int) (nodes : List NodeData) : DenseWalk where
  id := sumsAfter NodeData.id last.id nodes
  lat := sumsAfter NodeData.lat last.lat nodes
  lon := sumsAfter NodeData.lon last.lon nodes
  keysVals := (passed ++ nodes.flatMap entries).toArray
  tagIndex := passed.length
  info := some
    { version := nodes.map NodeData.version
      timestamp := sumsAfter NodeData.timestamp last.timestamp nodes
      changeset := sumsAfter NodeData.changeset last.changeset nodes
      uid := sumsAfter NodeData.uid last.uid nodes
      userSid := sumsAfter NodeData.userSid last.userSid nodes }
  visible := nodes.map NodeData.visible

/-- A column of differences gives the number of the first node. -/
theorem next_sumsAfter (field : NodeData → Int) (last : Int) (n : NodeData)
    (nodes : List NodeData) :
    (sumsAfter field last (n :: nodes)).next =
      (some (field n), sumsAfter field (field n) nodes) := by
  have hsum : last + (field n - last) = field n := by omega
  rw [sumsAfter, List.map_cons, differences, RunningSum.next_ofDeltas, hsum, sumsAfter]

/-- A step gives the first node and leaves the others to come. -/
theorem next_walkAfter (last : NodeData) (passed : List Int) {n : NodeData}
    (nodes : List NodeData) (hkeys : ∀ tag ∈ n.tags, tag.1 ≠ 0) :
    (walkAfter last passed (n :: nodes)).next =
      (some n.denseNode, walkAfter n (passed ++ n.entries) nodes) := by
  have harray : passed ++ (n :: nodes).flatMap entries =
      passed ++ (flattenTags n.tags ++ 0 :: nodes.flatMap entries) := by
    simp [entries]
  have hafter : passed ++ n.entries ++ nodes.flatMap entries =
      passed ++ (flattenTags n.tags ++ 0 :: nodes.flatMap entries) := by
    simp [entries]
  have hlength : (passed ++ n.entries).length = passed.length + 2 * n.tags.length + 1 := by
    simp [entries]
    omega
  have hrange := tagRange_flattenTags hkeys passed (nodes.flatMap entries)
  have htags := extract_flattenTags n.tags passed (nodes.flatMap entries)
  simp only [DenseWalk.next, walkAfter, next_sumsAfter, harray, hafter, hlength, hrange, htags,
    DenseWalk.nextInfo, InfoColumns.next?, List.map_cons, denseNode]

/-- A walk that stands between nodes gives those to come. -/
theorem toList_walkAfter (last : NodeData) (passed : List Int) {nodes : List NodeData}
    (hkeys : ∀ n ∈ nodes, ∀ tag ∈ n.tags, tag.1 ≠ 0) :
    Walk.toList (walkAfter last passed nodes) = nodes.map denseNode := by
  induction nodes generalizing last passed with
  | nil => exact Walk.toList_of_none (s := walkAfter last passed []) rfl
  | cons n nodes ih =>
    have hnext := next_walkAfter last passed nodes (hkeys n List.mem_cons_self)
    rw [Walk.toList_of_some (s := walkAfter last passed (n :: nodes)) hnext,
      ih n _ fun m hm => hkeys m (List.mem_cons_of_mem n hm), List.map_cons]

/-- A column of differences from zero, as the message stores it. -/
def differences64 (field : NodeData → Int) (nodes : List NodeData) : List Int64 :=
  (differences 0 (nodes.map field)).map Int64.ofInt

/-- A shorter column of differences from zero, as the message stores it. -/
def differences32 (field : NodeData → Int) (nodes : List NodeData) : List Int32 :=
  (differences 0 (nodes.map field)).map Int32.ofInt

/-- The message that stores nodes in columns. -/
def columns (nodes : List NodeData) : DenseNodesMessage where
  id := differences64 NodeData.id nodes
  info := some
    { version := nodes.map fun n => .ofInt n.version
      timestamp := differences64 NodeData.timestamp nodes
      changeset := differences64 NodeData.changeset nodes
      uid := differences32 NodeData.uid nodes
      userSid := differences32 NodeData.userSid nodes
      visible := nodes.map NodeData.visible }
  lat := differences64 NodeData.lat nodes
  lon := differences64 NodeData.lon nodes
  keysVals := (nodes.flatMap entries).map Int32.ofInt

/-- The fields of a message of columns can hold all numbers in them: differences of consecutive
nodes, versions, and indices of tags. -/
structure FitColumns (nodes : List NodeData) : Prop where
  /-- The numbers. -/
  id : ∀ d ∈ differences 0 (nodes.map NodeData.id), IsInt64 d
  /-- The latitudes. -/
  lat : ∀ d ∈ differences 0 (nodes.map NodeData.lat), IsInt64 d
  /-- The longitudes. -/
  lon : ∀ d ∈ differences 0 (nodes.map NodeData.lon), IsInt64 d
  /-- The indices of tags. -/
  entries : ∀ entry ∈ nodes.flatMap entries, IsInt32 entry
  /-- The versions. -/
  version : ∀ version ∈ nodes.map NodeData.version, IsInt32 version
  /-- The times. -/
  timestamp : ∀ d ∈ differences 0 (nodes.map NodeData.timestamp), IsInt64 d
  /-- The sets of changes. -/
  changeset : ∀ d ∈ differences 0 (nodes.map NodeData.changeset), IsInt64 d
  /-- The users. -/
  uid : ∀ d ∈ differences 0 (nodes.map NodeData.uid), IsInt32 d
  /-- The indices of names. -/
  userSid : ∀ d ∈ differences 0 (nodes.map NodeData.userSid), IsInt32 d

/-- Numbers that fit 64 bits are kept by a column of them. -/
theorem map_toInt_ofInt64 {numbers : List Int} (h : ∀ n ∈ numbers, IsInt64 n) :
    (numbers.map Int64.ofInt).map (·.toInt) = numbers := by
  rw [List.map_map]
  exact (List.map_congr_left fun n hn => (h n hn).toInt_ofInt).trans (List.map_id numbers)

/-- Numbers that fit 32 bits are kept by a column of them. -/
theorem map_toInt_ofInt32 {numbers : List Int} (h : ∀ n ∈ numbers, IsInt32 n) :
    (numbers.map Int32.ofInt).map (·.toInt) = numbers := by
  rw [List.map_map]
  exact (List.map_congr_left fun n hn => (h n hn).toInt_ofInt).trans (List.map_id numbers)

/-- Zero in every column, as if it were a node before the first one. -/
def origin : NodeData := ⟨0, 0, 0, [], 0, 0, 0, 0, 0, true⟩

/-- The walk through the columns stands before the first node. -/
theorem walk_columns {nodes : List NodeData} (hfit : FitColumns nodes) :
    (columns nodes).walk = walkAfter origin [] nodes := by
  have hversion : (nodes.map fun n => Int32.ofInt n.version).map (·.toInt) =
      nodes.map NodeData.version := by
    rw [← map_toInt_ofInt32 hfit.version, List.map_map (f := NodeData.version)]
    rfl
  simp only [DenseNodesMessage.walk, columns, walkAfter, sumsAfter, origin, differences64,
    differences32, RunningSum.ofDeltas, Option.map_some, Option.getD_some,
    DenseInfoMessage.columns, hversion, map_toInt_ofInt64 hfit.id, map_toInt_ofInt64 hfit.lat,
    map_toInt_ofInt64 hfit.lon, map_toInt_ofInt32 hfit.entries, map_toInt_ofInt64 hfit.timestamp,
    map_toInt_ofInt64 hfit.changeset, map_toInt_ofInt32 hfit.uid, map_toInt_ofInt32 hfit.userSid,
    List.nil_append, List.length_nil]

/-- Nodes come out of columns as they were put in. -/
theorem toList_walk_columns {nodes : List NodeData} (hfit : FitColumns nodes)
    (hkeys : ∀ n ∈ nodes, ∀ tag ∈ n.tags, tag.1 ≠ 0) :
    Walk.toList (columns nodes).walk = nodes.map denseNode := by
  rw [walk_columns hfit, toList_walkAfter origin [] hkeys]

end NodeData

/-! ## What can be asked of a node -/

namespace Element

namespace Metadata

/-- The number of the version. -/
def version : Metadata → Option Int
  | .sparse info => info.version
  | .dense info => info.map DenseInfo.version

/-- The time, in units of the block. -/
def timestamp : Metadata → Option Int
  | .sparse info => info.timestamp
  | .dense info => info.map DenseInfo.timestamp

/-- The time in milliseconds since 1970. -/
def milliTimestamp (p : Parameters) : Metadata → Option Int
  | .sparse info => info.milliTimestamp p
  | .dense info => info.map (·.milliTimestamp p)

/-- The set of changes that the version belongs to. -/
def changeset : Metadata → Option Int
  | .sparse info => info.changeset
  | .dense info => info.map DenseInfo.changeset

/-- The number of the user. -/
def uid : Metadata → Option Int
  | .sparse info => info.uid
  | .dense info => info.map DenseInfo.uid

/-- The name of the user, or why there is none. -/
def user (table : StringTable) : Metadata → Option (Except ArchiveError String)
  | .sparse info => info.user table
  | .dense info => info.map (·.user table)

/-- Whether the element exists, if anything is told about its version. -/
def visible : Metadata → Option Bool
  | .sparse info => some info.visible
  | .dense info => info.map DenseInfo.visible

end Metadata

/-- The answers to all that can be asked of a node. -/
structure Reading where
  /-- The number of the node. -/
  id : Int
  /-- Latitude in nanodegrees. -/
  latNano : Option Int
  /-- Longitude in nanodegrees. -/
  lonNano : Option Int
  /-- The place in degrees. -/
  position : Option Position
  /-- The tags, as indices. -/
  rawTags : List (Int × Int)
  /-- The tags that are given before a look-up fails. -/
  tags : List (String × String)
  /-- The number of the version. -/
  version : Option Int
  /-- The time, in units of the block. -/
  timestamp : Option Int
  /-- The time in milliseconds since 1970. -/
  milliTimestamp : Option Int
  /-- The set of changes that the version belongs to. -/
  changeset : Option Int
  /-- The number of the user. -/
  uid : Option Int
  /-- The name of the user, or why there is none. -/
  user : Option (Except ArchiveError String)
  /-- Whether the node exists. -/
  visible : Option Bool

/-- The answers of an element in a block with such units and strings. -/
def reading (p : Parameters) (table : StringTable) (e : Element) : Reading where
  id := e.id
  latNano := e.coordinates?.map fun place => p.latNano place.1
  lonNano := e.coordinates?.map fun place => p.lonNano place.2
  position := e.coordinates?.map fun place => p.position place.1 place.2
  rawTags := e.rawTags
  tags := Walk.toList (e.tags table)
  version := e.metadata.version
  timestamp := e.metadata.timestamp
  milliTimestamp := e.metadata.milliTimestamp p
  changeset := e.metadata.changeset
  uid := e.metadata.uid
  user := e.metadata.user table
  visible := e.metadata.visible

end Element

namespace NodeData

/-- The answers that what is stored about a node amounts to. -/
def reading (p : Parameters) (table : StringTable) (n : NodeData) : Element.Reading where
  id := n.id
  latNano := some (p.latOffset + p.granularity * n.lat)
  lonNano := some (p.lonOffset + p.granularity * n.lon)
  position := some
    { lat := degreesOfNano (p.latOffset + p.granularity * n.lat)
      lon := degreesOfNano (p.lonOffset + p.granularity * n.lon) }
  rawTags := n.tags
  tags := Walk.toList (TagWalk.mk table n.tags)
  version := some n.version
  timestamp := some n.timestamp
  milliTimestamp := some (n.timestamp * p.dateGranularity)
  changeset := some n.changeset
  uid := some n.uid
  user := some (table.resolve n.userSid)
  visible := some n.visible

/-- The tags of a message are those of the node. -/
theorem zipTags_message {n : NodeData} (hfit : n.FitsMessage) :
    zipTags n.message.keys n.message.vals = n.tags := by
  have hkeys : n.message.keys.map (fun k => (k.toNat : Int)) = n.tags.map Prod.fst := by
    rw [message, List.map_map]
    exact List.map_congr_left fun tag htag => (hfit.keys tag htag).toNat_ofInt
  have hvals : n.message.vals.map (fun v => (v.toNat : Int)) = n.tags.map Prod.snd := by
    rw [message, List.map_map]
    exact List.map_congr_left fun tag htag => (hfit.vals tag htag).toNat_ofInt
  rw [zipTags, hkeys, hvals, ← List.unzip_fst, ← List.unzip_snd, List.zip_unzip]

/-- The message of a node answers with what is stored about it. -/
theorem reading_message (p : Parameters) (table : StringTable) {n : NodeData}
    (hfit : n.FitsMessage) : (Element.node n.message).reading p table = n.reading p table := by
  have hid : (Element.node n.message).id = n.id := hfit.id.toInt_ofInt
  have hplace : (Element.node n.message).coordinates? = some (n.lat, n.lon) := by
    rw [Element.coordinates?, message, hfit.lat.toInt_ofInt, hfit.lon.toInt_ofInt]
  have htags : (Element.node n.message).rawTags = n.tags := zipTags_message hfit
  have hmetadata : (Element.node n.message).metadata =
      .sparse ⟨some n.version, some n.timestamp, some n.changeset, some n.uid, some n.userSid,
        n.visible⟩ := by
    simp only [Element.metadata, message, Info.ofMessage?, Option.map_some, Option.getD_some,
      hfit.version.toInt_ofInt, hfit.timestamp.toInt_ofInt, hfit.changeset.toInt_ofInt,
      hfit.uid.toInt_ofInt, hfit.userSid.toNat_ofInt]
  simp only [Element.reading, Element.tags, hid, hplace, htags, hmetadata]
  rfl

/-- A node that comes out of columns answers with what is stored about it. -/
theorem reading_denseNode (p : Parameters) (table : StringTable) (n : NodeData) :
    (Element.denseNode n.denseNode).reading p table = n.reading p table := by
  have htags : (Element.denseNode n.denseNode).rawTags = n.tags := pairsOf_flattenTags n.tags
  simp only [Element.reading, Element.tags, htags]
  rfl

/-- Nodes one by one and the same nodes in columns read alike. Let one group hold a message for each
of some nodes, and another one the columns made of them: differences of consecutive numbers from
zero, versions and visibilities as they are, and for each node its keys and values in turn and a
zero. If no key is zero and the fields can hold all numbers, the nodes of both groups are as many as
there were, and each of them gives the same answers in either group, whatever the units and the
string table of the block are: number, place, tags, and all data about its version, with the failure
of a look-up among them. These are the answers of the node itself. -/
theorem storages_read_alike (p : Parameters) (table : StringTable) {nodes : List NodeData}
    (hkeys : ∀ n ∈ nodes, ∀ tag ∈ n.tags, tag.1 ≠ 0) (hmessages : ∀ n ∈ nodes, n.FitsMessage)
    (hcolumns : FitColumns nodes) :
    let single : GroupMessage := ⟨nodes.map message, none, [], [], []⟩
    let dense : GroupMessage := ⟨[], some (columns nodes), [], [], []⟩
    let fromMessages := single.nodes.map Element.node
    let fromColumns := (Walk.toList dense.denseNodes).map Element.denseNode
    fromColumns.length = fromMessages.length ∧
      fromColumns.map (Element.reading p table) = fromMessages.map (Element.reading p table) ∧
      fromMessages.map (Element.reading p table) = nodes.map (reading p table) := by
  intro single dense fromMessages fromColumns
  have hdense : fromColumns = nodes.map fun n => Element.denseNode n.denseNode := by
    have hwalk : Walk.toList dense.denseNodes = nodes.map denseNode :=
      toList_walk_columns hcolumns hkeys
    rw [show fromColumns = (Walk.toList dense.denseNodes).map Element.denseNode from rfl, hwalk,
      List.map_map]
    rfl
  have hsingle : fromMessages = nodes.map fun n => Element.node n.message := List.map_map
  have hreadDense : fromColumns.map (Element.reading p table) = nodes.map (reading p table) := by
    rw [hdense, List.map_map]
    exact List.map_congr_left fun n _ => reading_denseNode p table n
  have hreadSingle : fromMessages.map (Element.reading p table) = nodes.map (reading p table) := by
    rw [hsingle, List.map_map]
    exact List.map_congr_left fun n hn => reading_message p table (hmessages n hn)
  refine ⟨?_, hreadDense.trans hreadSingle.symm, hreadSingle⟩
  rw [hdense, hsingle, List.length_map, List.length_map]

/-- Nodes with numbers near the ends of their fields, a tag whose value has the index zero, one that
cannot be looked up, and names of users inside and outside of a table of three. -/
def extremeNodes : List NodeData :=
  [⟨-2 ^ 63, 2 ^ 62, -2 ^ 62, [(1, 0), (9, 2), (1, 2)], -2 ^ 31, 2 ^ 62, -1, 2 ^ 30, 2, false⟩,
    ⟨-1, 0, 0, [], 0, -1, 2 ^ 62, -2 ^ 30, 2 ^ 31 - 1, true⟩,
    ⟨2 ^ 62, -2 ^ 63, 1, [(2, 1)], 2 ^ 31 - 1, -2 ^ 62, 5, 7, 2 ^ 32 - 2, true⟩]

/-- These nodes read alike in the two ways of storing, and their look-ups fail alike. -/
theorem extreme_nodes_read_alike :
    let read := Element.reading ⟨100, -7, 2 ^ 63 - 1, 1000⟩ (.ofTexts ["", "highway", "primary"])
    let fromColumns := (Walk.toList (columns extremeNodes).walk).map fun n => read (.denseNode n)
    fromColumns = extremeNodes.map (fun n => read (.node n.message)) ∧
      fromColumns.map (fun r => (r.rawTags, r.tags)) =
        [([(1, 0), (9, 2), (1, 2)], [("highway", "")]), ([], []),
          ([(2, 1)], [("primary", "highway")])] ∧
      fromColumns.map (·.user) =
        [some (.ok "primary"), some (.error (.indexOutOfBounds 2147483647)),
          some (.error (.indexOutOfBounds 4294967294))] := by
  intro read fromColumns
  have hmessages : ∀ n ∈ extremeNodes, n.FitsMessage := by
    intro n hn
    constructor <;> revert n <;> decide
  have hkeys : ∀ n ∈ extremeNodes, ∀ tag ∈ n.tags, tag.1 ≠ 0 := by decide
  obtain ⟨-, halike, hdata⟩ := storages_read_alike ⟨100, -7, 2 ^ 63 - 1, 1000⟩
    (.ofTexts ["", "highway", "primary"]) hkeys hmessages (by constructor <;> decide)
  have hcolumns : fromColumns = extremeNodes.map (reading ⟨100, -7, 2 ^ 63 - 1, 1000⟩
      (.ofTexts ["", "highway", "primary"])) := by
    rw [← hdata, ← halike, List.map_map]
    rfl
  refine ⟨?_, ?_, ?_⟩
  · rw [hcolumns, ← hdata, List.map_map, List.map_map]
    rfl
  · rw [hcolumns, List.map_map]
    decide +kernel
  · rw [hcolumns, List.map_map]
    rfl

end NodeData

end MapArchive
