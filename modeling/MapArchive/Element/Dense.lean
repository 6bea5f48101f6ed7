import MapArchive.Element.Info
import MapArchive.Element.Tags
import MapArchive.RunningSum

/-!
# Dense nodes

Nodes may be stored as columns: differences of numbers, latitudes and longitudes, and if wanted
columns of data about their versions. The walk takes one entry of each column at a time and ends as
soon as numbers, latitudes or longitudes have run out. The data about versions end earlier if one of
their columns does, and no later node has any then.

The tags of all nodes stand in a single array. Those of one node are pairs of indices up to a zero
where a key would stand; `tagRange` finds that place. At the end of the array a key without a value
is passed over.
-/

namespace MapArchive

/-- A node that was stored in columns. -/
structure DenseNode where
  /-- The number of the node. -/
  id : Int
  /-- Latitude in units of the block. -/
  lat : Int
  /-- Longitude in units of the block. -/
  lon : Int
  /-- The indices of its tags, keys and values in turn. -/
  keysVals : List Int
  /-- Data about its version. -/
  info : Option DenseInfo

/-- The indices of the tags of a dense node. -/
def DenseNode.rawTags (node : DenseNode) : List (Int × Int) := pairsOf node.keysVals

/-- The place where the tags that start at `i` end: the first zero among the keys, or where no pair
is left. -/
def tagsEnd (keysVals : Array Int) (i : Nat) : Nat :=
  if h : i + 1 < keysVals.size then
    if keysVals[i] = 0 then i else tagsEnd keysVals (i + 2)
  else i
termination_by keysVals.size - i
decreasing_by omega

/-- Where the tags of one node stand, and where those of the next one start. -/
structure TagRange where
  /-- Index of the first key. -/
  first : Nat
  /-- Index after the last value. -/
  stop : Nat
  /-- Index of the first key of the next node. -/
  next : Nat
  deriving DecidableEq, Repr

/-- The tags that start at `i`. One entry after them is passed over, if there is one. -/
def tagRange (keysVals : Array Int) (i : Nat) : TagRange :=
  let stop := tagsEnd keysVals i
  ⟨i, stop, min (stop + 1) keysVals.size⟩

/-- Columns of data about versions. -/
structure InfoColumns where
  /-- The numbers of the versions to come. -/
  version : List Int
  /-- The times to come. -/
  timestamp : RunningSum
  /-- The sets of changes to come. -/
  changeset : RunningSum
  /-- The numbers of users to come. -/
  uid : RunningSum
  /-- The indices of names to come. -/
  userSid : RunningSum

/-- Takes an entry of each column, if none has run out. Visibility is not among the columns. -/
def InfoColumns.next? (c : InfoColumns) : Option ((Bool → DenseInfo) × InfoColumns) :=
  match c.version, c.timestamp.next, c.changeset.next, c.uid.next, c.userSid.next with
  | v :: version, (some t, timestamp), (some ch, changeset), (some u, uid), (some s, userSid) =>
    some (DenseInfo.mk v t ch u s, ⟨version, timestamp, changeset, uid, userSid⟩)
  | _, _, _, _, _ => none

/-- Dense nodes that are being walked through. -/
structure DenseWalk where
  /-- The numbers to come. -/
  id : RunningSum
  /-- The latitudes to come. -/
  lat : RunningSum
  /-- The longitudes to come. -/
  lon : RunningSum
  /-- The tags of all nodes. -/
  keysVals : Array Int
  /-- Where the tags of the next node start. -/
  tagIndex : Nat
  /-- The data about versions to come. -/
  info : Option InfoColumns
  /-- The visibilities to come. -/
  visible : List Bool

namespace DenseWalk

/-- No nodes at all. -/
def empty : DenseWalk := ⟨.ofDeltas [] 0, .ofDeltas [] 0, .ofDeltas [] 0, #[], 0, none, []⟩

/-- Takes the data about the version of the next node, and the columns and visibilities left. -/
def nextInfo (info : Option InfoColumns) (visible : List Bool) :
    Option DenseInfo × Option InfoColumns × List Bool :=
  match info with
  | none => (none, none, visible)
  | some columns =>
    match columns.next? with
    | none => (none, none, visible)
    | some (ofVisible, rest) =>
      match visible with
      | [] => (some (ofVisible true), some rest, [])
      | v :: later => (some (ofVisible v), some rest, later)

/-- Gives the next node. -/
def next (w : DenseWalk) : Option DenseNode × DenseWalk :=
  match w.id.next, w.lat.next, w.lon.next with
  | (some id, ids), (some lat, lats), (some lon, lons) =>
    let range := tagRange w.keysVals w.tagIndex
    let keysVals := (w.keysVals.extract range.first range.stop).toList
    let (info, columns, visible) := nextInfo w.info w.visible
    (some ⟨id, lat, lon, keysVals, info⟩,
      ⟨ids, lats, lons, w.keysVals, range.next, columns, visible⟩)
  | _, _, _ => (none, w)

/-- An upper bound for the number of nodes to come. -/
def bound (w : DenseWalk) : Nat := w.id.deltas.length

/-- Every node that is given lowers the bound. -/
theorem bound_next {s t : DenseWalk} {a : DenseNode} (h : s.next = (some a, t)) :
    t.bound < s.bound := by
  unfold next at h
  split at h
  case h_1 id ids lat lats lon lons hid hlat hlon =>
    cases h
    exact Walk.bound_next (σ := RunningSum) hid
  case h_2 => cases h

instance : Walk DenseWalk DenseNode := ⟨next, bound, bound_next⟩

end DenseWalk

/-- The columns of data about versions. -/
def DenseInfoMessage.columns (info : DenseInfoMessage) : InfoColumns where
  version := info.version.map (·.toInt)
  timestamp := .ofDeltas (info.timestamp.map (·.toInt)) 0
  changeset := .ofDeltas (info.changeset.map (·.toInt)) 0
  uid := .ofDeltas (info.uid.map (·.toInt)) 0
  userSid := .ofDeltas (info.userSid.map (·.toInt)) 0

/-- Walks through the nodes of a message. -/
def DenseNodesMessage.walk (dense : DenseNodesMessage) : DenseWalk where
  id := .ofDeltas (dense.id.map (·.toInt)) 0
  lat := .ofDeltas (dense.lat.map (·.toInt)) 0
  lon := .ofDeltas (dense.lon.map (·.toInt)) 0
  keysVals := (dense.keysVals.map (·.toInt)).toArray
  tagIndex := 0
  info := dense.info.map DenseInfoMessage.columns
  visible := (dense.info.map DenseInfoMessage.visible).getD []

/-- How many nodes a message holds: the length of its shortest column that matters. -/
def DenseNodesMessage.count (dense : DenseNodesMessage) : Nat :=
  min dense.id.length (min dense.lat.length dense.lon.length)

end MapArchive
