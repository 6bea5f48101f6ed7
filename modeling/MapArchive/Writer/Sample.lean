import MapArchive.Block.StringTable
import MapArchive.Writer.Frame

/-!
# A small file

A file with one element of each kind, for trying things out. It has three dense nodes and a node,
a way through the dense nodes, and a relation of the way and a node.
-/

namespace MapArchive.Sample

/-- The strings that the elements refer to. -/
def strings : List String :=
  ["", "highway", "primary", "name", "Main Street", "type", "restriction", "from", "via", "to",
    "ref", "1", "alice"]

/-- A block of some groups. -/
def block (groups : List GroupMessage) (table : StringTable) : BlockMessage :=
  ⟨table, groups, none, none, none, none⟩

/-- The dense nodes 1 (`ref=1`), 2 (without tags) and 3 (`name=Main Street`, `highway=primary`). -/
def dense : DenseNodesMessage where
  id := [1, 1, 1]
  info := some
    { version := [1, 2, 3]
      timestamp := [1700000000, 10, 10]
      changeset := [5, 1, 1]
      uid := [42, 0, 0]
      userSid := [12, 0, 0]
      visible := [] }
  lat := [520000000, 100, 100]
  lon := [210000000, -100, -100]
  keysVals := [10, 11, 0, 0, 3, 4, 1, 2, 0]

/-- The node -1, without tags. -/
def node : NodeMessage := ⟨-1, [], [], none, 520001000, 210001000⟩

/-- The way 100 through the nodes 1, 2 and 3 (`highway=primary`). -/
def way : WayMessage := ⟨100, [1], [2], none, [1, 1, 1], [], []⟩

/-- The relation 200 of the way 100 (`from`), the node 2 (`via`) and the way 100 (`to`), with the
tag `type=restriction`. -/
def relation : RelationMessage where
  id := 200
  keys := [5]
  vals := [6]
  info := none
  rolesSid := [7, 8, 9]
  memberIds := [100, -98, 98]
  types := [.way, .node, .way]

/-- A group with nothing in it. -/
def emptyGroup : GroupMessage := ⟨[], none, [], [], []⟩

/-- The first block has a group each for the dense nodes, the node and the way, the second one has
the relation. -/
def blocks : List BlockMessage :=
  let table := StringTable.ofTexts strings
  [{ block [{ emptyGroup with dense := some dense }, { emptyGroup with nodes := [node] },
        { emptyGroup with ways := [way] }] table with granularity := some 1 },
    block [{ emptyGroup with relations := [relation] }] table]

/-- The file. -/
def file (packing : Packing) : ByteArray :=
  writeFile usualFeatures packing (blocks.map (·, packing))

end MapArchive.Sample
