import MapArchive.Element.Dense
import MapArchive.Element.Members

/-!
# Elements

An element of a block is a node, stored plainly or densely, a way or a relation. What it says is
understood through its block: the string table gives its texts, the parameters its coordinates and
times. All functions here are total, whatever the columns of an element are like.
-/

namespace MapArchive

/-- An element of a block. -/
inductive Element where
  /-- A node that was stored in columns. -/
  | denseNode (node : DenseNode)
  /-- A node. -/
  | node (node : NodeMessage)
  /-- A way. -/
  | way (way : WayMessage)
  /-- A relation. -/
  | relation (relation : RelationMessage)

/-- The pairs of indices in two columns. Entries of the longer one that have no partner are passed
over. -/
def zipTags (keys vals : List UInt32) : List (Int × Int) :=
  (keys.map fun k => (k.toNat : Int)).zip (vals.map fun v => (v.toNat : Int))

namespace WayMessage

/-- Walks through the numbers of the nodes of a way. -/
def nodeIds (way : WayMessage) : RunningSum := .ofDeltas (way.refs.map (·.toInt)) 0

/-- The places of the nodes of a way, if the file has them. -/
def nodePositions (way : WayMessage) (p : Parameters) : List Position :=
  ((sums 0 (way.lat.map (·.toInt))).zip (sums 0 (way.lon.map (·.toInt)))).map
    fun (lat, lon) => p.position lat lon

end WayMessage

namespace Element

/-- The number of an element. -/
def id : Element → Int
  | .denseNode n => n.id
  | .node n => n.id.toInt
  | .way w => w.id.toInt
  | .relation r => r.id.toInt

/-- The indices of the tags of an element. -/
def rawTags : Element → List (Int × Int)
  | .denseNode n => n.rawTags
  | .node n => zipTags n.keys n.vals
  | .way w => zipTags w.keys w.vals
  | .relation r => zipTags r.keys r.vals

/-- Walks through the tags of an element. -/
def tags (table : StringTable) (e : Element) : TagWalk := ⟨table, e.rawTags⟩

/-- Data about the version of an element. -/
inductive Metadata where
  /-- Each of the data may be absent. -/
  | sparse (info : Info)
  /-- All of the data are present, or all are absent. -/
  | dense (info : Option DenseInfo)
  deriving DecidableEq, Repr

/-- Data about the version of an element. -/
def metadata : Element → Metadata
  | .denseNode n => .dense n.info
  | .node n => .sparse (.ofMessage? n.info)
  | .way w => .sparse (.ofMessage? w.info)
  | .relation r => .sparse (.ofMessage? r.info)

/-- The stored coordinates of an element, latitude first, if it is a node. -/
def coordinates? : Element → Option (Int × Int)
  | .denseNode n => some (n.lat, n.lon)
  | .node n => some (n.lat.toInt, n.lon.toInt)
  | .way _ | .relation _ => none

end Element

end MapArchive
