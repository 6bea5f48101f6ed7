import MapArchive.Element.Basic

/-!
# Groups of elements

A block holds its elements in groups. Each group gives its dense nodes first, then nodes, ways and
relations; `BlockMessage.elements` is the sequence of all elements in this order.
-/

namespace MapArchive

namespace GroupMessage

/-- Walks through the dense nodes of a group. -/
def denseNodes (group : GroupMessage) : DenseWalk :=
  match group.dense with
  | none => .empty
  | some dense => dense.walk

/-- The elements of a group. -/
def elements (group : GroupMessage) : List Element :=
  (Walk.toList group.denseNodes).map .denseNode ++ group.nodes.map .node ++
    group.ways.map .way ++ group.relations.map .relation

/-- Carries out an action for each element of a group. -/
def forEachElement {m : Type → Type} [Monad m] (group : GroupMessage) (act : Element → m Unit) :
    m Unit := do
  Walk.forEach group.denseNodes fun n => act (.denseNode n)
  Walk.forEach group.nodes fun n => act (.node n)
  Walk.forEach group.ways fun w => act (.way w)
  Walk.forEach group.relations fun r => act (.relation r)

/-- How many elements a group has. -/
def count (group : GroupMessage) : Nat :=
  (group.dense.map DenseNodesMessage.count).getD 0 + group.nodes.length + group.ways.length +
    group.relations.length

end GroupMessage

namespace BlockMessage

/-- The elements of a block, group by group. -/
def elements (block : BlockMessage) : List Element := block.groups.flatMap GroupMessage.elements

/-- Carries out an action for each element of a block. -/
def forEachElement {m : Type → Type} [Monad m] (block : BlockMessage) (act : Element → m Unit) :
    m Unit :=
  Walk.forEach block.groups fun g => g.forEachElement act

/-- The text with an index. -/
def string (block : BlockMessage) (index : Int) : Except ArchiveError String :=
  block.stringTable.resolve index

end BlockMessage

end MapArchive
