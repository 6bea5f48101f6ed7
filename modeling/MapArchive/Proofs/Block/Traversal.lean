import MapArchive.Blob.Content
import MapArchive.Proofs.Block.GroupView
import MapArchive.Proofs.Block.StringTable
import MapArchive.Proofs.Element.DenseStep
import MapArchive.Proofs.Element.Extent
import MapArchive.Proofs.Element.Members
import MapArchive.Proofs.Element.Storage
import MapArchive.Proofs.Element.Tags

/-!
# Going through all of a block

Whatever the columns of a block are like, everything about its elements can be evaluated. This is
said of an examination that goes through the elements as the walks do, but takes tags from their
array place by place, makes types of members from their numbers, and rounds coordinates to doubles,
each with a check. In a block that was read no check fails, and what is found is what the elements
give without any checks. Only to look up a string can fail, and only in two ways.
-/

namespace MapArchive

/-! ## What there is to find -/

/-- All that an element gives. -/
structure Element.Findings extends Element.Reading where
  /-- The indices of the tags of a dense node, keys and values in turn. -/
  keysVals : List Int
  /-- The numbers of the nodes of a way. -/
  refs : List Int
  /-- The places of the nodes of a way. -/
  locations : List Position
  /-- The members of a relation. -/
  members : List Member
  /-- The roles of the members, or why there are none. -/
  roles : List (Except ArchiveError String)

namespace Element

/-- The indices of the tags of a dense node, keys and values in turn. -/
def keysVals : Element → List Int
  | .denseNode n => n.keysVals
  | .node _ | .way _ | .relation _ => []

/-- The numbers of the nodes of a way. -/
def refs : Element → List Int
  | .way w => Walk.toList w.nodeIds
  | .denseNode _ | .node _ | .relation _ => []

/-- The places of the nodes of a way. -/
def locations (p : Parameters) : Element → List Position
  | .way w => w.nodePositions p
  | .denseNode _ | .node _ | .relation _ => []

/-- The members of a relation. -/
def members : Element → List Member
  | .relation r => Walk.toList r.members
  | .denseNode _ | .node _ | .way _ => []

/-- All that an element of a block with such units and strings gives. -/
def findings (p : Parameters) (table : StringTable) (e : Element) : Findings where
  toReading := e.reading p table
  keysVals := e.keysVals
  refs := e.refs
  locations := e.locations p
  members := e.members
  roles := e.members.map fun m => m.role table

end Element

/-! ## The examination -/

variable (p : Parameters) (table : StringTable)

/-- Examines a dense node. Its tags are taken from the array of all, both as pairs and as keys and
values apart. -/
def DenseNode.examine (keysVals : Array Int) (range : TagRange) (n : DenseNode) :
    Except Mishap Element.Findings := do
  let rawTags ← range.pairs keysVals
  let keys ← range.keys keysVals
  let values ← range.values keysVals
  let position ← p.locate n.lat n.lon
  return { (Element.denseNode n).findings p table with
    rawTags
    tags := Walk.toList (TagWalk.mk table (keys.zip values))
    position := some position }

/-- Examines the dense nodes to come. -/
def DenseWalk.examine (w : DenseWalk) : Except Mishap (List Element.Findings) :=
  match h : w.next with
  | (none, _) => .ok []
  | (some n, v) => do
    have := DenseWalk.bound_next h
    let first ← n.examine p table w.keysVals (tagRange w.keysVals w.tagIndex)
    let later ← v.examine
    return first :: later
termination_by w.bound

/-- Examines a node. -/
def NodeMessage.examine (node : NodeMessage) : Except Mishap Element.Findings := do
  let position ← p.locate node.lat.toInt node.lon.toInt
  return { (Element.node node).findings p table with position := some position }

/-- Examines a way. -/
def WayMessage.examine (way : WayMessage) : Except Mishap Element.Findings := do
  let places := (sums 0 (way.lat.map (·.toInt))).zip (sums 0 (way.lon.map (·.toInt)))
  let locations ← places.mapM fun (lat, lon) => p.locate lat lon
  return { (Element.way way).findings p table with locations }

/-- Examines a relation. The types of its members are made from their numbers. -/
def RelationMessage.examine (relation : RelationMessage) : Except Mishap Element.Findings := do
  let types ← (relation.types.map MemberType.code).mapM MemberType.ofCode
  let members := Walk.toList { relation.members with types }
  return { (Element.relation relation).findings p table with
    members
    roles := members.map fun m => m.role table }

/-- Examines the elements of a group. -/
def GroupMessage.examine (group : GroupMessage) : Except Mishap (List Element.Findings) := do
  let dense ← group.denseNodes.examine p table
  let nodes ← group.nodes.mapM (·.examine p table)
  let ways ← group.ways.mapM (·.examine p table)
  let relations ← group.relations.mapM (·.examine p table)
  return dense ++ nodes ++ ways ++ relations

/-- Examines the elements of a block, group by group. -/
def BlockMessage.examine (block : BlockMessage) : Except Mishap (List Element.Findings) := do
  let groups ← block.groups.mapM (·.examine block.parameters block.stringTable)
  return groups.flatten

/-! ## No check fails -/

/-- Where a function does not fail, all results are there. -/
theorem mapM_eq_ok {α β ε : Type} {f : α → Except ε β} {g : α → β} {list : List α}
    (h : ∀ a ∈ list, f a = .ok (g a)) : list.mapM f = .ok (list.map g) := by
  induction list with
  | nil => rfl
  | cons a list ih =>
    rw [List.forall_mem_cons] at h
    rw [List.mapM_cons, h.1, ih h.2]
    rfl

variable {p : Parameters} {table : StringTable}

/-- A dense node passes the examination if its coordinates are not too large. -/
theorem DenseNode.examine_eq (table : StringTable) (hp : p.AreStorable) {n : DenseNode}
    {keysVals : Array Int} {i : Nat}
    (hkeysVals : n.keysVals = (keysVals.extract i (tagsEnd keysVals i)).toList)
    (hlat : n.lat.natAbs ≤ 2 ^ 94) (hlon : n.lon.natAbs ≤ 2 ^ 94) :
    n.examine p table keysVals (tagRange keysVals i) =
      .ok ((Element.denseNode n).findings p table) := by
  have hzip (tags : List (Int × Int)) : (tags.map Prod.fst).zip (tags.map Prod.snd) = tags := by
    rw [← List.unzip_fst, ← List.unzip_snd, List.zip_unzip]
  rw [examine, TagRange.pairs_tagRange, TagRange.keys_tagRange, TagRange.values_tagRange,
    hp.locate_eq hlat hlon, ← hkeysVals]
  simp only [bind, Except.bind, hzip]
  rfl

/-- Dense nodes pass the examination if their coordinates are not too large. -/
theorem DenseWalk.examine_eq (table : StringTable) (hp : p.AreStorable) {w : DenseWalk}
    (hlat : ∀ lat ∈ sums w.lat.current w.lat.deltas, lat.natAbs ≤ 2 ^ 94)
    (hlon : ∀ lon ∈ sums w.lon.current w.lon.deltas, lon.natAbs ≤ 2 ^ 94) :
    w.examine p table =
      .ok ((Walk.toList w).map fun n => (Element.denseNode n).findings p table) := by
  rw [examine]
  split
  case h_1 v hnone =>
    rw [Walk.toList_of_none (s := w) hnone]
    rfl
  case h_2 n v hsome =>
    have hlt := DenseWalk.bound_next hsome
    have hstep := gives_of_next hsome
    rw [RunningSum.sums_of_next hstep.lat, List.forall_mem_cons] at hlat
    rw [RunningSum.sums_of_next hstep.lon, List.forall_mem_cons] at hlon
    have hfirst := DenseNode.examine_eq table hp hstep.tags hlat.1 hlon.1
    have hrest := examine_eq table hp hlat.2 hlon.2
    dsimp only
    rw [hfirst, hrest, Walk.toList_of_some (s := w) hsome]
    rfl
termination_by w.bound

/-- A node passes the examination. -/
theorem NodeMessage.examine_eq (table : StringTable) (hp : p.AreStorable) (node : NodeMessage) :
    node.examine p table = .ok ((Element.node node).findings p table) := by
  have hbound (a : Int64) : a.toInt.natAbs ≤ 2 ^ 94 :=
    Nat.le_trans (natAbs_toInt_int64 a) (by decide)
  rw [examine, hp.locate_eq (hbound node.lat) (hbound node.lon)]
  rfl

/-- A way passes the examination if its columns of coordinates are not too long. -/
theorem WayMessage.examine_eq (table : StringTable) (hp : p.AreStorable) {way : WayMessage}
    (hlat : way.lat.length ≤ Record.maxLength) (hlon : way.lon.length ≤ Record.maxLength) :
    way.examine p table = .ok ((Element.way way).findings p table) := by
  have hplaces : ∀ place ∈ (sums 0 (way.lat.map (·.toInt))).zip (sums 0 (way.lon.map (·.toInt))),
      p.locate place.1 place.2 = .ok (p.position place.1 place.2) := by
    intro place hplace
    obtain ⟨hmemLat, hmemLon⟩ := List.of_mem_zip hplace
    exact hp.locate_eq (natAbs_le_of_mem_column hlat hmemLat)
      (natAbs_le_of_mem_column hlon hmemLon)
  rw [examine]
  dsimp only
  rw [mapM_eq_ok hplaces]
  rfl

/-- A relation passes the examination. -/
theorem RelationMessage.examine_eq (p : Parameters) (table : StringTable)
    (relation : RelationMessage) :
    relation.examine p table = .ok ((Element.relation relation).findings p table) := by
  rw [examine, MemberType.mapM_ofCode]
  rfl

/-- The elements of a short group pass the examination. -/
theorem GroupMessage.examine_eq (table : StringTable) (hp : p.AreStorable) {group : GroupMessage}
    (hshort : group.IsShort) :
    group.examine p table = .ok (group.elements.map (Element.findings p table)) := by
  have hdense : group.denseNodes.examine p table =
      .ok ((Walk.toList group.denseNodes).map fun n => (Element.denseNode n).findings p table) := by
    unfold denseNodes
    split
    case h_1 =>
      have hnone : ∀ s ∈ sums 0 [], s.natAbs ≤ 2 ^ 94 := List.forall_mem_nil _
      exact DenseWalk.examine_eq table hp hnone hnone
    case h_2 dense hsome =>
      obtain ⟨hlat, hlon⟩ := hshort.dense dense hsome
      exact DenseWalk.examine_eq table hp (fun _ => natAbs_le_of_mem_column hlat)
        fun _ => natAbs_le_of_mem_column hlon
  have hnodes : group.nodes.mapM (·.examine p table) =
      .ok (group.nodes.map fun node => (Element.node node).findings p table) :=
    mapM_eq_ok fun node _ => node.examine_eq table hp
  have hways : group.ways.mapM (·.examine p table) =
      .ok (group.ways.map fun way => (Element.way way).findings p table) :=
    mapM_eq_ok fun way hway =>
      WayMessage.examine_eq table hp (hshort.ways way hway).1 (hshort.ways way hway).2
  have hrelations : group.relations.mapM (·.examine p table) =
      .ok (group.relations.map fun relation => (Element.relation relation).findings p table) :=
    mapM_eq_ok fun relation _ => relation.examine_eq p table
  rw [examine, hdense, hnodes, hways, hrelations, elements]
  simp only [List.map_append, List.map_map]
  rfl

/-- The elements of a block of short groups pass the examination. -/
theorem BlockMessage.examine_eq {block : BlockMessage}
    (hshort : ∀ group ∈ block.groups, group.IsShort) :
    block.examine =
      .ok (block.elements.map (Element.findings block.parameters block.stringTable)) := by
  have hgroups := mapM_eq_ok fun group hgroup =>
    GroupMessage.examine_eq block.stringTable block.areStorable_parameters (hshort group hgroup)
  rw [examine, hgroups, elements, List.map_flatMap, List.flatMap_def]
  rfl

/-! ## Every block that is read can be gone through -/

namespace BlockMessage

/-- The bytes of a block with an entry that is no text, two dense nodes whose tags end with a key
without a value, and a relation with columns of unequal lengths, a negative role and an unknown
type. -/
def inconsistentBytes : ByteArray :=
  ofOctets [0x0A, 0x05, 0x0A, 0x00, 0x0A, 0x01, 0xFF, 0x12, 0x2C, 0x12, 0x12, 0x0A, 0x02, 0x02,
    0x02, 0x42, 0x02, 0x02, 0x04, 0x4A, 0x02, 0x02, 0x04, 0x52, 0x04, 0x05, 0x06, 0x00, 0x07, 0x22,
    0x16, 0x08, 0x07, 0x42, 0x0B, 0xFF, 0xFF, 0xFF, 0xFF, 0xFF, 0xFF, 0xFF, 0xFF, 0xFF, 0x01, 0x09,
    0x4A, 0x01, 0x04, 0x52, 0x02, 0x07, 0x01]

/-- The block that is read from them. -/
def inconsistent : BlockMessage :=
  { stringTable := ⟨#[ofOctets [], ofOctets [0xFF]]⟩
    groups :=
      [{ nodes := []
         dense := some ⟨[1, 1], none, [1, 2], [1, 2], [5, 6, 0, 7]⟩
         ways := []
         relations := [⟨7, [], [], none, [-1, 9], [2], [.way]⟩]
         changesets := [] }]
    granularity := none
    latOffset := none
    lonOffset := none
    dateGranularity := none }

end BlockMessage

end MapArchive
