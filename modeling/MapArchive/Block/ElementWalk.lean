import MapArchive.Block.Group

/-!
# Walking through the elements of a block

An `ElementWalk` gives the elements of a block one by one. It stands in one of five phases: before
a group, or among the dense nodes, nodes, ways or relations of one. `step` gives an element or goes
on to the next phase; as every change of phase uses up part of a finite supply, looking for an
element ends however many groups are empty.
-/

namespace MapArchive

/-- Where a walk through a block stands. -/
inductive Phase where
  /-- Before the next group. -/
  | group
  /-- Among the dense nodes of a group. -/
  | denseNodes
  /-- Among the nodes of a group. -/
  | nodes
  /-- Among the ways of a group. -/
  | ways
  /-- Among the relations of a group. -/
  | relations
  deriving DecidableEq, Repr

/-- How many phases of a group are still ahead. -/
def Phase.ahead : Phase → Nat
  | .group => 0
  | .denseNodes => 4
  | .nodes => 3
  | .ways => 2
  | .relations => 1

/-- Elements of a block that are being walked through. -/
structure ElementWalk where
  /-- Where the walk stands. -/
  phase : Phase
  /-- The groups to come. -/
  groups : List GroupMessage
  /-- The dense nodes of the group to come. -/
  dense : DenseWalk
  /-- The nodes of the group to come. -/
  nodes : List NodeMessage
  /-- The ways of the group to come. -/
  ways : List WayMessage
  /-- The relations of the group to come. -/
  relations : List RelationMessage

namespace ElementWalk

/-- Before the first group. -/
def ofGroups (groups : List GroupMessage) : ElementWalk := ⟨.group, groups, .empty, [], [], []⟩

/-- What a step brings. -/
inductive Step where
  /-- An element was found. -/
  | found (element : Element) (walk : ElementWalk)
  /-- The walk went on to another phase. -/
  | moved (walk : ElementWalk)
  /-- There are no more elements. -/
  | finished

/-- Gives an element, or goes on to the next phase. -/
def step (w : ElementWalk) : Step :=
  match w.phase with
  | .group =>
    match w.groups with
    | [] => .finished
    | g :: rest => .moved ⟨.denseNodes, rest, g.denseNodes, g.nodes, g.ways, g.relations⟩
  | .denseNodes =>
    match w.dense.next with
    | (some n, dense) => .found (.denseNode n) { w with dense }
    | (none, dense) => .moved { w with phase := .nodes, dense }
  | .nodes =>
    match w.nodes with
    | n :: nodes => .found (.node n) { w with nodes }
    | [] => .moved { w with phase := .ways }
  | .ways =>
    match w.ways with
    | x :: ways => .found (.way x) { w with ways }
    | [] => .moved { w with phase := .relations }
  | .relations =>
    match w.relations with
    | r :: relations => .found (.relation r) { w with relations }
    | [] => .moved { w with phase := .group }

/-- How many phases are still ahead. -/
def phasesAhead (w : ElementWalk) : Nat := 5 * w.groups.length + w.phase.ahead

/-- Going on to another phase leaves fewer phases ahead. -/
theorem phasesAhead_of_moved {w v : ElementWalk} (h : w.step = .moved v) :
    v.phasesAhead < w.phasesAhead := by
  obtain ⟨phase, groups, dense, nodes, ways, relations⟩ := w
  unfold step at h
  cases phase <;> dsimp only at h <;> split at h <;> cases h <;> simp [phasesAhead, Phase.ahead]
  -- Only the step into the next group is left: five phases less of groups, four more within one.
  omega

/-- Gives the next element. -/
def next (w : ElementWalk) : Option Element × ElementWalk :=
  match h : w.step with
  | .found e v => (some e, v)
  | .moved v =>
    have := phasesAhead_of_moved h
    v.next
  | .finished => (none, w)
termination_by w.phasesAhead

/-- An upper bound for the number of elements to come. -/
def bound (w : ElementWalk) : Nat :=
  w.dense.bound + w.nodes.length + w.ways.length + w.relations.length +
    w.groups.foldr (fun g sum =>
      g.denseNodes.bound + g.nodes.length + g.ways.length + g.relations.length + sum) 0

/-- Finding an element lowers the bound. -/
theorem bound_of_found {w v : ElementWalk} {e : Element} (h : w.step = .found e v) :
    v.bound < w.bound := by
  obtain ⟨phase, groups, dense, nodes, ways, relations⟩ := w
  unfold step at h
  cases phase with
  | denseNodes =>
    dsimp only at h
    split at h
    case h_1 hnext =>
      cases h
      have := DenseWalk.bound_next hnext
      simp only [bound]
      omega
    case h_2 => cases h
  | group | nodes | ways | relations =>
    dsimp only at h
    split at h <;> cases h
    all_goals simp only [bound, List.length_cons]; omega

/-- Going on to another phase does not raise the bound. -/
theorem bound_of_moved {w v : ElementWalk} (h : w.step = .moved v) : v.bound ≤ w.bound := by
  obtain ⟨phase, groups, dense, nodes, ways, relations⟩ := w
  unfold step at h
  cases phase with
  | denseNodes =>
    dsimp only at h
    split at h
    case h_1 => cases h
    case h_2 d hnext =>
      cases h
      unfold DenseWalk.next at hnext
      split at hnext <;> cases hnext
      simp only [bound]
      omega
  | group | nodes | ways | relations =>
    dsimp only at h
    split at h <;> cases h
    all_goals simp only [bound, List.foldr_cons]; omega

/-- Every element that is given lowers the bound. -/
theorem bound_next {s t : ElementWalk} {a : Element} (h : s.next = (some a, t)) :
    t.bound < s.bound := by
  fun_induction next s with
  | case1 w e v hstep => cases h; exact bound_of_found hstep
  | case2 w v hstep _ ih =>
    have := bound_of_moved hstep
    have := ih h
    omega
  | case3 => cases h

instance : Walk ElementWalk Element := ⟨next, bound, bound_next⟩

end ElementWalk

/-- Walks through the elements of a block. -/
def BlockMessage.walk (block : BlockMessage) : ElementWalk := .ofGroups block.groups

end MapArchive
