import MapArchive.Block.ElementWalk
import MapArchive.Proofs.Walk

/-!
# What a walk through a block gives

The walk is in one of five phases; in each of them it is known which elements are still ahead. A
step that finds an element takes it off their front, and a step to another phase leaves them as
they are. So the walk through a block gives the elements of the block, in order.
-/

namespace MapArchive

namespace ElementWalk

/-- The elements of the groups ahead. -/
def ofGroupsAhead (w : ElementWalk) : List Element := w.groups.flatMap GroupMessage.elements

/-- The elements ahead from the relations on. -/
def fromRelations (w : ElementWalk) : List Element :=
  w.relations.map .relation ++ w.ofGroupsAhead

/-- The elements ahead from the ways on. -/
def fromWays (w : ElementWalk) : List Element := w.ways.map .way ++ w.fromRelations

/-- The elements ahead from the nodes on. -/
def fromNodes (w : ElementWalk) : List Element := w.nodes.map .node ++ w.fromWays

/-- The elements ahead from the dense nodes on. -/
def fromDense (w : ElementWalk) : List Element :=
  (Walk.toList w.dense).map .denseNode ++ w.fromNodes

/-- The elements ahead. -/
def ahead (w : ElementWalk) : List Element :=
  match w.phase with
  | .group => w.ofGroupsAhead
  | .denseNodes => w.fromDense
  | .nodes => w.fromNodes
  | .ways => w.fromWays
  | .relations => w.fromRelations

/-- An element that is found is the first one ahead. -/
theorem ahead_of_found {w v : ElementWalk} {e : Element} (h : w.step = .found e v) :
    w.ahead = e :: v.ahead := by
  obtain ⟨phase, groups, dense, nodes, ways, relations⟩ := w
  unfold step at h
  cases phase with
  | denseNodes =>
    dsimp only at h
    split at h
    case h_1 n rest hnext =>
      cases h
      have hdense := Walk.toList_of_some (s := dense) hnext
      simp only [ahead, fromDense, hdense, List.map_cons, List.cons_append]
      rfl
    case h_2 => cases h
  | group | nodes | ways | relations =>
    dsimp only at h
    split at h <;> cases h
    all_goals rfl

/-- Going on to another phase changes nothing about what is ahead. -/
theorem ahead_of_moved {w v : ElementWalk} (h : w.step = .moved v) : w.ahead = v.ahead := by
  obtain ⟨phase, groups, dense, nodes, ways, relations⟩ := w
  unfold step at h
  cases phase with
  | denseNodes =>
    dsimp only at h
    split at h
    case h_1 => cases h
    case h_2 rest hnext =>
      cases h
      have hdense := Walk.toList_of_none (s := dense) hnext
      simp only [ahead, fromDense, hdense, List.map_nil, List.nil_append]
      rfl
  | group =>
    dsimp only at h
    split at h <;> cases h
    simp only [ahead, ofGroupsAhead, fromDense, fromNodes, fromWays, fromRelations,
      List.flatMap_cons, GroupMessage.elements, List.append_assoc]
  | nodes | ways | relations =>
    dsimp only at h
    split at h <;> cases h
    all_goals rfl

/-- At the end nothing is ahead. -/
theorem ahead_of_finished {w : ElementWalk} (h : w.step = .finished) : w.ahead = [] := by
  obtain ⟨phase, groups, dense, nodes, ways, relations⟩ := w
  unfold step at h
  cases phase with
  | group =>
    dsimp only at h
    split at h <;> cases h
    rfl
  | denseNodes | nodes | ways | relations =>
    dsimp only at h
    split at h <;> cases h

/-- The next element is the first one ahead; if there is none, none is ahead. -/
theorem ahead_eq (w : ElementWalk) :
    w.ahead = match w.next with
      | (some e, v) => e :: v.ahead
      | (none, _) => [] := by
  fun_induction next w with
  | case1 w e v hstep => exact ahead_of_found hstep
  | case2 w v hstep _ ih => rw [ahead_of_moved hstep, ih]
  | case3 w hstep => exact ahead_of_finished hstep

/-- A walk gives the elements ahead. -/
theorem toList_eq_ahead (w : ElementWalk) : Walk.toList w = w.ahead := by
  have hahead := w.ahead_eq
  rcases hnext : w.next with ⟨_ | e, v⟩
  · rw [hnext] at hahead
    rw [Walk.toList_of_none (s := w) hnext, hahead]
  · have hlt := bound_next hnext
    rw [hnext] at hahead
    rw [Walk.toList_of_some (s := w) hnext, hahead, toList_eq_ahead v]
termination_by w.bound

end ElementWalk

/-- The walk through a block gives the elements of the block. -/
theorem BlockMessage.toList_walk (block : BlockMessage) :
    Walk.toList block.walk = block.elements :=
  block.walk.toList_eq_ahead

end MapArchive
