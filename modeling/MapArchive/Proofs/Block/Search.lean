import MapArchive.Proofs.Block.GroupView

/-!
# Looking for the next element

To find its next element a walk through a block goes from phase to phase until one of them has an
element to give. No more than five phases pass before another group is entered, so the groups that
have not been entered yet limit how long a search takes, however many of them are empty. What a walk
holds of a group stays with it when the phases of that group are over. By then nothing is left of
it, so nothing is lost when it is replaced by what the next group holds.
-/

namespace MapArchive

namespace ElementWalk

variable {u v w : ElementWalk} {seen : List Element} {e : Element}

/-! ### How long a search takes -/

/-- Looks for the next element in at most `n` steps. -/
def nextWithin : Nat → ElementWalk → Option (Option Element × ElementWalk)
  | 0, _ => none
  | n + 1, w =>
    match w.step with
    | .found e v => some (some e, v)
    | .moved v => nextWithin n v
    | .finished => some (none, w)

/-- A search takes a certain number of steps. All but the last one go on to another phase. -/
theorem exists_nextWithin_eq (w : ElementWalk) :
    ∃ n ≤ w.phasesAhead + 1, ∀ m, w.nextWithin m = if n ≤ m then some w.next else none := by
  fun_induction next w with
  | case1 w e v hstep =>
    refine ⟨1, by omega, fun m => ?_⟩
    cases m with
    | zero => rfl
    | succ m => simp [nextWithin, hstep]
  | case2 w v hstep _ ih =>
    obtain ⟨n, hle, hsearch⟩ := ih
    have hlt := phasesAhead_of_moved hstep
    refine ⟨n + 1, by omega, fun m => ?_⟩
    cases m with
    | zero => rfl
    | succ m => simp only [nextWithin, hstep, hsearch, Nat.add_le_add_iff_right]
  | case3 w hstep =>
    refine ⟨1, by omega, fun m => ?_⟩
    cases m with
    | zero => rfl
    | succ m => simp [nextWithin, hstep]

/-- There are five phases for each group ahead, and no more than four for the one entered last. -/
theorem phasesAhead_lt (w : ElementWalk) : w.phasesAhead < 5 * (w.groups.length + 1) := by
  have hphase : w.phase.ahead < 5 := by cases w.phase <;> decide
  rw [phasesAhead]
  omega

/-! ### What is left of a group -/

/-- The elements that a walk still holds for the phases of a group that are over. -/
def leftBehind (w : ElementWalk) : List Element :=
  match w.phase with
  | .denseNodes => []
  | .nodes => (Walk.toList w.dense).map .denseNode
  | .ways => (Walk.toList w.dense).map .denseNode ++ w.nodes.map .node
  | .relations =>
    (Walk.toList w.dense).map .denseNode ++ w.nodes.map .node ++ w.ways.map .way
  | .group =>
    (Walk.toList w.dense).map .denseNode ++ w.nodes.map .node ++ w.ways.map .way ++
      w.relations.map .relation

/-- A walk that starts has left nothing behind. -/
theorem leftBehind_walk (block : BlockMessage) : block.walk.leftBehind = [] := by
  have hnone : Walk.toList DenseWalk.empty = [] := Walk.toList_of_none (s := DenseWalk.empty) rfl
  rw [BlockMessage.walk, ofGroups, leftBehind, hnone]
  rfl

/-- All that a walk holds is left behind or ahead. -/
theorem leftBehind_append_ahead (w : ElementWalk) : w.leftBehind ++ w.ahead = w.fromDense := by
  obtain ⟨phase, groups, dense, nodes, ways, relations⟩ := w
  cases phase <;>
    simp [leftBehind, ahead, fromDense, fromNodes, fromWays, fromRelations, List.append_assoc]

/-- An element is found in a phase that is not over. -/
theorem leftBehind_of_found (h : w.step = .found e v) : v.leftBehind = w.leftBehind := by
  obtain ⟨phase, groups, dense, nodes, ways, relations⟩ := w
  unfold step at h
  cases phase <;> dsimp only at h <;> split at h <;> cases h <;> rfl

/-- No group is entered when an element is found. -/
theorem groups_of_found (h : w.step = .found e v) : v.groups = w.groups := by
  obtain ⟨phase, groups, dense, nodes, ways, relations⟩ := w
  unfold step at h
  cases phase <;> dsimp only at h <;> split at h <;> cases h <;> rfl

/-- A phase is over once nothing is left for it. A new group has no phases that are over. -/
theorem leftBehind_of_moved (h : w.step = .moved v) (hw : w.leftBehind = []) :
    v.leftBehind = [] := by
  obtain ⟨phase, groups, dense, nodes, ways, relations⟩ := w
  unfold step at h
  cases phase with
  | group =>
    dsimp only at h
    split at h <;> cases h
    rfl
  | denseNodes =>
    dsimp only at h
    split at h
    case h_1 => cases h
    case h_2 rest hnext =>
      cases h
      -- The walk goes on with the dense nodes as they are after the question that was in vain.
      have hrest := Walk.toList_of_none (s := rest) (Walk.Fused.next_of_none (σ := DenseWalk) hnext)
      rw [leftBehind, hrest, List.map_nil]
  | nodes | ways | relations =>
    dsimp only at h
    split at h <;> cases h
    simpa [leftBehind] using hw

/-- Only the first of the groups to come can be entered. -/
theorem groups_suffix_of_moved (h : w.step = .moved v) : v.groups <:+ w.groups := by
  obtain ⟨phase, groups, dense, nodes, ways, relations⟩ := w
  unfold step at h
  cases phase with
  | group =>
    dsimp only at h
    split at h <;> cases h
    exact List.suffix_cons _ _
  | denseNodes | nodes | ways | relations =>
    dsimp only at h
    split at h <;> cases h
    exact List.suffix_rfl

/-- Nothing is ever left behind. -/
theorem Reaches.leftBehind_eq_nil (h : Reaches u seen w) (hu : u.leftBehind = []) :
    w.leftBehind = [] := by
  induction h with
  | start => exact hu
  | found _ hstep ih => rw [leftBehind_of_found hstep, ih]
  | moved _ hstep ih => exact leftBehind_of_moved hstep ih

/-- The groups that have not been entered are the last ones. -/
theorem Reaches.groups_suffix (h : Reaches u seen w) : w.groups <:+ u.groups := by
  induction h with
  | start => exact List.suffix_rfl
  | found _ hstep ih => rwa [groups_of_found hstep]
  | moved _ hstep ih => exact (groups_suffix_of_moved hstep).trans ih

/-- The elements to come are all that the walk holds, in whatever phase it stands. -/
theorem Reaches.toList_eq_fromDense (h : Reaches u seen w) (hu : u.leftBehind = []) :
    Walk.toList w = w.fromDense := by
  rw [toList_eq_ahead, ← leftBehind_append_ahead, h.leftBehind_eq_nil hu, List.nil_append]

/-- A search gives the first of the elements to come. -/
theorem head?_toList (w : ElementWalk) : (Walk.toList w).head? = w.next.1 := by
  rcases hnext : w.next with ⟨_ | e, v⟩
  · rw [Walk.toList_of_none (s := w) hnext, List.head?_nil]
  · rw [Walk.toList_of_some (s := w) hnext, List.head?_cons]

end ElementWalk

namespace BlockMessage

/-- A search for the next element ends, and no element is lost by it. Let the walk through a block
have come to some state.
- The groups that it has not entered are the last ones of the block. There is a number of steps, at
  most five for each of these groups and five more, that the search takes: with fewer steps it does
  not end, and with as many or more it ends with the next element, or without one.
- What has been found and what is to come make up the elements of the block, and what is found next
  is the first to come. To come are all elements that the walk holds of the group it has entered
  last, in whatever phase it stands, and those of the groups that it has not entered.
- A step to another phase leaves the elements to come as they are, one that gives an element takes
  it off their front, and the walk says that it has finished only when none are to come. -/
theorem search_ends_without_loss (block : BlockMessage) {seen : List Element} {w : ElementWalk}
    (h : ElementWalk.Reaches block.walk seen w) :
    w.groups <:+ block.groups ∧
    (∃ n ≤ 5 * (w.groups.length + 1),
      ∀ m, w.nextWithin m = if n ≤ m then some w.next else none) ∧
    seen ++ Walk.toList w = block.elements ∧
    w.next.1 = (Walk.toList w).head? ∧
    Walk.toList w =
      (Walk.toList w.dense).map .denseNode ++ w.nodes.map .node ++ w.ways.map .way ++
        w.relations.map .relation ++ w.groups.flatMap GroupMessage.elements ∧
    match w.step with
    | .moved v => Walk.toList v = Walk.toList w
    | .found e v => Walk.toList w = e :: Walk.toList v
    | .finished => Walk.toList w = [] := by
  refine ⟨h.groups_suffix, ?_, ?_, w.head?_toList.symm, ?_, ?_⟩
  · obtain ⟨n, hle, hsearch⟩ := w.exists_nextWithin_eq
    exact ⟨n, Nat.le_trans hle w.phasesAhead_lt, hsearch⟩
  · rw [w.toList_eq_ahead, h.seen_append_ahead, ← block.walk.toList_eq_ahead, block.toList_walk]
  · rw [h.toList_eq_fromDense (ElementWalk.leftBehind_walk block)]
    simp only [ElementWalk.fromDense, ElementWalk.fromNodes, ElementWalk.fromWays,
      ElementWalk.fromRelations, ElementWalk.ofGroupsAhead, List.append_assoc]
  · simp only [ElementWalk.toList_eq_ahead]
    cases hstep : w.step with
    | moved v => exact (ElementWalk.ahead_of_moved hstep).symm
    | found e v => exact ElementWalk.ahead_of_found hstep
    | finished => exact ElementWalk.ahead_of_finished hstep

/-- Three groups with nothing in them. -/
def barren : BlockMessage := Sample.block (List.replicate 3 Sample.emptyGroup) (.ofTexts [])

/-- In the first of three empty groups, a search that finds nothing takes all of its fifteen steps.
After the way of the uneven block it takes ten of them to find the node in the last group, and the
first one, which leaves the ways, does not lose the node. -/
theorem empty_groups_are_searched :
    (∃ w, ElementWalk.Reaches barren.walk [] w ∧ w.groups.length = 2 ∧ Walk.toList w = [] ∧
      ∀ m, w.nextWithin m = if 15 ≤ m then some w.next else none) ∧
    ∃ seen w v, ElementWalk.Reaches uneven.walk seen w ∧ seen.map Element.id = [1, 2, 100] ∧
      w.groups.length = 2 ∧ w.step = .moved v ∧ (Walk.toList v).map Element.id = [-1] ∧
      ∀ m, w.nextWithin m = if 10 ≤ m then some w.next else none := by
  have hexact {w : ElementWalk} {n k : Nat}
      (hsearch : ∀ m, w.nextWithin m = if n ≤ m then some w.next else none)
      (hfewer : w.nextWithin k = none) (henough : (w.nextWithin (k + 1)).isSome) : n = k + 1 := by
    have hlt : ¬n ≤ k := fun hle => by simp [hsearch, hle] at hfewer
    have hle : n ≤ k + 1 := by
      by_contra hgt
      simp [hsearch, hgt] at henough
    omega
  constructor
  · have hfirst := (ElementWalk.Reaches.start barren.walk).moved rfl
    obtain ⟨-, ⟨n, -, hsearch⟩, hall, -⟩ := barren.search_ends_without_loss hfirst
    have hnone : barren.elements = [] := List.eq_nil_of_length_eq_zero (by decide +kernel)
    obtain rfl : n = 15 := hexact hsearch rfl rfl
    exact ⟨_, hfirst, rfl, hall.trans hnone, hsearch⟩
  · have hdense := (((ElementWalk.Reaches.start uneven.walk).moved rfl).found rfl).found rfl
    have hway := ((hdense.moved rfl).moved rfl).found rfl
    obtain ⟨-, ⟨n, -, hsearch⟩, -, -, hcome, hkept⟩ := uneven.search_ends_without_loss hway
    obtain rfl : n = 10 := hexact hsearch rfl rfl
    refine ⟨_, _, _, hway, rfl, rfl, rfl, ?_, hsearch⟩
    rw [hkept, hcome]
    decide +kernel

end BlockMessage

end MapArchive
