import Mathlib.Algebra.Ring.Nat
import MapArchive.Proofs.Block.ElementWalk
import MapArchive.Proofs.Element.DenseStep
import MapArchive.Writer.Sample

/-!
# A block as a sequence and group by group

There are three ways to the elements of a block: walking through it with a state machine, having an
action carried out for each element, and going through the groups and the four kinds of elements of
each. All three come upon the same elements in the same order, and the groups tell beforehand how
many there will be.
-/

namespace MapArchive

/-! ### How many elements there are -/

namespace GroupMessage

variable {m : Type → Type} [Monad m]

/-- A group has as many dense nodes as its columns say. -/
theorem length_denseNodes (group : GroupMessage) :
    (Walk.toList group.denseNodes).length =
      (group.dense.map DenseNodesMessage.count).getD 0 := by
  rw [DenseWalk.length_toList]
  cases hdense : group.dense with
  | none => simp [denseNodes, hdense, DenseWalk.empty, RunningSum.ofDeltas]
  | some dense =>
    simp [denseNodes, hdense, DenseNodesMessage.walk, DenseNodesMessage.count,
      RunningSum.ofDeltas]

/-- A group has as many elements as it says. -/
theorem length_elements (group : GroupMessage) : group.elements.length = group.count := by
  have hdense := group.length_denseNodes
  simp only [elements, count, List.length_append, List.length_map]
  omega

/-- An action for each element of a group is carried out along its elements. -/
theorem forEachElement_eq [LawfulMonad m] (group : GroupMessage) (act : Element → m Unit) :
    group.forEachElement act = group.elements.forM act := by
  simp only [forEachElement, elements, Walk.forEach_eq, Walk.toList_list, List.forM_eq_forM,
    List.forM_append, List.forM_map, bind_assoc]

end GroupMessage

/-! ### The walk as a state machine -/

namespace ElementWalk

instance : Walk.Fused ElementWalk where
  next_of_none {s t} h := by
    change s.next = (none, t) at h
    change t.next = (none, t)
    fun_induction next s with
    | case1 w e v hstep => cases h
    | case2 w v hstep _ ih => exact ih h
    | case3 w hstep =>
      cases h
      rw [next]
      split <;> simp_all

/-- The states that a walk comes through from another one, with the elements found on the way. -/
inductive Reaches : ElementWalk → List Element → ElementWalk → Prop where
  /-- Nothing was done. -/
  | start (w : ElementWalk) : Reaches w [] w
  /-- At last an element was found. -/
  | found {u v w : ElementWalk} {seen : List Element} {e : Element} :
      Reaches u seen v → v.step = .found e w → Reaches u (seen ++ [e]) w
  /-- At last the walk went on to another phase. -/
  | moved {u v w : ElementWalk} {seen : List Element} :
      Reaches u seen v → v.step = .moved w → Reaches u seen w

/-- What was found and what is ahead make up what was ahead at first. -/
theorem Reaches.seen_append_ahead {u w : ElementWalk} {seen : List Element}
    (h : Reaches u seen w) : seen ++ w.ahead = u.ahead := by
  induction h with
  | start => rfl
  | @found v w seen e hreach hstep ih =>
    rw [List.append_assoc, List.singleton_append, ← ahead_of_found hstep, ih]
  | @moved v w seen hreach hstep ih => rw [← ahead_of_moved hstep, ih]

/-- Looking for the next element goes through states that a walk comes through. -/
theorem Reaches.next {u w : ElementWalk} {seen : List Element} (h : Reaches u seen w) :
    Reaches u (seen ++ w.next.1.toList) w.next.2 := by
  fun_induction ElementWalk.next w with
  | case1 w e v hstep => exact h.found hstep
  | case2 w v hstep _ ih => exact ih (h.moved hstep)
  | case3 w hstep => simpa using h

end ElementWalk

namespace BlockMessage

variable {m : Type → Type} [Monad m]

/-- A block has as many elements as its groups say. -/
theorem length_elements (block : BlockMessage) :
    block.elements.length = (block.groups.map GroupMessage.count).sum := by
  simp only [elements, List.length_flatMap, GroupMessage.length_elements]

/-- An action for each element of a block is carried out along its elements. -/
theorem forEachElement_eq [LawfulMonad m] (block : BlockMessage) (act : Element → m Unit) :
    block.forEachElement act = block.elements.forM act := by
  rw [forEachElement, Walk.forEach_eq, Walk.toList_list, elements]
  induction block.groups with
  | nil => rfl
  | cons g rest ih =>
    simp only [List.forM_eq_forM, GroupMessage.forEachElement_eq] at ih
    simp only [List.forM_eq_forM, List.forM_cons, List.flatMap_cons, List.forM_append,
      GroupMessage.forEachElement_eq, ih]

/-- The three ways to the elements of a block agree. Let `grouped` be the elements of the groups in
stored order, of each group the dense nodes and then nodes, ways and relations.
- Asking the walk through the block again and again gives `grouped` and nothing after it.
- An action carried out for each element is carried out along `grouped`.
- There are as many elements as the groups say, however long the columns of dense nodes are.
- In each state that the walk comes through, what was found is a beginning of `grouped`, and asking
  again and again gives the rest and nothing after it; once nothing is given, nothing is given any
  more. -/
theorem ways_to_elements_agree (block : BlockMessage) :
    let grouped := block.groups.flatMap fun g =>
      (Walk.toList g.denseNodes).map Element.denseNode ++ g.nodes.map Element.node ++
        g.ways.map Element.way ++ g.relations.map Element.relation
    (∀ n, Walk.nexts (grouped.length + n) block.walk =
      grouped.map some ++ List.replicate n none) ∧
    (∀ (m : Type → Type) [Monad m] [LawfulMonad m] (act : Element → m Unit),
      block.forEachElement act = grouped.forM act) ∧
    grouped.length = (block.groups.map GroupMessage.count).sum ∧
    ∀ (seen : List Element) (w : ElementWalk), ElementWalk.Reaches block.walk seen w →
      seen = grouped.take seen.length ∧
      (∀ n, Walk.nexts (grouped.length - seen.length + n) w =
        (grouped.drop seen.length).map some ++ List.replicate n none) ∧
      (w.next.1 = none → ∀ n, Walk.nexts n w.next.2 = List.replicate n none) := by
  have hwalk : Walk.toList block.walk = block.elements := block.toList_walk
  refine ⟨fun n => ?_, fun m _ _ act => block.forEachElement_eq act, block.length_elements,
    fun seen w hreach => ?_⟩
  · have hnexts := Walk.nexts_eq n block.walk
    rw [hwalk] at hnexts
    exact hnexts
  · have hsplit : block.elements = seen ++ Walk.toList w := by
      rw [w.toList_eq_ahead, hreach.seen_append_ahead, ← hwalk, block.walk.toList_eq_ahead]
    have hlength := congrArg List.length hsplit
    change seen = block.elements.take seen.length ∧ (∀ n,
      Walk.nexts (block.elements.length - seen.length + n) w =
        (block.elements.drop seen.length).map some ++ List.replicate n none) ∧ _
    refine ⟨?_, fun n => ?_, fun hnone n => ?_⟩
    · rw [hsplit, List.take_left]
    · have hnexts := Walk.nexts_eq n w
      have hleft : block.elements.length - seen.length = (Walk.toList w).length := by
        rw [List.length_append] at hlength
        omega
      rw [hleft, hnexts, hsplit, List.drop_left]
    · have hend : w.next = (none, w.next.2) := Prod.ext hnone rfl
      exact Walk.nexts_of_none (Walk.Fused.next_of_none (σ := ElementWalk) hend) n

/-- A block with two dense nodes, whose columns are of unequal lengths, and a way in one group,
nothing in the next one, and a node in the last. -/
def uneven : BlockMessage :=
  Sample.block
    [{ Sample.emptyGroup with
        dense := some { Sample.dense with lat := [520000000, 100] }, ways := [Sample.way] },
      Sample.emptyGroup, { Sample.emptyGroup with nodes := [Sample.node] }] (.ofTexts [])

/-- From the second element on, and with an action that writes down the numbers of elements. -/
theorem ways_to_uneven_elements_agree :
    (∀ n, (Walk.nexts (3 + n) uneven.walk.next.2).map (·.map Element.id) =
      [some 2, some 100, some (-1)] ++ List.replicate n none) ∧
    ((uneven.forEachElement fun e => modify (· ++ [e.id]) : StateM (List Int) Unit).run []).run.2 =
      [1, 2, 100, -1] := by
  obtain ⟨-, heach, hcount, hstates⟩ := uneven.ways_to_elements_agree
  obtain ⟨-, hrest, -⟩ := hstates _ _ (ElementWalk.Reaches.start uneven.walk).next
  refine ⟨fun n => ?_, ?_⟩
  · have hids := congrArg (List.map (Option.map Element.id)) (hrest n)
    rw [hcount, List.map_append, List.map_replicate] at hids
    have hleft : ((uneven.groups.map GroupMessage.count).sum -
        ([] ++ uneven.walk.next.1.toList).length) = 3 := by decide +kernel
    rw [hleft] at hids
    rw [hids]
    congr 1
    decide +kernel
  · rw [heach (StateM (List Int))]
    decide +kernel

end BlockMessage

end MapArchive
