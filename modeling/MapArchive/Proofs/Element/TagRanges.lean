import MapArchive.Proofs.Element.Checked
import MapArchive.Proofs.Element.DenseStep
import MapArchive.Proofs.Element.TagArray

/-!
# How the array of tags is divided among the nodes

Node by node a range of the array is set apart, whatever the array holds: zeros for values, keys
without a value, or no zero at its end. The ranges follow one another. Between two of them a single
entry is passed over, which is a zero unless it is the last entry of all; once the end of the array
is reached, there are no tags for later nodes.

What one range is like is said first; then it is carried along the nodes.
-/

namespace MapArchive

/-! ## One range -/

/-- Where tags end, no key is left: there is a zero, or less than a pair. -/
theorem getElem?_tagsEnd {keysVals : Array Int} {i : Nat}
    (h : tagsEnd keysVals i + 1 < keysVals.size) :
    keysVals[tagsEnd keysVals i]? = some 0 := by
  fun_induction tagsEnd keysVals i with
  | case1 i hsize hzero =>
    rw [Array.getElem?_eq_getElem (Nat.lt_of_succ_lt hsize), hzero]
  | case2 i hsize hkey ih => exact ih h
  | case3 i hsize => exact absurd h hsize

/-- The keys before the place where tags end are not zero. -/
theorem exists_key_of_lt_tagsEnd {keysVals : Array Int} {i k : Nat}
    (h : i + 2 * k < tagsEnd keysVals i) :
    ∃ key, keysVals[i + 2 * k]? = some key ∧ key ≠ 0 := by
  fun_induction tagsEnd keysVals i generalizing k with
  | case1 i hsize hzero => omega
  | case2 i hsize hkey ih =>
    cases k with
    | zero => exact ⟨keysVals[i], Array.getElem?_eq_getElem (Nat.lt_of_succ_lt hsize), hkey⟩
    | succ k =>
      have hplace : i + 2 + 2 * k = i + 2 * (k + 1) := by omega
      have hlater := ih (k := k) (by omega)
      rwa [hplace] at hlater
  | case3 i hsize => omega

/-- A range that is set apart for the tags of one node. -/
structure TagRange.Divides (keysVals : Array Int) (r : TagRange) : Prop where
  /-- It does not end before it starts. -/
  first_le_stop : r.first ≤ r.stop
  /-- It lies within the array. -/
  stop_le_size : r.stop ≤ keysVals.size
  /-- It is made of pairs. -/
  even : Even (r.stop - r.first)
  /-- No key in it is zero. -/
  keys_ne_zero : ∀ k, r.first + 2 * k < r.stop →
    ∃ key, keysVals[r.first + 2 * k]? = some key ∧ key ≠ 0
  /-- The next range starts after a single entry, or at the end of the array. -/
  next_eq : r.next = min (r.stop + 1) keysVals.size
  /-- If an entry follows the one that is passed over, that one is zero. -/
  zero_of_lt : r.stop + 1 < keysVals.size → keysVals[r.stop]? = some 0

/-- The range of tags that start in the array. -/
theorem divides_tagRange {keysVals : Array Int} {i : Nat} (h : i ≤ keysVals.size) :
    (tagRange keysVals i).Divides keysVals := by
  obtain ⟨n, hend, hplaces⟩ := exists_tagsEnd keysVals i
  have hstop : (tagRange keysVals i).stop = i + 2 * n := hend
  have hfirst : (tagRange keysVals i).first = i := rfl
  refine ⟨?_, ?_, ?_, fun k => exists_key_of_lt_tagsEnd, rfl, getElem?_tagsEnd⟩
  · omega
  · cases n with
    | zero => omega
    | succ n =>
      have hlast := hplaces n (Nat.lt_succ_self n)
      omega
  · rw [hstop, hfirst, Nat.add_sub_cancel_left]
    exact ⟨n, Nat.two_mul n⟩

/-- At the end of the array there are no tags. -/
theorem tagRange_size (keysVals : Array Int) :
    tagRange keysVals keysVals.size = ⟨keysVals.size, keysVals.size, keysVals.size⟩ := by
  have hend : tagsEnd keysVals keysVals.size = keysVals.size := by
    rw [tagsEnd, dif_neg (by omega)]
  rw [tagRange, hend, Nat.min_eq_right (Nat.le_succ _)]

/-! ## The ranges of all nodes -/

/-- The ranges of the nodes from one on, if its tags start at an index. -/
def tagRangesFrom (keysVals : Array Int) (i : Nat) : Nat → TagRange
  | 0 => tagRange keysVals i
  | n + 1 => tagRangesFrom keysVals (tagRange keysVals i).next n

section Ranges

variable {keysVals : Array Int}

/-- A range starts where the one before it says. -/
theorem first_tagRangesFrom_succ (i n : Nat) :
    (tagRangesFrom keysVals i (n + 1)).first = (tagRangesFrom keysVals i n).next := by
  induction n generalizing i with
  | zero => rfl
  | succ n ih => exact ih (tagRange keysVals i).next

/-- At the end of the array all ranges are empty. -/
theorem tagRangesFrom_size (n : Nat) :
    tagRangesFrom keysVals keysVals.size n =
      ⟨keysVals.size, keysVals.size, keysVals.size⟩ := by
  induction n with
  | zero => exact tagRange_size keysVals
  | succ n ih => rw [tagRangesFrom, tagRange_size, ih]

/-- Every range is set apart at some index of the array, or at its end. -/
theorem exists_tagRange {i : Nat} (h : i ≤ keysVals.size) (n : Nat) :
    ∃ j ≤ keysVals.size, tagRangesFrom keysVals i n = tagRange keysVals j := by
  induction n generalizing i with
  | zero => exact ⟨i, h, rfl⟩
  | succ n ih => exact ih (Nat.min_le_right _ _)

/-- Every range divides the array from some place before its end. -/
theorem divides_tagRangesFrom {i : Nat} (h : i ≤ keysVals.size) (n : Nat) :
    (tagRangesFrom keysVals i n).Divides keysVals := by
  obtain ⟨j, hj, hrange⟩ := exists_tagRange h n
  rw [hrange]
  exact divides_tagRange hj

/-- The pairs that are found at the places of a range are those of its entries. -/
theorem pairs_tagRangesFrom {i : Nat} (h : i ≤ keysVals.size) (n : Nat) :
    (tagRangesFrom keysVals i n).pairs keysVals =
      .ok (pairsOf (keysVals.extract (tagRangesFrom keysVals i n).first
        (tagRangesFrom keysVals i n).stop).toList) := by
  obtain ⟨j, -, hrange⟩ := exists_tagRange h n
  rw [hrange]
  exact TagRange.pairs_tagRange keysVals j

/-- Once a range has come to the end of the array, all later ones are there. -/
theorem tagRangesFrom_of_next {i n : Nat} (h : (tagRangesFrom keysVals i n).next = keysVals.size)
    (m : Nat) :
    tagRangesFrom keysVals i (n + 1 + m) = ⟨keysVals.size, keysVals.size, keysVals.size⟩ := by
  induction n generalizing i with
  | zero =>
    rw [Nat.zero_add, Nat.add_comm, tagRangesFrom, show (tagRange keysVals i).next = _ from h,
      tagRangesFrom_size]
  | succ n ih =>
    rw [show n + 1 + 1 + m = (n + 1 + m) + 1 by omega]
    exact ih h

/-- A range holds whole pairs, and they are found at their places. -/
theorem TagRange.Divides.flattenTags_pairsOf {r : TagRange} (h : r.Divides keysVals) :
    flattenTags (pairsOf (keysVals.extract r.first r.stop).toList) =
      (keysVals.extract r.first r.stop).toList := by
  refine MapArchive.flattenTags_pairsOf ?_
  have hlength : (keysVals.extract r.first r.stop).toList.length = r.stop - r.first := by
    rw [Array.length_toList, Array.size_extract, Nat.min_eq_left h.stop_le_size]
  rw [hlength]
  exact h.even

/-- Ranges do not overlap. -/
theorem stop_le_first {i : Nat} (h : i ≤ keysVals.size) {m n : Nat} (hlt : m < n) :
    (tagRangesFrom keysVals i m).stop ≤ (tagRangesFrom keysVals i n).first := by
  induction n with
  | zero => cases hlt
  | succ n ih =>
    have hlast := divides_tagRangesFrom h n
    have hsucc : (tagRangesFrom keysVals i (n + 1)).first = (tagRangesFrom keysVals i n).next :=
      first_tagRangesFrom_succ i n
    have hnext := hlast.next_eq
    have hwithin := hlast.stop_le_size
    obtain hlater | rfl := Nat.lt_succ_iff_lt_or_eq.mp hlt
    · have hbefore := ih hlater
      have hordered := hlast.first_le_stop
      omega
    · omega

/-- Tags that a zero follows are passed over, and those of the next node start after the zero. -/
theorem tagRangesFrom_flattenTags {tags : List (Int × Int)} (hkeys : ∀ tag ∈ tags, tag.1 ≠ 0)
    (before after : List Int) (n : Nat) :
    tagRangesFrom (before ++ (flattenTags tags ++ 0 :: after)).toArray before.length (n + 1) =
      tagRangesFrom (before ++ (flattenTags tags ++ 0 :: after)).toArray
        (before ++ (flattenTags tags ++ [0])).length n := by
  have hlength : (before ++ (flattenTags tags ++ [0])).length =
      before.length + 2 * tags.length + 1 := by
    simp
    omega
  rw [tagRangesFrom, tagRange_flattenTags hkeys, hlength]

/-- Where the tags of some nodes were written one after the other, each followed by a zero, the
ranges hold these tags, and none for further nodes. -/
theorem extract_tagRangesFrom {lists : List (List (Int × Int))}
    (hkeys : ∀ tags ∈ lists, ∀ tag ∈ tags, tag.1 ≠ 0) (before : List Int) (n : Nat) :
    let keysVals := (before ++ lists.flatMap fun tags => flattenTags tags ++ [0]).toArray
    let range := tagRangesFrom keysVals before.length n
    (keysVals.extract range.first range.stop).toList = flattenTags ((lists[n]?).getD []) := by
  induction lists generalizing before n with
  | nil =>
    intro keysVals range
    have hsize : before.length = keysVals.size := by simp [keysVals]
    have hrange : range = ⟨keysVals.size, keysVals.size, keysVals.size⟩ := by
      rw [← tagRangesFrom_size n, ← hsize]
    rw [hrange]
    simp [flattenTags]
  | cons tags lists ih =>
    have hfirst : ∀ tag ∈ tags, tag.1 ≠ 0 := hkeys tags List.mem_cons_self
    have hwritten : (tags :: lists).flatMap (fun tags => flattenTags tags ++ [0]) =
        flattenTags tags ++ 0 :: lists.flatMap fun tags => flattenTags tags ++ [0] := by
      simp
    dsimp only
    rw [hwritten]
    cases n with
    | zero =>
      rw [tagRangesFrom, tagRange_flattenTags hfirst]
      exact extract_flattenTags tags before _
    | succ n =>
      have hlater := ih (fun list hlist => hkeys list (List.mem_cons_of_mem tags hlist))
        (before ++ (flattenTags tags ++ [0])) n
      rw [tagRangesFrom_flattenTags hfirst]
      simpa using hlater

end Ranges

/-! ## The nodes of a walk -/

namespace DenseWalk

/-- A node has the tags in its range. -/
theorem keysVals_of_getElem? {w : DenseWalk} {i : Nat} {n : DenseNode}
    (h : (Walk.toList w)[i]? = some n) :
    n.keysVals = (w.keysVals.extract (tagRangesFrom w.keysVals w.tagIndex i).first
      (tagRangesFrom w.keysVals w.tagIndex i).stop).toList := by
  refine getElem?_induction (P := fun w i n => n.keysVals =
    (w.keysVals.extract (tagRangesFrom w.keysVals w.tagIndex i).first
      (tagRangesFrom w.keysVals w.tagIndex i).stop).toList) ?_ ?_ h
  · intro w n v hstep
    exact hstep.tags
  · intro w n v hstep i m hlater
    rw [hlater, hstep.array, hstep.tagIndex]
    rfl

/-- The entries of a node are its tags, flattened. -/
theorem flattenTags_rawTags {w : DenseWalk} (h : w.tagIndex ≤ w.keysVals.size) {n : DenseNode}
    (hn : n ∈ Walk.toList w) : flattenTags n.rawTags = n.keysVals := by
  obtain ⟨i, hi⟩ := List.mem_iff_getElem?.mp hn
  rw [DenseNode.rawTags, keysVals_of_getElem? hi]
  exact (divides_tagRangesFrom h i).flattenTags_pairsOf

/-- The array of tags is divided among the nodes. Whatever it holds, each node has a range of it.
- The first range starts at the front of the array. Each of them is made of whole pairs within the
  array, none of them with zero for a key, and the next one starts after a single entry that is
  passed over, or at the end of the array; if an entry follows the one that is passed over, that one
  is zero. No two ranges overlap.
- Where no entry follows the one that is passed over, or none is passed over because the range ends
  with the array, all later ranges are empty.
- The entries of a node that is walked through are those of its range. They are its tags, flattened,
  and its tags are found at the places of the range.
- If tags without zero for a key were written into the array one list after the other, each list
  followed by a zero, the nodes have these lists for their tags, and further nodes have none. -/
theorem tag_ranges_divide_array (keysVals : Array Int) :
    let range := tagRangesFrom keysVals 0
    (range 0).first = 0 ∧
    (∀ i, (range i).Divides keysVals ∧
      (range (i + 1)).first = min ((range i).stop + 1) keysVals.size) ∧
    (∀ i j, i < j → (range i).stop ≤ (range j).first) ∧
    (∀ i, keysVals.size ≤ (range i).stop + 1 → ∀ j, i < j →
      (range j).first = keysVals.size ∧ (range j).stop = keysVals.size) ∧
    ∀ w : DenseWalk, w.keysVals = keysVals → w.tagIndex = 0 →
      ∀ i n, (Walk.toList w)[i]? = some n →
        (n.keysVals = (keysVals.extract (range i).first (range i).stop).toList ∧
          n.keysVals = flattenTags n.rawTags ∧ (range i).pairs keysVals = .ok n.rawTags) ∧
        ∀ lists : List (List (Int × Int)), (∀ tags ∈ lists, ∀ tag ∈ tags, tag.1 ≠ 0) →
          keysVals = (lists.flatMap fun tags => flattenTags tags ++ [0]).toArray →
          n.rawTags = (lists[i]?).getD [] := by
  intro range
  have hdivides : ∀ i, (range i).Divides keysVals := divides_tagRangesFrom (Nat.zero_le _)
  have hfirst : ∀ i, (range (i + 1)).first = min ((range i).stop + 1) keysVals.size := fun i =>
    (first_tagRangesFrom_succ 0 i).trans (hdivides i).next_eq
  refine ⟨rfl, fun i => ⟨hdivides i, hfirst i⟩, fun i j => stop_le_first (Nat.zero_le _),
    fun i hend j hlt => ?_, ?_⟩
  · obtain ⟨m, rfl⟩ := Nat.exists_eq_add_of_le (Nat.succ_le_of_lt hlt)
    have hnext : (range i).next = keysVals.size :=
      (hdivides i).next_eq.trans (Nat.min_eq_right hend)
    have hrange : range (i + 1 + m) = _ := tagRangesFrom_of_next hnext m
    rw [hrange]
    exact ⟨rfl, rfl⟩
  · rintro w rfl hindex i n hn
    have hentries := keysVals_of_getElem? hn
    rw [hindex] at hentries
    refine ⟨⟨hentries, ?_, ?_⟩, fun lists hkeys hlists => ?_⟩
    · refine (flattenTags_rawTags ?_ (List.mem_of_getElem? hn)).symm
      rw [hindex]
      exact Nat.zero_le _
    · rw [DenseNode.rawTags, hentries]
      exact pairs_tagRangesFrom (Nat.zero_le _) i
    · have hlist := extract_tagRangesFrom hkeys [] i
      rw [List.nil_append, List.length_nil, ← hlists] at hlist
      rw [DenseNode.rawTags, hentries.trans hlist, pairsOf_flattenTags]

/-- Four nodes with the tags `5=0`, none, `7=8` and none. In the array, a key without a value is
left over. -/
def leftOver : DenseNodesMessage :=
  ⟨[1, 1, 1, 1], none, [0, 0, 0, 0], [0, 0, 0, 0], [5, 0, 0, 0, 7, 8, 9]⟩

/-- The third range ends before the key that is left over, and the fourth one is empty. With a zero
in place of this key the array is what is written for these tags, and the third node has its own. -/
theorem key_is_left_over :
    (tagRangesFrom leftOver.walk.keysVals 0 2).next = 7 ∧
      (tagRangesFrom leftOver.walk.keysVals 0 3).first = 7 ∧
      (∃ n, (Walk.toList leftOver.walk)[2]? = some n ∧ n.keysVals = flattenTags n.rawTags) ∧
      ∃ n, (Walk.toList { leftOver with keysVals := [5, 0, 0, 0, 7, 8, 0] }.walk)[2]? = some n ∧
        n.rawTags = [(7, 8)] := by
  obtain ⟨-, -, -, hempty, hnodes⟩ := tag_ranges_divide_array leftOver.walk.keysVals
  obtain ⟨-, -, -, -, hwritten⟩ := tag_ranges_divide_array #[5, 0, 0, 0, 7, 8, 0]
  refine ⟨by decide +kernel, (hempty 2 (by decide +kernel) 3 (by decide)).1, ?_, ?_⟩
  · obtain ⟨n, hn⟩ : ∃ n, (Walk.toList leftOver.walk)[2]? = some n :=
      Option.isSome_iff_exists.mp (by decide +kernel)
    exact ⟨n, hn, (hnodes leftOver.walk rfl rfl 2 n hn).1.2.1⟩
  · obtain ⟨n, hn⟩ : ∃ n, (Walk.toList
        { leftOver with keysVals := [5, 0, 0, 0, 7, 8, 0] }.walk)[2]? = some n :=
      Option.isSome_iff_exists.mp (by decide +kernel)
    exact ⟨n, hn, (hwritten { leftOver with keysVals := [5, 0, 0, 0, 7, 8, 0] }.walk
      (by decide) rfl 2 n hn).2 [[(5, 0)], [], [(7, 8)]] (by decide) (by decide)⟩

end DenseWalk

end MapArchive
