import MapArchive.Element.Dense
import MapArchive.Proofs.RunningSum

/-!
# A step through the columns of dense nodes

All that a step does is said here once. It gives a node if none of the columns of numbers, latitudes
and longitudes has run out: the node has the next entry of each of them, the tags that start where
those of the node before it ended, and data about its version if there are any left. Otherwise
nothing changes.
-/

namespace MapArchive.DenseWalk

/-- A step that gives a node and leads from one state to another. -/
structure Gives (w : DenseWalk) (n : DenseNode) (v : DenseWalk) : Prop where
  /-- The number is the next one. -/
  id : w.id.next = (some n.id, v.id)
  /-- The latitude is the next one. -/
  lat : w.lat.next = (some n.lat, v.lat)
  /-- The longitude is the next one. -/
  lon : w.lon.next = (some n.lon, v.lon)
  /-- The tags are those at the place that was reached. -/
  tags : n.keysVals = (w.keysVals.extract w.tagIndex (tagsEnd w.keysVals w.tagIndex)).toList
  /-- The array of tags stays the same. -/
  array : v.keysVals = w.keysVals
  /-- The place moves on to the tags of the next node. -/
  tagIndex : v.tagIndex = (tagRange w.keysVals w.tagIndex).next
  /-- The data about the version are the next ones. -/
  info : nextInfo w.info w.visible = (n.info, v.info, v.visible)

variable {w v : DenseWalk} {n : DenseNode}

/-- A node is given from the next entries of the columns. -/
theorem gives_of_next (h : w.next = (some n, v)) : w.Gives n v := by
  unfold next at h
  split at h
  case h_1 id ids lat lats lon lons hid hlat hlon =>
    cases h
    exact ⟨hid, hlat, hlon, rfl, rfl, rfl, rfl⟩
  case h_2 => cases h

/-- A walk that gives nothing stays as it is. -/
theorem eq_of_next_none (h : w.next = (none, v)) : v = w := by
  unfold next at h
  split at h <;> cases h
  rfl

instance : Walk.Fused DenseWalk where
  next_of_none {s t} h := by
    obtain rfl := eq_of_next_none h
    exact h

/-! ## Numbers and coordinates -/

/-- The numbers, latitudes and longitudes to come, by their places. -/
def places (w : DenseWalk) : List (Int × Int × Int) :=
  (sums w.id.current w.id.deltas).zip
    ((sums w.lat.current w.lat.deltas).zip (sums w.lon.current w.lon.deltas))

/-- The place of a node that is given is the first one to come. -/
theorem places_of_gives (h : w.Gives n v) : w.places = (n.id, n.lat, n.lon) :: v.places := by
  rw [places, RunningSum.sums_of_next h.id, RunningSum.sums_of_next h.lat,
    RunningSum.sums_of_next h.lon]
  rfl

/-- If no node is given, no place is to come. -/
theorem places_of_next_none (h : w.next = (none, v)) : w.places = [] := by
  unfold next at h
  split at h
  case h_1 => cases h
  case h_2 hended =>
    unfold places
    rcases hid : w.id.next with ⟨_ | id, ids⟩
    · rw [RunningSum.sums_of_next_none hid, List.zip_nil_left]
    rcases hlat : w.lat.next with ⟨_ | lat, lats⟩
    · rw [RunningSum.sums_of_next_none hlat, List.zip_nil_left, List.zip_nil_right]
    rcases hlon : w.lon.next with ⟨_ | lon, lons⟩
    · rw [RunningSum.sums_of_next_none hlon, List.zip_nil_right, List.zip_nil_right]
    · exact (hended id ids lat lats lon lons hid hlat hlon).elim

/-- Nodes have the numbers, latitudes and longitudes at their places. -/
theorem map_toList (w : DenseWalk) :
    (Walk.toList w).map (fun n => (n.id, n.lat, n.lon)) = w.places := by
  rcases hnext : w.next with ⟨_ | n, v⟩
  · rw [Walk.toList_of_none (s := w) hnext, places_of_next_none hnext, List.map_nil]
  · have hlt := bound_next hnext
    rw [Walk.toList_of_some (s := w) hnext, places_of_gives (gives_of_next hnext), List.map_cons,
      map_toList v]
termination_by w.bound

/-- There are as many dense nodes as entries in the shortest of the three columns. -/
theorem length_toList (w : DenseWalk) :
    (Walk.toList w).length =
      min w.id.deltas.length (min w.lat.deltas.length w.lon.deltas.length) := by
  have hlength := congrArg List.length w.map_toList
  rw [List.length_map, places, List.length_zip, List.length_zip, length_sums, length_sums,
    length_sums] at hlength
  exact hlength

/-- What holds of a node at each state that it can be given in, and of all later ones if of the
states after it, holds of all nodes to come. -/
theorem getElem?_induction {P : DenseWalk → Nat → DenseNode → Prop}
    (hfirst : ∀ {w n v}, Gives w n v → P w 0 n)
    (hlater : ∀ {w n v}, Gives w n v → ∀ {i m}, P v i m → P w (i + 1) m) {i : Nat}
    (h : (Walk.toList w)[i]? = some n) : P w i n := by
  induction i generalizing w with
  | zero =>
    rcases hnext : w.next with ⟨_ | m, v⟩
    · rw [Walk.toList_of_none (s := w) hnext] at h
      cases h
    · rw [Walk.toList_of_some (s := w) hnext] at h
      cases h
      exact hfirst (gives_of_next hnext)
  | succ i ih =>
    rcases hnext : w.next with ⟨_ | m, v⟩
    · rw [Walk.toList_of_none (s := w) hnext] at h
      cases h
    · rw [Walk.toList_of_some (s := w) hnext, List.getElem?_cons_succ] at h
      exact hlater (gives_of_next hnext) (ih h)

end MapArchive.DenseWalk
