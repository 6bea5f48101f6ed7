import MapArchive.Proofs.Element.DenseStep
import MapArchive.Proofs.Walk.InStep
import Mathlib.Data.List.Basic

/-!
# The columns of dense nodes stay aligned

The columns of dense nodes may be of any lengths. A node has what stands at its place in each of
them, be it an entry as it is or the sum of the differences up to there; data about versions end
with the shortest of their columns, and visibility, which is no such column, is taken as granted
where it has run out.

The columns may also be taken in turn, so that entries are lost where a later column has run out
before an earlier one. As no node is given once that has happened, the nodes are the same.
-/

namespace MapArchive

/-! ## Data about versions -/

namespace InfoColumns

/-- The entries to come, by their places. -/
def entries (c : InfoColumns) : List (Int × Int × Int × Int × Int) :=
  c.version.zip ((sums c.timestamp.current c.timestamp.deltas).zip
    ((sums c.changeset.current c.changeset.deltas).zip
      ((sums c.uid.current c.uid.deltas).zip (sums c.userSid.current c.userSid.deltas))))

/-- Either a column has run out, or an entry is taken off each of them. -/
theorem next?_cases (c : InfoColumns) :
    (c.next? = none ∧ c.entries = []) ∨
    ∃ version timestamp changeset uid userSid rest,
      c.next? = some (DenseInfo.mk version timestamp changeset uid userSid, rest) ∧
      c.entries = (version, timestamp, changeset, uid, userSid) :: rest.entries := by
  obtain ⟨versions, ⟨timestamps, timestamp⟩, ⟨changesets, changeset⟩, ⟨uids, uid⟩,
    ⟨userSids, userSid⟩⟩ := c
  rcases versions with _ | ⟨v, versions⟩
  · exact .inl ⟨rfl, rfl⟩
  rcases timestamps with _ | ⟨t, timestamps⟩
  · exact .inl ⟨rfl, by simp [entries]⟩
  rcases changesets with _ | ⟨c, changesets⟩
  · exact .inl ⟨rfl, by simp [entries]⟩
  rcases uids with _ | ⟨u, uids⟩
  · exact .inl ⟨rfl, by simp [entries]⟩
  rcases userSids with _ | ⟨s, userSids⟩
  · exact .inl ⟨rfl, by simp [entries]⟩
  · exact .inr ⟨_, _, _, _, _, _, rfl, by simp [entries]⟩

end InfoColumns

namespace DenseWalk

/-- The data about the version of the node at a place. -/
def infoAt (info : Option InfoColumns) (visible : List Bool) (i : Nat) : Option DenseInfo :=
  (info.bind fun columns => columns.entries[i]?).map
    fun (version, timestamp, changeset, uid, userSid) =>
      ⟨version, timestamp, changeset, uid, userSid, (visible[i]?).getD true⟩

/-- The data that are taken are those of the first node, and those left are of the later ones. -/
theorem nextInfo_eq (info : Option InfoColumns) (visible : List Bool) :
    (nextInfo info visible).1 = infoAt info visible 0 ∧
      ∀ i, infoAt (nextInfo info visible).2.1 (nextInfo info visible).2.2 i =
        infoAt info visible (i + 1) := by
  cases info with
  | none => exact ⟨rfl, fun _ => rfl⟩
  | some columns =>
    obtain ⟨hnext, hentries⟩ |
      ⟨version, timestamp, changeset, uid, userSid, rest, hnext, hentries⟩ := columns.next?_cases
    · simp [nextInfo, hnext, infoAt, hentries]
    · cases visible <;> simp [nextInfo, hnext, infoAt, hentries]

/-- Nodes have the data about versions at their places. -/
theorem info_of_getElem? {w : DenseWalk} {i : Nat} {n : DenseNode}
    (h : (Walk.toList w)[i]? = some n) : n.info = infoAt w.info w.visible i := by
  refine getElem?_induction (P := fun w i n => n.info = infoAt w.info w.visible i) ?_ ?_ h
  · intro w n v hstep
    have hfirst := (nextInfo_eq w.info w.visible).1
    rwa [hstep.info] at hfirst
  · intro w n v hstep i m hlater
    have hrest := (nextInfo_eq w.info w.visible).2 i
    rw [hstep.info] at hrest
    exact hlater.trans hrest

end DenseWalk

/-! ## Columns that are taken in turn -/

/-- Columns of data about versions that are taken in turn. -/
abbrev InfoRows : Type :=
  Walk.InStep (List Int) (Walk.InStep RunningSum (Walk.InStep RunningSum
    (Walk.InStep RunningSum RunningSum)))

/-- Dense nodes that are being walked through, the columns taken in turn. -/
structure DenseColumns where
  /-- The numbers, latitudes and longitudes to come. -/
  places : Walk.InStep RunningSum (Walk.InStep RunningSum RunningSum)
  /-- The tags of all nodes. -/
  keysVals : Array Int
  /-- Where the tags of the next node start. -/
  tagIndex : Nat
  /-- The data about versions to come. -/
  info : Option InfoRows
  /-- The visibilities to come. -/
  visible : List Bool

namespace DenseColumns

/-- Takes the data about the version of the next node. Once a column has run out, all of them are
given up. -/
def nextInfo (info : Option InfoRows) (visible : List Bool) :
    Option DenseInfo × Option InfoRows × List Bool :=
  match info with
  | none => (none, none, visible)
  | some rows =>
    match Walk.next rows with
    | (none, _) => (none, none, visible)
    | (some (version, timestamp, changeset, uid, userSid), rest) =>
      match visible with
      | [] => (some ⟨version, timestamp, changeset, uid, userSid, true⟩, some rest, [])
      | v :: later => (some ⟨version, timestamp, changeset, uid, userSid, v⟩, some rest, later)

/-- Gives the next node. Entries that were taken off columns before one that had run out are
lost. -/
def next (w : DenseColumns) : Option DenseNode × DenseColumns :=
  match Walk.next w.places with
  | (none, places) => (none, { w with places })
  | (some (id, lat, lon), places) =>
    let range := tagRange w.keysVals w.tagIndex
    let keysVals := (w.keysVals.extract range.first range.stop).toList
    let (info, rows, visible) := nextInfo w.info w.visible
    (some ⟨id, lat, lon, keysVals, info⟩, ⟨places, w.keysVals, range.next, rows, visible⟩)

instance : Walk DenseColumns DenseNode where
  next := next
  bound w := Walk.bound w.places
  bound_next {s t a} h := by
    unfold next at h
    split at h
    · cases h
    case h_2 id lat lon places hplaces =>
      cases h
      exact Walk.bound_next hplaces

end DenseColumns

/-- The columns of data about versions, to be taken in turn. -/
def InfoColumns.inTurn (c : InfoColumns) : InfoRows :=
  ⟨c.version, c.timestamp, c.changeset, c.uid, c.userSid⟩

/-- The columns of a walk, to be taken in turn. -/
def DenseWalk.inTurn (w : DenseWalk) : DenseColumns :=
  ⟨⟨w.id, w.lat, w.lon⟩, w.keysVals, w.tagIndex, w.info.map InfoColumns.inTurn, w.visible⟩

/-- Taken in turn, columns of data about versions give their entries. -/
theorem InfoColumns.givesJust_inTurn (c : InfoColumns) : Walk.GivesJust c.inTurn c.entries :=
  Walk.InStep.givesJust_zip (Walk.givesJust_list c.version)
    (Walk.InStep.givesJust_zip c.timestamp.givesJust_sums
      (Walk.InStep.givesJust_zip c.changeset.givesJust_sums
        (Walk.InStep.givesJust_zip c.uid.givesJust_sums c.userSid.givesJust_sums)))

namespace DenseColumns

/-- The columns give what is to come in a walk. -/
structure Matches (c : DenseColumns) (w : DenseWalk) : Prop where
  /-- Numbers, latitudes and longitudes. -/
  places : Walk.GivesJust c.places w.places
  /-- The array of tags is the same. -/
  keysVals : c.keysVals = w.keysVals
  /-- The place in it is the same. -/
  tagIndex : c.tagIndex = w.tagIndex
  /-- Data about versions. -/
  info : Option.Rel (fun rows columns => Walk.GivesJust rows columns.entries) c.info w.info
  /-- The visibilities are the same. -/
  visible : c.visible = w.visible

/-- The columns of a walk, asked in turn, match the walk. -/
theorem matches_inTurn (w : DenseWalk) : w.inTurn.Matches w where
  places := Walk.InStep.givesJust_zip w.id.givesJust_sums
    (Walk.InStep.givesJust_zip w.lat.givesJust_sums w.lon.givesJust_sums)
  keysVals := rfl
  tagIndex := rfl
  info := by
    unfold DenseWalk.inTurn
    cases w.info with
    | none => exact .none
    | some columns => exact .some columns.givesJust_inTurn
  visible := rfl

/-- The same data about a version are taken, and the columns left give the data left. -/
theorem nextInfo_matches {rows : Option InfoRows} {columns : Option InfoColumns}
    (h : Option.Rel (fun rows columns => Walk.GivesJust rows columns.entries) rows columns)
    (visible : List Bool) :
    (nextInfo rows visible).1 = (DenseWalk.nextInfo columns visible).1 ∧
      Option.Rel (fun rows columns => Walk.GivesJust rows columns.entries)
        (nextInfo rows visible).2.1 (DenseWalk.nextInfo columns visible).2.1 ∧
      (nextInfo rows visible).2.2 = (DenseWalk.nextInfo columns visible).2.2 := by
  cases h with
  | none => exact ⟨rfl, .none, rfl⟩
  | @some rows columns hrows =>
    obtain ⟨hnext, hentries⟩ |
      ⟨version, timestamp, changeset, uid, userSid, rest, hnext, hentries⟩ := columns.next?_cases
    · rw [hentries] at hrows
      obtain ⟨ended, hrow, -⟩ := Walk.givesJust_nil_iff.mp hrows
      simp only [nextInfo, hrow, DenseWalk.nextInfo, hnext]
      exact ⟨trivial, .none, trivial⟩
    · rw [hentries] at hrows
      obtain ⟨later, hrow, hlater⟩ := Walk.givesJust_cons_iff.mp hrows
      cases visible <;> simp only [nextInfo, hrow, DenseWalk.nextInfo, hnext] <;>
        exact ⟨trivial, .some hlater, trivial⟩

/-- Both give the same node, or none, and still match afterwards. -/
theorem matches_next {c : DenseColumns} {w : DenseWalk} (h : c.Matches w) :
    (Walk.next c).1 = (Walk.next w).1 ∧ Matches (Walk.next c).2 (Walk.next w).2 := by
  change (next c).1 = w.next.1 ∧ Matches (next c).2 w.next.2
  have hplaces := h.places
  rcases hnext : w.next with ⟨_ | n, v⟩
  · rw [DenseWalk.places_of_next_none hnext] at hplaces
    obtain ⟨places, hrow, hended⟩ := Walk.givesJust_nil_iff.mp hplaces
    obtain rfl := DenseWalk.eq_of_next_none hnext
    rw [next, hrow]
    refine ⟨rfl, ?_, h.keysVals, h.tagIndex, h.info, h.visible⟩
    rwa [DenseWalk.places_of_next_none hnext]
  · have hstep := DenseWalk.gives_of_next hnext
    rw [DenseWalk.places_of_gives hstep] at hplaces
    obtain ⟨places, hrow, hlater⟩ := Walk.givesJust_cons_iff.mp hplaces
    obtain ⟨hinfo, hrows, hvisible⟩ := nextInfo_matches h.info c.visible
    rw [h.visible, hstep.info] at hinfo hrows hvisible
    rw [next, hrow]
    refine ⟨?_, hlater, ?_, ?_, ?_, ?_⟩
    · dsimp only
      rw [h.keysVals, h.tagIndex, h.visible, hinfo]
      exact congrArg (fun tags => some (DenseNode.mk n.id n.lat n.lon tags n.info)) hstep.tags.symm
    · exact h.keysVals.trans hstep.array.symm
    · rw [hstep.tagIndex, ← h.keysVals, ← h.tagIndex]
    · rw [h.visible]
      exact hrows
    · rw [h.visible]
      exact hvisible

/-- Taking the columns in turn gives the same nodes. -/
theorem nexts_inTurn (w : DenseWalk) (n : Nat) : Walk.nexts n w.inTurn = Walk.nexts n w :=
  Walk.nexts_eq_of_related (R := Matches) (fun _ _ => matches_next) (matches_inTurn w) n

end DenseColumns

/-! ## What stands at the place of a node -/

/-- How many nodes have data about their versions: the length of the shortest column. Visibility is
not among the columns. -/
def DenseInfoMessage.count (columns : DenseInfoMessage) : Nat :=
  min columns.version.length (min columns.timestamp.length
    (min columns.changeset.length (min columns.uid.length columns.userSid.length)))

/-- The data about a version are those at a place of the columns. -/
structure DenseInfo.StandsAt (info : DenseInfo) (columns : DenseInfoMessage) (i : Nat) : Prop where
  /-- The version is stored as it is. -/
  version : (columns.version[i]?).map (·.toInt) = some info.version
  /-- The time is a sum of differences. -/
  timestamp : info.timestamp = ((columns.timestamp.take (i + 1)).map (·.toInt)).sum
  /-- The set of changes is a sum of differences. -/
  changeset : info.changeset = ((columns.changeset.take (i + 1)).map (·.toInt)).sum
  /-- The user is a sum of differences. -/
  uid : info.uid = ((columns.uid.take (i + 1)).map (·.toInt)).sum
  /-- The index of the user's name is a sum of differences. -/
  userSid : info.userSid = ((columns.userSid.take (i + 1)).map (·.toInt)).sum
  /-- The visibility is stored as it is, or taken as granted. -/
  visible : info.visible = (columns.visible[i]?).getD true

namespace DenseInfoMessage

/-- There are as many entries as the columns say. -/
theorem length_entries (columns : DenseInfoMessage) :
    columns.columns.entries.length = columns.count := by
  simp [InfoColumns.entries, DenseInfoMessage.columns, RunningSum.ofDeltas, count]

/-- An entry is made of what stands at its place in each of the columns. -/
theorem standsAt_of_getElem? {columns : DenseInfoMessage} {i : Nat}
    {version timestamp changeset uid userSid : Int}
    (h : columns.columns.entries[i]? = some (version, timestamp, changeset, uid, userSid)) :
    (DenseInfo.mk version timestamp changeset uid userSid
      ((columns.visible[i]?).getD true)).StandsAt columns i := by
  simp only [InfoColumns.entries, List.getElem?_zip_eq_some, DenseInfoMessage.columns,
    RunningSum.ofDeltas] at h
  obtain ⟨hversion, htimestamp, hchangeset, huid, huserSid⟩ := h
  rw [List.getElem?_map] at hversion
  exact ⟨hversion, eq_of_getElem?_sums htimestamp, eq_of_getElem?_sums hchangeset,
    eq_of_getElem?_sums huid, eq_of_getElem?_sums huserSid, rfl⟩

end DenseInfoMessage

namespace DenseNodesMessage

/-- The data about the version of a node are those at its place; they are absent if the message has
none or they have run out before. -/
theorem infoAt_walk (dense : DenseNodesMessage) (i : Nat) :
    (DenseWalk.infoAt dense.walk.info dense.walk.visible i = none ↔
      ∀ columns, dense.info = some columns → columns.count ≤ i) ∧
    ∀ info, DenseWalk.infoAt dense.walk.info dense.walk.visible i = some info →
      ∃ columns, dense.info = some columns ∧ info.StandsAt columns i := by
  cases hinfo : dense.info with
  | none => simp [DenseWalk.infoAt, walk, hinfo]
  | some columns =>
    have hat : DenseWalk.infoAt dense.walk.info dense.walk.visible i =
        (columns.columns.entries[i]?).map fun (version, timestamp, changeset, uid, userSid) =>
          ⟨version, timestamp, changeset, uid, userSid, (columns.visible[i]?).getD true⟩ := by
      simp [DenseWalk.infoAt, walk, hinfo]
    rw [hat]
    constructor
    · simp [columns.length_entries]
    · intro info h
      obtain ⟨⟨version, timestamp, changeset, uid, userSid⟩, hentry, rfl⟩ :=
        Option.map_eq_some_iff.mp h
      exact ⟨columns, rfl, DenseInfoMessage.standsAt_of_getElem? hentry⟩

/-- The columns of dense nodes stay aligned, whatever their lengths.
- There are as many nodes as entries in the shortest of the columns of numbers, latitudes and
  longitudes, and nothing is given after them, however often the walk is asked. It makes no
  difference whether entries are taken off all columns at once or in turn, where they are lost if a
  later column has run out.
- The number, latitude and longitude of a node are the sums of the differences up to its place.
- A node has data about its version just if the message has them and its place is within the
  shortest of their columns. They are those at its place: the version as it is stored there, the
  sums of the differences of times, sets of changes, users and indices of names up to there, and the
  visibility stored there, or else that the node is visible. So once a node has none, no later one
  has any.
- The time in milliseconds is the time in units of the block. -/
theorem columns_stay_aligned (block : BlockMessage) (dense : DenseNodesMessage) :
    ∃ nodes : List DenseNode,
      nodes.length = min dense.id.length (min dense.lat.length dense.lon.length) ∧
      Walk.GivesJust dense.walk nodes ∧ Walk.GivesJust dense.walk.inTurn nodes ∧
      (∀ i n, nodes[i]? = some n →
        n.id = ((dense.id.take (i + 1)).map (·.toInt)).sum ∧
        n.lat = ((dense.lat.take (i + 1)).map (·.toInt)).sum ∧
        n.lon = ((dense.lon.take (i + 1)).map (·.toInt)).sum ∧
        (n.info = none ↔ ∀ columns, dense.info = some columns → columns.count ≤ i) ∧
        ∀ info, n.info = some info → ∃ columns, dense.info = some columns ∧
          info.StandsAt columns i ∧ info.milliTimestamp block.parameters =
            info.timestamp * (block.dateGranularity.getD 1000).toInt) ∧
      ∀ (i j : Nat) (n m : DenseNode), i ≤ j → nodes[i]? = some n → nodes[j]? = some m →
        n.info = none → m.info = none := by
  have hjust : Walk.GivesJust dense.walk (Walk.toList dense.walk) :=
    Walk.givesJust_toList dense.walk
  have hnone : ∀ i n, (Walk.toList dense.walk)[i]? = some n →
      (n.info = none ↔ ∀ columns, dense.info = some columns → columns.count ≤ i) := by
    intro i n hn
    rw [DenseWalk.info_of_getElem? hn]
    exact (dense.infoAt_walk i).1
  refine ⟨Walk.toList dense.walk, ?_, hjust, fun k => ?_, fun i n hn => ?_, ?_⟩
  · simp [DenseWalk.length_toList, walk, RunningSum.ofDeltas]
  · rw [DenseColumns.nexts_inTurn]
    exact hjust k
  · have hplace : dense.walk.places[i]? = some (n.id, n.lat, n.lon) := by
      rw [← DenseWalk.map_toList, List.getElem?_map, hn]
      rfl
    simp only [DenseWalk.places, List.getElem?_zip_eq_some, walk, RunningSum.ofDeltas] at hplace
    obtain ⟨hid, hlat, hlon⟩ := hplace
    refine ⟨eq_of_getElem?_sums hid, eq_of_getElem?_sums hlat, eq_of_getElem?_sums hlon,
      hnone i n hn, fun info hinfo => ?_⟩
    rw [DenseWalk.info_of_getElem? hn] at hinfo
    obtain ⟨columns, hcolumns, hstands⟩ := (dense.infoAt_walk i).2 info hinfo
    exact ⟨columns, hcolumns, hstands, rfl⟩
  · intro i j n m hle hn hm hinfo
    rw [hnone i n hn] at hinfo
    rw [hnone j m hm]
    exact fun columns hcolumns => Nat.le_trans (hinfo columns hcolumns) hle

/-- Columns of unequal lengths: three numbers, two latitudes and four longitudes, and a single time
in the data about versions. -/
def ragged : DenseNodesMessage where
  id := [5, -2, 7]
  info := some
    { version := [3, 4]
      timestamp := [100]
      changeset := [1, 2, 3]
      uid := [9, 9]
      userSid := [1, 1]
      visible := [] }
  lat := [10, 20]
  lon := [1, 2, 3, 4]
  keysVals := []

/-- Two nodes are made of these columns, also if they are taken in turn. The first one has data
about its version and is visible, the second one has none. -/
theorem ragged_columns_stay_aligned :
    ∃ first second : DenseNode, Walk.GivesJust ragged.walk.inTurn [first, second] ∧
      (∃ info, first.info = some info ∧ info.timestamp = 100 ∧ info.visible = true) ∧
      second.id = 3 ∧ second.lat = 30 ∧ second.info = none := by
  obtain ⟨nodes, hlength, -, hjust, hplaces, -⟩ :=
    columns_stay_aligned ⟨⟨#[]⟩, [], none, none, none, none⟩ ragged
  obtain ⟨first, second, rfl⟩ := List.length_eq_two.mp hlength
  obtain ⟨-, -, -, hfirst, hdata⟩ := hplaces 0 first rfl
  obtain ⟨hid, hlat, -, hsecond, -⟩ := hplaces 1 second rfl
  refine ⟨first, second, hjust, ?_, hid, hlat, hsecond.mpr fun columns hcolumns => ?_⟩
  · cases hinfo : first.info with
    | none => exact absurd (hfirst.mp hinfo _ rfl) (by decide)
    | some info =>
      obtain ⟨columns, hcolumns, hstands, -⟩ := hdata info hinfo
      cases hcolumns
      exact ⟨info, rfl, hstands.timestamp, hstands.visible⟩
  · cases hcolumns
    decide

end DenseNodesMessage

end MapArchive
