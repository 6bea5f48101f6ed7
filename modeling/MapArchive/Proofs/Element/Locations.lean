import MapArchive.Proofs.Element.DenseStep
import MapArchive.Proofs.Element.Storage
import MapArchive.Proofs.RunningSum.Differences
import MapArchive.Proofs.Walk.InStep

/-!
# The places of the nodes of a way

A way may have the coordinates of its nodes in two columns of differences. The units of the block
are applied to the sums, not to the differences, so that each place is that of the node itself,
whether the node is stored as a message or in columns of its own.
-/

namespace MapArchive

/-! ## Coordinates in columns -/

/-- Two columns hold the differences of coordinates from zero, latitudes in the first one. -/
structure HoldCoordinates (lat lon : List Int64) (places : List (Int × Int)) : Prop where
  /-- The latitudes. -/
  lat : lat.map (·.toInt) = differences 0 (places.map Prod.fst)
  /-- The longitudes. -/
  lon : lon.map (·.toInt) = differences 0 (places.map Prod.snd)

variable {lat lon : List Int64} {places : List (Int × Int)}

/-- Coordinates are held by columns if the fields can hold their differences. -/
theorem holdCoordinates_ofInt (hlat : ∀ d ∈ differences 0 (places.map Prod.fst), IsInt64 d)
    (hlon : ∀ d ∈ differences 0 (places.map Prod.snd), IsInt64 d) :
    HoldCoordinates ((differences 0 (places.map Prod.fst)).map Int64.ofInt)
      ((differences 0 (places.map Prod.snd)).map Int64.ofInt) places :=
  ⟨NodeData.map_toInt_ofInt64 hlat, NodeData.map_toInt_ofInt64 hlon⟩

namespace HoldCoordinates

/-- The sums in two columns are the coordinates. -/
theorem zip_sums (h : HoldCoordinates lat lon places) :
    (sums 0 (lat.map (·.toInt))).zip (sums 0 (lon.map (·.toInt))) = places := by
  rw [h.lat, h.lon, sums_differences, sums_differences, ← List.unzip_fst, ← List.unzip_snd,
    List.zip_unzip]

/-- Dense nodes have the coordinates that their columns hold, if there are numbers for all. -/
theorem coordinates_dense {dense : DenseNodesMessage}
    (h : HoldCoordinates dense.lat dense.lon places) (hids : places.length ≤ dense.id.length) :
    (Walk.toList dense.walk).map (fun n => (n.lat, n.lon)) = places := by
  have hnodes : (Walk.toList dense.walk).map (fun n => (n.id, n.lat, n.lon)) =
      (sums 0 (dense.id.map (·.toInt))).zip
        ((sums 0 (dense.lat.map (·.toInt))).zip (sums 0 (dense.lon.map (·.toInt)))) :=
    dense.walk.map_toList
  have hlength : places.length ≤ (sums 0 (dense.id.map (·.toInt))).length := by
    rwa [length_sums, List.length_map]
  rw [h.zip_sums] at hnodes
  rw [← List.map_snd_zip hlength, ← hnodes, List.map_map]
  rfl

end HoldCoordinates

/-! ## Places of nodes -/

namespace WayMessage

variable {way : WayMessage} {p : Parameters}

/-- The places of the nodes of a way, taken off one column after the other. -/
def locationWalk (way : WayMessage) (p : Parameters) :
    Walk.Mapped (fun place : Int × Int => p.position place.1 place.2)
      (Walk.InStep RunningSum RunningSum) :=
  ⟨⟨.ofDeltas (way.lat.map (·.toInt)) 0, .ofDeltas (way.lon.map (·.toInt)) 0⟩⟩

/-- Taking the columns in turn gives the places, and nothing after them. -/
theorem givesJust_locationWalk (way : WayMessage) (p : Parameters) :
    Walk.GivesJust (way.locationWalk p) (way.nodePositions p) := by
  have hlats := RunningSum.givesJust_sums (.ofDeltas (way.lat.map (·.toInt)) 0)
  have hlons := RunningSum.givesJust_sums (.ofDeltas (way.lon.map (·.toInt)) 0)
  exact Walk.Mapped.givesJust_map (Walk.InStep.givesJust_zip hlats hlons)

/-- There are as many places as entries in the shorter column. -/
theorem length_nodePositions (way : WayMessage) (p : Parameters) :
    (way.nodePositions p).length = min way.lat.length way.lon.length := by
  rw [nodePositions, List.length_map, List.length_zip, length_sums, length_sums, List.length_map,
    List.length_map]

/-- A place is made of the sums of all differences up to it. -/
theorem getElem?_nodePositions {k : Nat} (hlat : k < way.lat.length) (hlon : k < way.lon.length) :
    (way.nodePositions p)[k]? = some
      (p.position ((way.lat.take (k + 1)).map (·.toInt)).sum
        ((way.lon.take (k + 1)).map (·.toInt)).sum) := by
  have hboth : ((sums 0 (way.lat.map (·.toInt))).zip (sums 0 (way.lon.map (·.toInt))))[k]? =
      some (((way.lat.take (k + 1)).map (·.toInt)).sum,
        ((way.lon.take (k + 1)).map (·.toInt)).sum) :=
    List.getElem?_zip_eq_some.mpr ⟨getElem?_sums_map hlat, getElem?_sums_map hlon⟩
  rw [nodePositions, List.getElem?_map, hboth, Option.map_some]

/-- The places of a way whose columns hold coordinates. -/
theorem nodePositions_eq (h : HoldCoordinates way.lat way.lon places) :
    way.nodePositions p = places.map fun place => p.position place.1 place.2 := by
  rw [nodePositions, h.zip_sums]

/-- The nodes of a way are where its columns put them.
- A way of any columns has as many places as the shorter column of coordinates has entries, and
  nothing comes after them, if entries are taken off one column after the other. Each place is made
  in nanodegrees of the offset, and the granularity times the sum of all differences up to it. The
  numbers of the nodes have no part in it.
- If the columns hold the differences of some coordinates, the places are those of the coordinates.
  Nodes that are stored one by one with these coordinates are at these places, and so are nodes in
  columns that hold them, as long as there are numbers for all.
- Coordinates are held by columns whenever the fields can hold their differences. -/
theorem locations_agree (p : Parameters) :
    (∀ way : WayMessage,
      let locations := way.nodePositions p
      locations.length = min way.lat.length way.lon.length ∧
      Walk.GivesJust (way.locationWalk p) locations ∧
      (∀ k, k < way.lat.length → k < way.lon.length → locations[k]? = some
        { lat := degreesOfNano
            (p.latOffset + p.granularity * ((way.lat.take (k + 1)).map (·.toInt)).sum)
          lon := degreesOfNano
            (p.lonOffset + p.granularity * ((way.lon.take (k + 1)).map (·.toInt)).sum) }) ∧
      ∀ refs, { way with refs }.nodePositions p = locations) ∧
    (∀ (places : List (Int × Int)) (way : WayMessage), HoldCoordinates way.lat way.lon places →
      let locations := way.nodePositions p
      (locations = places.map fun place =>
        { lat := degreesOfNano (p.latOffset + p.granularity * place.1)
          lon := degreesOfNano (p.lonOffset + p.granularity * place.2) }) ∧
      (∀ (nodes : List NodeMessage) (table : StringTable),
        nodes.map (fun n => (n.lat.toInt, n.lon.toInt)) = places →
        nodes.map (fun n => ((Element.node n).reading p table).position) =
          locations.map some) ∧
      ∀ (dense : DenseNodesMessage) (table : StringTable),
        HoldCoordinates dense.lat dense.lon places → places.length ≤ dense.id.length →
        (Walk.toList dense.walk).map (fun n => ((Element.denseNode n).reading p table).position) =
          locations.map some) ∧
    ∀ places : List (Int × Int), (∀ d ∈ differences 0 (places.map Prod.fst), IsInt64 d) →
      (∀ d ∈ differences 0 (places.map Prod.snd), IsInt64 d) →
      ∃ lat lon, HoldCoordinates lat lon places := by
  refine ⟨fun way => ?_, fun places way h => ?_, fun places hlat hlon =>
    ⟨_, _, holdCoordinates_ofInt hlat hlon⟩⟩
  · exact ⟨way.length_nodePositions p, way.givesJust_locationWalk p,
      fun k => getElem?_nodePositions, fun refs => rfl⟩
  · have hplaces : way.nodePositions p = places.map fun place => p.position place.1 place.2 :=
      nodePositions_eq h
    refine ⟨hplaces, fun nodes table hnodes => ?_, fun dense table hdense hids => ?_⟩
    · rw [hplaces, ← hnodes, List.map_map, List.map_map]
      rfl
    · rw [hplaces, ← hdense.coordinates_dense hids, List.map_map, List.map_map]
      rfl

/-- A way that has places for three nodes, and a number for only one. -/
def detour : WayMessage where
  id := 1
  keys := []
  vals := []
  info := none
  refs := [5]
  lat := [100, -250, 0]
  lon := [-40, 90, 7]

/-- Three nodes in columns with the same differences of coordinates. -/
def detourColumns : DenseNodesMessage where
  id := [5, 1, 1]
  info := none
  lat := [100, -250, 0]
  lon := [-40, 90, 7]
  keysVals := []

/-- In units of a thousand nanodegrees, and with offsets of either sign, the third place of the way
is where the third node is that is stored in columns. -/
theorem detour_agrees :
    let p : Parameters := ⟨1000, -7, 20, 1000⟩
    HoldCoordinates detour.lat detour.lon [(100, -40), (-150, 50), (-150, 57)] ∧
      (detour.nodePositions p)[2]? = some ⟨degreesOfNano (-150007), degreesOfNano 57020⟩ ∧
      (Walk.toList detourColumns.walk).map
          (fun n => ((Element.denseNode n).reading p ⟨#[]⟩).position) =
        (detour.nodePositions p).map some := by
  intro p
  obtain ⟨hany, hagree, -⟩ := locations_agree p
  have hway : HoldCoordinates detour.lat detour.lon [(100, -40), (-150, 50), (-150, 57)] :=
    ⟨by decide, by decide⟩
  obtain ⟨-, -, hplaces, -⟩ := hany detour
  exact ⟨hway, hplaces 2 (by decide) (by decide),
    (hagree _ detour hway).2.2 detourColumns ⟨#[]⟩ hway (by decide)⟩

end WayMessage

end MapArchive
