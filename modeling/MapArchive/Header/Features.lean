import MapArchive.Error
import MapArchive.Geo.Degrees
import MapArchive.Message.Header

/-!
# What a header asks for

A header lists features that a reader must have. Those it does not have are given in the order of
their code points, so the answer does not depend on the order in the header. The area covered is
given in degrees.
-/

namespace MapArchive

/-- The features that this library has, in order. -/
def supportedFeatures : List String :=
  ["DenseNodes", "HistoricalInformation", "LocationsOnWays", "OsmSchema-V0.6"]

/-- An area on the globe, in degrees. -/
structure BoundingBox where
  /-- Western edge. -/
  left : Float
  /-- Eastern edge. -/
  right : Float
  /-- Northern edge. -/
  top : Float
  /-- Southern edge. -/
  bottom : Float

namespace HeaderBlock

/-- The required features that are not among the `supported` ones, sorted. -/
def unsupportedFeatures (header : HeaderBlock) (supported : List String) : List String :=
  (header.requiredFeatures.filter fun f => !supported.contains f).mergeSort
    fun a b => decide (a ≤ b)

/-- The area that the data cover. -/
def boundingBox (header : HeaderBlock) : Option BoundingBox :=
  header.box.map fun b =>
    { left := degreesOfNano b.left.toInt
      right := degreesOfNano b.right.toInt
      top := degreesOfNano b.top.toInt
      bottom := degreesOfNano b.bottom.toInt }

end HeaderBlock

end MapArchive
