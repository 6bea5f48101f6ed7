import MapArchive.Geo.Degrees
import MapArchive.Message.Block

/-!
# Units of a block

Coordinates and times are stored in units that each block chooses for itself, and coordinates
relative to an offset. All arithmetic is on exact integers.
-/

namespace MapArchive

/-- The units of a block. -/
structure Parameters where
  /-- Nanodegrees in a unit of the coordinates. -/
  granularity : Int
  /-- Nanodegrees to be added to each latitude. -/
  latOffset : Int
  /-- Nanodegrees to be added to each longitude. -/
  lonOffset : Int
  /-- Milliseconds in a unit of time. -/
  dateGranularity : Int
  deriving DecidableEq, Repr

/-- The units of a block; those it does not give have the usual size. -/
def BlockMessage.parameters (block : BlockMessage) : Parameters where
  granularity := (block.granularity.getD 100).toInt
  latOffset := (block.latOffset.getD 0).toInt
  lonOffset := (block.lonOffset.getD 0).toInt
  dateGranularity := (block.dateGranularity.getD 1000).toInt

namespace Parameters

/-- A stored latitude in nanodegrees. -/
def latNano (p : Parameters) (stored : Int) : Int := p.latOffset + p.granularity * stored

/-- A stored longitude in nanodegrees. -/
def lonNano (p : Parameters) (stored : Int) : Int := p.lonOffset + p.granularity * stored

/-- The place with the stored coordinates. -/
def position (p : Parameters) (lat lon : Int) : Position :=
  ⟨degreesOfNano (p.latNano lat), degreesOfNano (p.lonNano lon)⟩

/-- A stored time in milliseconds since 1970. -/
def milliTimestamp (p : Parameters) (stored : Int) : Int := stored * p.dateGranularity

end Parameters

end MapArchive
