import MapArchive.Block.StringTable
import MapArchive.Element.Parameters

/-!
# Data about the version of an element

An element may tell its version, when and by whom it was made, and whether it exists in it. Each of
these may be absent. For dense nodes they are present all or none, and so have a type of their own.
-/

namespace MapArchive

/-- Data about the version of an element, each of which may be absent. -/
structure Info where
  /-- The number of the version. -/
  version : Option Int
  /-- The time, in units of the block. -/
  timestamp : Option Int
  /-- The set of changes that the version belongs to. -/
  changeset : Option Int
  /-- The number of the user. -/
  uid : Option Int
  /-- The name of the user, as an index. -/
  userSid : Option Int
  /-- Whether the element exists; it does unless it is said not to. -/
  visible : Bool
  deriving DecidableEq, Repr

/-- The data in a message. An absent message tells as little as an empty one. -/
def Info.ofMessage? : Option InfoMessage → Info
  | none => ⟨none, none, none, none, none, true⟩
  | some m =>
    { version := m.version.map (·.toInt)
      timestamp := m.timestamp.map (·.toInt)
      changeset := m.changeset.map (·.toInt)
      uid := m.uid.map (·.toInt)
      userSid := m.userSid.map fun sid => (sid.toNat : Int)
      visible := m.visible.getD true }

/-- The time in milliseconds since 1970. -/
def Info.milliTimestamp (info : Info) (p : Parameters) : Option Int :=
  info.timestamp.map p.milliTimestamp

/-- The name of the user. -/
def Info.user (info : Info) (table : StringTable) : Option (Except ArchiveError String) :=
  info.userSid.map table.resolve

/-- Data about the version of a dense node. -/
structure DenseInfo where
  /-- The number of the version. -/
  version : Int
  /-- The time, in units of the block. -/
  timestamp : Int
  /-- The set of changes that the version belongs to. -/
  changeset : Int
  /-- The number of the user. -/
  uid : Int
  /-- The name of the user, as an index. -/
  userSid : Int
  /-- Whether the node exists; it does unless it is said not to. -/
  visible : Bool
  deriving DecidableEq, Repr

/-- The time in milliseconds since 1970. -/
def DenseInfo.milliTimestamp (info : DenseInfo) (p : Parameters) : Int :=
  p.milliTimestamp info.timestamp

/-- The name of the user. -/
def DenseInfo.user (info : DenseInfo) (table : StringTable) : Except ArchiveError String :=
  table.resolve info.userSid

end MapArchive
