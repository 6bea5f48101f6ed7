import MapArchive.Blob.Content
import MapArchive.Proofs.Message.Block
import MapArchive.Proofs.Message.Envelope
import MapArchive.Proofs.Message.Header
import MapArchive.Writer.Sample

/-!
# Reading what was written: all types of messages

The formats know fourteen types of messages, two of the outer layer and twelve of what is stored in
blobs. `MessageType` names them, so that what holds of the messages of every type can be said at
once: whatever its fields hold, a message is read back from its bytes just as it was.
-/

namespace MapArchive

/-- The types of messages. -/
inductive MessageType where
  /-- Blobs. -/
  | blob
  /-- What stands in front of a blob. -/
  | blobHeader
  /-- Headers of files. -/
  | headerBlock
  /-- Areas in headers of files. -/
  | headerBox
  /-- Blocks of map data. -/
  | block
  /-- Groups of elements. -/
  | group
  /-- String tables. -/
  | stringTable
  /-- Data about the version of an element. -/
  | info
  /-- Data about the versions of dense nodes. -/
  | denseInfo
  /-- Sets of changes. -/
  | changeSet
  /-- Nodes. -/
  | node
  /-- Nodes as columns. -/
  | denseNodes
  /-- Ways. -/
  | way
  /-- Relations. -/
  | relation
  deriving DecidableEq, Repr

namespace MessageType

/-- The messages of a type. -/
def Carrier : MessageType → Type
  | .blob => BlobBody
  | .blobHeader => BlobHeader
  | .headerBlock => HeaderBlock
  | .headerBox => HeaderBox
  | .block => BlockMessage
  | .group => GroupMessage
  | .stringTable => StringTable
  | .info => InfoMessage
  | .denseInfo => DenseInfoMessage
  | .changeSet => ChangeSetMessage
  | .node => NodeMessage
  | .denseNodes => DenseNodesMessage
  | .way => WayMessage
  | .relation => RelationMessage

instance (type : MessageType) : Message type.Carrier :=
  match type with
  | .blob => inferInstanceAs (Message BlobBody)
  | .blobHeader => inferInstanceAs (Message BlobHeader)
  | .headerBlock => inferInstanceAs (Message HeaderBlock)
  | .headerBox => inferInstanceAs (Message HeaderBox)
  | .block => inferInstanceAs (Message BlockMessage)
  | .group => inferInstanceAs (Message GroupMessage)
  | .stringTable => inferInstanceAs (Message StringTable)
  | .info => inferInstanceAs (Message InfoMessage)
  | .denseInfo => inferInstanceAs (Message DenseInfoMessage)
  | .changeSet => inferInstanceAs (Message ChangeSetMessage)
  | .node => inferInstanceAs (Message NodeMessage)
  | .denseNodes => inferInstanceAs (Message DenseNodesMessage)
  | .way => inferInstanceAs (Message WayMessage)
  | .relation => inferInstanceAs (Message RelationMessage)

/-- A blob keeps what it has of unknown fields, which has to be sound, as it is if there is nothing.
In the messages of all other types there is nothing that could be amiss. -/
def Sound : (type : MessageType) → type.Carrier → Prop
  | .blob, body => BlobBody.Sound body
  | _, _ => True

/-- A message of any type is read back from its bytes, the same in every field: presence, numbers,
texts, sequences and submessages. It has to be one that can be stored, as no byte string and no
submessage may be longer than a length in front of it can say. -/
theorem messages_are_read_back (type : MessageType) (message : type.Carrier) (location : String)
    (hsound : type.Sound message) (hstorable : Message.Storable message) :
    readMessage type.Carrier location (Message.encode message) = .ok message := by
  have hdecode : Message.decode (Message.encode message) = some message := by
    cases type with
    | blob => exact BlobBody.decode_encode_of_storable hsound hstorable
    | blobHeader => exact Message.decode_encode_of_storable (α := BlobHeader) hstorable
    | headerBlock => exact Message.decode_encode_of_storable (α := HeaderBlock) hstorable
    | headerBox => exact Message.decode_encode_of_storable (α := HeaderBox) hstorable
    | block => exact Message.decode_encode_of_storable (α := BlockMessage) hstorable
    | group => exact Message.decode_encode_of_storable (α := GroupMessage) hstorable
    | stringTable => exact Message.decode_encode_of_storable (α := StringTable) hstorable
    | info => exact Message.decode_encode_of_storable (α := InfoMessage) hstorable
    | denseInfo => exact Message.decode_encode_of_storable (α := DenseInfoMessage) hstorable
    | changeSet => exact Message.decode_encode_of_storable (α := ChangeSetMessage) hstorable
    | node => exact Message.decode_encode_of_storable (α := NodeMessage) hstorable
    | denseNodes => exact Message.decode_encode_of_storable (α := DenseNodesMessage) hstorable
    | way => exact Message.decode_encode_of_storable (α := WayMessage) hstorable
    | relation => exact Message.decode_encode_of_storable (α := RelationMessage) hstorable
  rw [readMessage, hdecode]

/-- A block with the least and the greatest numbers, a field that holds zero and one that holds its
default, and submessages that are present but hold nothing. -/
def extremes : BlockMessage where
  stringTable := .ofTexts ["", "ü"]
  groups :=
    [Sample.emptyGroup,
      { Sample.emptyGroup with
        nodes := [⟨Int64.minValue, [0xFFFFFFFF, 0], [], some ⟨none, none, none, none, none, none⟩,
          Int64.maxValue, -1⟩]
        dense := some ⟨[], none, [], [], [Int32.minValue, -1, Int32.maxValue]⟩
        relations := [⟨-1, [], [], some ⟨some Int32.minValue, some Int64.minValue, some 0, none,
          some 0xFFFFFFFF, some false⟩, [-1], [Int64.minValue, Int64.maxValue], [.relation]⟩] }]
  granularity := some 100
  latOffset := some 0
  lonOffset := none
  dateGranularity := some (-1)

/-- A block with such numbers is read back. -/
theorem extremes_are_read_back :
    readMessage BlockMessage "blob data" (Message.encode extremes) = .ok extremes := by
  have hstorable : Message.Storable extremes := Message.storable_of_size (by decide +kernel)
  exact messages_are_read_back .block extremes "blob data" trivial hstorable

end MessageType

end MapArchive
