import MapArchive.Blob.Frame
import MapArchive.Compression.Stored

/-!
# Writing files

A file is written frame by frame: each message becomes the content of a blob, in one of three ways
of packing it. How content is compressed is left open; the functions at hand store it in the forms
that decompress to it.
-/

namespace MapArchive

/-- Ways to put content into a blob. -/
inductive Packing where
  /-- As it is. -/
  | raw
  /-- As a zlib stream. -/
  | zlib
  /-- As an xz stream. -/
  | lzma
  deriving DecidableEq, Repr

/-- Functions that compress content. -/
structure Compressors where
  /-- Makes a zlib stream. -/
  zlib : ByteArray → ByteArray
  /-- Makes an xz stream. -/
  lzma : ByteArray → ByteArray

/-- Functions that store content without making it shorter. -/
def Compressors.storing : Compressors := ⟨Zlib.store, Xz.store⟩

namespace BlobBody

/-- A blob with some content as it is and nothing else. -/
def ofRaw (content : ByteArray) : BlobBody := { empty with raw := some content }

/-- A blob with some content and its length. -/
def pack (compressors : Compressors) (packing : Packing) (content : ByteArray) : BlobBody :=
  let rawSize := some (Int32.ofNat content.size)
  match packing with
  | .raw => { empty with raw := some content, rawSize }
  | .zlib => { empty with zlib := some (compressors.zlib content), rawSize }
  | .lzma => { empty with lzma := some (compressors.lzma content), rawSize }

/-- A blob with a message in it. -/
def ofMessage {α : Type} [Message α] (compressors : Compressors) (packing : Packing)
    (message : α) : BlobBody :=
  pack compressors packing (Message.encode message)

end BlobBody

namespace Frame

/-- The header of content of some type. -/
def headerOf (type : String) (content : ByteArray) : BlobHeader :=
  ⟨ofOctets (Utf8.encode type.toList), none, Int32.ofNat content.size⟩

/-- Writes a blob of some type in its frame. -/
def write (type : String) (body : BlobBody) : ByteArray :=
  let content := Message.encode body
  let header := Message.encode (headerOf type content)
  ofOctets (Endian.big 4 header.size) ++ header ++ content

end Frame

/-- The features that a header asks for if nothing else is wanted. -/
def usualFeatures : List String := ["OsmSchema-V0.6", "DenseNodes"]

/-- A header which asks for some features. -/
def HeaderBlock.ofFeatures (requiredFeatures : List String) : HeaderBlock where
  box := none
  requiredFeatures
  optionalFeatures := ["Sort.Type_then_ID"]
  writingProgram := some "osmpbf-tests"
  source := none
  replicationTimestamp := none
  replicationSequenceNumber := none
  replicationBaseUrl := none

namespace Compressors

variable (compressors : Compressors)

/-- Writes a header in its frame. -/
def header (requiredFeatures : List String) (packing : Packing) : ByteArray :=
  Frame.write BlobType.headerName
    (BlobBody.ofMessage compressors packing (HeaderBlock.ofFeatures requiredFeatures))

/-- Writes a block in its frame. -/
def block (block : BlockMessage) (packing : Packing) : ByteArray :=
  Frame.write BlobType.dataName (BlobBody.ofMessage compressors packing block)

/-- Writes a file: a header, and blocks with the packing of each. -/
def file (requiredFeatures : List String) (packing : Packing)
    (blocks : List (BlockMessage × Packing)) : ByteArray :=
  blocks.foldl (fun file (block, packing) => file ++ compressors.block block packing)
    (compressors.header requiredFeatures packing)

end Compressors

/-- Writes a header in its frame. -/
def writeHeader : List String → Packing → ByteArray := Compressors.storing.header

/-- Writes a block in its frame. -/
def writeBlock : BlockMessage → Packing → ByteArray := Compressors.storing.block

/-- Writes a file: a header, and blocks with the packing of each. -/
def writeFile : List String → Packing → List (BlockMessage × Packing) → ByteArray :=
  Compressors.storing.file

end MapArchive
