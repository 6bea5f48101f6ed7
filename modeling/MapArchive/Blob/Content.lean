import MapArchive.Compression.Bzip2.Stream
import MapArchive.Compression.Xz
import MapArchive.Compression.Zlib
import MapArchive.Error
import MapArchive.Message.Envelope

/-!
# The content of a blob

The content of a blob is a message. It is stored as it is or compressed; of several fields that are
present the first one counts, in the order of the fields, with the exception that the length given
for the content never counts. Content that is too long is not read: for compressed content this is
found out while it is decompressed, whatever length is given.
-/

namespace MapArchive

/-- Content may be so long. Content stored as it is has to be shorter. -/
def maxContentSize : Nat := 32 * 1024 * 1024

/-- Ways of compression that can be decompressed. -/
inductive Codec where
  /-- A zlib stream. -/
  | zlib
  /-- An xz stream, an lzip member or an LZMA file of the old form. -/
  | lzma
  /-- A bzip2 stream. -/
  | bzip2
  deriving DecidableEq, Repr

namespace Codec

/-- How to decompress. -/
def decoder : Codec → Decoder Unit
  | .zlib => Zlib.decoder
  | .lzma => Xz.decoder
  | .bzip2 => Bzip2.decoder

/-- What errors call the compressed content. -/
def location : Codec → String
  | .zlib => "blob zlib data"
  | .lzma => "blob lzma data"
  | .bzip2 => "blob bzip2 data"

/-- The most output that is asked for. With one byte over the limit, content of just the greatest
length can be told from longer content. -/
def outputLimit : Nat := maxContentSize + 1

/-- What to make of the output at the end of a run. -/
def judge (codec : Codec) (isComplete : Bool) (output : ByteArray) :
    Except ArchiveError ByteArray :=
  if maxContentSize < output.size then .error (.messageTooBig output.size)
  else if isComplete then .ok output
  else .error (.malformed codec.location "compressed stream ended unexpectedly")

/-- Decompresses a stream. What follows after its end does not matter. -/
def decompress (codec : Codec) (bytes : ByteArray) : Except ArchiveError ByteArray :=
  match codec.decoder.run outputLimit ⟨.atStart bytes, ByteArray.empty⟩ with
  | .ok (_, buffers) => codec.judge true buffers.output
  | .error (.starved output) => codec.judge false output
  | .error .overfull => .error (.messageTooBig outputLimit)
  | .error .corrupt => .error (.undecodable codec.location)

end Codec

/-- How the content of a blob is stored. -/
inductive StoredContent where
  /-- As it is. -/
  | raw (bytes : ByteArray)
  /-- Compressed. -/
  | compressed (codec : Codec) (bytes : ByteArray)
  /-- Compressed in a way that is known by name only. -/
  | unsupported (name : String)
  /-- There is none. -/
  | absent
  deriving DecidableEq

/-- Reads a message. Errors call it by its location. -/
def readMessage (α : Type) [Message α] (location : String) (bytes : ByteArray) :
    Except ArchiveError α :=
  match Message.decode (α := α) bytes with
  | some message => .ok message
  | none => .error (.undecodable location)

namespace BlobBody

/-- The field that counts. -/
def content (body : BlobBody) : StoredContent :=
  match body with
  | { raw := some bytes, .. } => .raw bytes
  | { zlib := some bytes, .. } => .compressed .zlib bytes
  | { lzma := some bytes, .. } => .compressed .lzma bytes
  | { bzip2 := some bytes, .. } => .compressed .bzip2 bytes
  | { lz4 := some _, .. } => .unsupported "LZ4"
  | { zstd := some _, .. } => .unsupported "ZSTD"
  | _ => .absent

/-- The bytes of the content, and what errors call them. -/
def contentBytes (body : BlobBody) : Except ArchiveError (String × ByteArray) :=
  match body.content with
  | .raw bytes =>
    if maxContentSize ≤ bytes.size then .error (.messageTooBig bytes.size)
    else .ok ("raw blob data", bytes)
  | .compressed codec bytes => do return (codec.location, ← codec.decompress bytes)
  | .unsupported name => .error (.unsupportedCompression name)
  | .absent => .error .emptyBlob

/-- Reads the message that the content is. -/
def decode (α : Type) [Message α] (body : BlobBody) : Except ArchiveError α := do
  let (location, bytes) ← body.contentBytes
  readMessage α location bytes

end BlobBody

end MapArchive
