import MapArchive.Blob.Content
import MapArchive.Message.Block
import MapArchive.Message.Header

/-!
# Blobs

A blob is what a file consists of: its content is a header or a block of elements, according to the
name of its type. Blobs of other types are not an error; they are to be passed over.
-/

namespace MapArchive

/-- Types of blobs. -/
inductive BlobType where
  /-- The content is a header. -/
  | header
  /-- The content is a block of elements. -/
  | data
  /-- The content is something else. -/
  | unknown
  deriving DecidableEq, Repr

namespace BlobType

/-- All types. -/
def all : List BlobType := [.header, .data, .unknown]

/-- The name of headers' type. -/
def headerName : String := "OSMHeader"

/-- The name of blocks' type. -/
def dataName : String := "OSMData"

/-- The type with a name. -/
def ofName (name : String) : BlobType :=
  if name = headerName then .header else if name = dataName then .data else .unknown

end BlobType

/-- A blob of a file. -/
structure Blob where
  /-- The name of its type. -/
  type : String
  /-- Data about the content, of no further use here. -/
  indexData : Option ByteArray
  /-- The number of bytes of the body in the file. -/
  size : Nat
  /-- The body, with the content in it. -/
  body : BlobBody
  /-- Where the blob starts in the file, if it is known. -/
  offset : Option Nat
  deriving DecidableEq

/-- What the content of a blob can be. -/
inductive Decoded where
  /-- A header. -/
  | header (header : HeaderBlock)
  /-- A block of elements. -/
  | block (block : BlockMessage)
  /-- Something else, in a blob of this type. -/
  | unknown (type : String)

namespace Blob

/-- The type of a blob. -/
def kind (blob : Blob) : BlobType := .ofName blob.type

/-- Reads the content as a header, whatever the type. -/
def toHeader (blob : Blob) : Except ArchiveError HeaderBlock := blob.body.decode HeaderBlock

/-- Reads the content as a block, whatever the type. -/
def toBlock (blob : Blob) : Except ArchiveError BlockMessage := blob.body.decode BlockMessage

/-- Reads the content according to the type. -/
def decode (blob : Blob) : Except ArchiveError Decoded :=
  match blob.kind with
  | .header => .header <$> blob.toHeader
  | .data => .block <$> blob.toBlock
  | .unknown => .ok (.unknown blob.type)

end Blob

end MapArchive
