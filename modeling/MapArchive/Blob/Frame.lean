import MapArchive.Blob.Basic
import MapArchive.Stream.Basic

/-!
# Frames

In a file a blob stands in a frame: four bytes with the length of the blob's header, the highest
byte first, then the header, then the body, whose length is in the header. Reading a frame takes
three reads, each of a known length. The first of them may find the end of the stream; anything
else that is missing is an error. Lengths that are too great are refused before anything is read.
-/

namespace MapArchive

/-- Headers have to be shorter. -/
def maxHeaderSize : Nat := 64 * 1024

/-- What can go wrong when reading from a stream. -/
inductive ReadError where
  /-- Something is wrong with the archive, or it could not be read. -/
  | archive (error : ArchiveError)
  /-- The stream was asked for something that it does not do. -/
  | stream (fault : StreamFault)
  deriving DecidableEq, Repr

/-- What it means that a read was refused. If the system refuses, something is wrong with the
archive; any other fault is passed on. -/
def ReadError.ofFault (error : ArchiveError) (fault : StreamFault) : ReadError :=
  if fault.isOfSystem then .archive error else .stream fault

/-- A blob as it was found in its frame. -/
structure Frame where
  /-- The length of the header. -/
  headerSize : Nat
  /-- The header. -/
  header : BlobHeader
  /-- The type in the header, as text. -/
  type : String
  /-- The body. -/
  body : BlobBody
  deriving DecidableEq

namespace Frame

/-- The length of the body. -/
def bodySize (header : BlobHeader) : Nat := header.dataSize.toInt.toNat

/-- The length of the frame. -/
def size (f : Frame) : Nat := 4 + f.headerSize + bodySize f.header

/-- The blob in the frame. -/
def blob (f : Frame) (offset : Option Nat) : Blob where
  type := f.type
  indexData := f.header.indexData
  size := bodySize f.header
  body := f.body
  offset

/-- What is wrong with a header, if anything, and the type as text. -/
def checkHeader (header : BlobHeader) : Except ArchiveError String :=
  match Field.textOfBytes? header.type with
  | none =>
    .error (.malformed "blob header"
      ("type is not valid UTF-8: " ++ Quoted.bytes (octets header.type)))
  | some type =>
    if header.dataSize < 0 then
      .error (.malformed "blob header" s!"negative datasize: {header.dataSize.toInt}")
    else .ok type

variable {σ : Type} [ByteStream σ]

/-- Reads the length of a header, if the stream has not ended. -/
def readLength (s : σ) : Except ReadError (Option Nat) × σ :=
  match ByteStream.read 4 s with
  | (.error fault, t) => (.error (.ofFault .invalidHeaderSize fault), t)
  | (.ok bytes, t) =>
    if bytes.size = 0 then (.ok none, t)
    else if bytes.size ≠ 4 then (.error (.archive .invalidHeaderSize), t)
    else
      let length := Endian.ofBig (octets bytes)
      if maxHeaderSize ≤ length then (.error (.archive (.headerTooBig length)), t)
      else (.ok (some length), t)

/-- Reads a message of a known length. Errors call it by its location. -/
def readPart (α : Type) [Message α] (location : String) (size : Nat) (s : σ) :
    Except ReadError α × σ :=
  match ByteStream.read size s with
  | (.error fault, t) => (.error (.ofFault (.undecodable location) fault), t)
  | (.ok bytes, t) =>
    if bytes.size ≠ size then
      (.error (.archive (.malformed location
        s!"unexpected end of stream: expected {size} bytes, got {bytes.size}")), t)
    else ((readMessage α location bytes).mapError .archive, t)

/-- Reads a frame, if the stream has not ended. -/
def read (s : σ) : Except ReadError (Option Frame) × σ :=
  match readLength s with
  | (.error e, t) => (.error e, t)
  | (.ok none, t) => (.ok none, t)
  | (.ok (some headerSize), t) =>
    match readPart BlobHeader "blob header" headerSize t with
    | (.error e, t) => (.error e, t)
    | (.ok header, t) =>
      match checkHeader header with
      | .error e => (.error (.archive e), t)
      | .ok type =>
        match readPart BlobBody "blob content" (bodySize header) t with
        | (.error e, t) => (.error e, t)
        | (.ok body, t) => (.ok (some ⟨headerSize, header, type, body⟩), t)

end Frame

section Remaining

variable {σ : Type} [FiniteStream σ]

open FiniteStream (remaining)

/-- Reading the length of a header takes four bytes. -/
theorem Frame.remaining_of_readLength {s t : σ} {n : Nat}
    (h : Frame.readLength s = (.ok (some n), t)) : remaining t + 4 ≤ remaining s := by
  unfold readLength at h
  split at h
  case h_1 => cases h
  case h_2 bytes u hread =>
    have := FiniteStream.remaining_of_read hread
    split at h
    · cases h
    · split at h
      · cases h
      · dsimp only at h
        split at h
        · cases h
        · cases h
          omega

/-- Reading a part takes as many bytes as it has. -/
theorem Frame.remaining_of_readPart {α : Type} [Message α] {location : String} {s t : σ} {n : Nat}
    {a : α} (h : Frame.readPart α location n s = (.ok a, t)) : remaining t + n ≤ remaining s := by
  unfold readPart at h
  split at h
  case h_1 => cases h
  case h_2 bytes u hread =>
    have := FiniteStream.remaining_of_read hread
    split at h
    · cases h
    · obtain ⟨_, rfl⟩ := Prod.mk.inj h
      omega

/-- A frame takes its length from the stream. -/
theorem Frame.remaining_of_read {s t : σ} {f : Frame} (h : Frame.read s = (.ok (some f), t)) :
    remaining t + f.size ≤ remaining s := by
  unfold read at h
  split at h
  case h_1 => cases h
  case h_2 => cases h
  case h_3 n u hlength =>
    have := remaining_of_readLength hlength
    split at h
    case h_1 => cases h
    case h_2 header v hheader =>
      have := remaining_of_readPart hheader
      split at h
      case h_1 => cases h
      case h_2 type _ =>
        split at h
        case h_1 => cases h
        case h_2 body w hbody =>
          have := remaining_of_readPart hbody
          cases h
          simp only [size]
          omega

end Remaining

end MapArchive
