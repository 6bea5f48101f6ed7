import MapArchive.Blob.Frame
import MapArchive.Log
import MapArchive.Stream.File

/-!
# Reading blobs

A `BlobReader` gives the blobs of a stream one after the other. It knows at which offset the next
one starts, if it was told where the stream stands or has moved it; the offset is kept by adding up
lengths, without asking the stream.

After an error in the archive the reader halts: nothing can be said about where the next blob would
start. It gives no more blobs, even if the stream is moved. At the end of the stream it does not
halt.
-/

namespace MapArchive

/-- A reader of blobs. -/
structure BlobReader (σ : Type) where
  /-- The stream that is read. -/
  stream : σ
  /-- Where the next blob starts, if it is known. -/
  offset : Option Nat
  /-- Whether there was an error in the archive. -/
  isHalted : Bool
  /-- Whether closing the reader closes the stream. -/
  ownsStream : Bool
  deriving DecidableEq

namespace BlobReader

/-- A reader that does not know offsets. -/
def ofStream {σ : Type} (stream : σ) : BlobReader σ := ⟨stream, none, false, false⟩

variable {σ : Type} [ByteStream σ]

/-- A reader that knows offsets, on a stream that can tell where it stands. -/
def ofSeekable (stream : σ) : Except StreamFault (BlobReader σ) := do
  return ⟨stream, some (← ByteStream.tell stream), false, false⟩

/-- Opens a file, of which the contents are given if it exists. The reader owns it. -/
def ofFile (contents : Option ByteArray) : Except StreamFault (BlobReader FileStream) := do
  match contents with
  | none => .error .missing
  | some bytes => return { (← ofSeekable (FileStream.ofBytes bytes)) with ownsStream := true }

/-- Reads the next blob, if there is one. -/
def next (r : BlobReader σ) : Except ReadError (Option Blob) × BlobReader σ :=
  if r.isHalted then (.ok none, r)
  else
    match Frame.read r.stream with
    | (.error (.archive e), stream) =>
      (.error (.archive e), { r with stream, offset := none, isHalted := true })
    | (.error (.stream fault), stream) => (.error (.stream fault), { r with stream })
    | (.ok none, stream) => (.ok none, { r with stream })
    | (.ok (some frame), stream) =>
      (.ok (some (frame.blob r.offset)),
        { r with stream, offset := r.offset.map (· + frame.size) })

/-- What is to be noted when a reader has tried to read the next blob. -/
def eventsOfNext (before : BlobReader σ) : Except ReadError (Option Blob) → List LogEvent
  | .error (.archive e) => [.stoppedReading before.offset e]
  | _ => []

/-- Moves the stream. See `ByteStream.seek`. If the system refuses, nothing is known of where the
stream stands. -/
def seekRaw (offset whence : Int) (r : BlobReader σ) : Except StreamFault Nat × BlobReader σ :=
  match ByteStream.seek offset whence r.stream with
  | (.ok position, stream) => (.ok position, { r with stream, offset := some position })
  | (.error fault, stream) =>
    (.error fault, { r with stream, offset := if fault.isOfSystem then none else r.offset })

/-- Moves the stream to an offset, which should be the start of a blob. -/
def seek (offset : Int) (r : BlobReader σ) : Except StreamFault Nat × BlobReader σ :=
  r.seekRaw offset 0

/-- Moves the stream to the start of a blob, if it is known. -/
def seekBlob (blob : Blob) (r : BlobReader σ) : Except StreamFault Nat × BlobReader σ :=
  match blob.offset with
  | some offset => r.seek offset
  | none => (.error (if ByteStream.isClosed r.stream then .usage else .unknownPlace), r)

/-- What is to be noted when the stream is to be moved. -/
def eventsOfSeek (offset : Option Int) (whence : Int) : List LogEvent := [.seeking offset whence]

/-- Closes the stream, if the reader owns it. -/
def close (r : BlobReader σ) : BlobReader σ :=
  if r.ownsStream then { r with stream := ByteStream.close r.stream } else r

/-- Every blob takes at least four bytes from the stream. -/
theorem remaining_of_next {σ : Type} [FiniteStream σ] {r s : BlobReader σ} {b : Blob}
    (h : r.next = (.ok (some b), s)) :
    FiniteStream.remaining s.stream + 4 ≤ FiniteStream.remaining r.stream := by
  unfold next at h
  split at h
  case isTrue => cases h
  case isFalse =>
    split at h
    case h_1 => cases h
    case h_2 => cases h
    case h_3 => cases h
    case h_4 frame stream hread =>
      have := Frame.remaining_of_read hread
      simp only [Frame.size] at this
      cases h
      dsimp only
      omega

end BlobReader

end MapArchive
