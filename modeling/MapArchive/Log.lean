import MapArchive.Error

/-!
# Events worth a note

Reading reports what it passes over and where it stops. An event is a value; the part of the
library that reports it, its severity and the words around its data follow from it.
-/

namespace MapArchive

/-- The part of the library that reports an event. -/
inductive LogChannel where
  /-- Reading of blobs. -/
  | blob
  /-- Elements of a block. -/
  | elements
  /-- Reading of elements from a file. -/
  | reader
  deriving DecidableEq, Repr

/-- How much an event matters. -/
inductive LogLevel where
  /-- Of interest when something is looked into. -/
  | debug
  /-- To be looked into. -/
  | warning
  deriving DecidableEq, Repr

/-- Something that happened while reading. -/
inductive LogEvent where
  /-- No more blobs are read, because of an error in the one at this offset. -/
  | stoppedReading (offset : Option Nat) (error : ArchiveError)
  /-- The stream is moved, by an offset if it is known. -/
  | seeking (offset : Option Int) (whence : Int)
  /-- No more tags of an element are read, because one could not be looked up. -/
  | stoppedTags (error : ArchiveError)
  /-- A blob of an unknown type is passed over. -/
  | skippedBlob (type : String)
  deriving DecidableEq, Repr

namespace LogEvent

/-- Who reports the event. -/
def channel : LogEvent → LogChannel
  | .stoppedReading _ _ | .seeking _ _ => .blob
  | .stoppedTags _ => .elements
  | .skippedBlob _ => .reader

/-- How much the event matters. -/
def level : LogEvent → LogLevel
  | .skippedBlob _ => .warning
  | _ => .debug

/-- The words around the data of the event. -/
def template : LogEvent → String
  | .stoppedReading _ _ => "Stopping blob iteration at offset %s: %s"
  | .seeking _ _ => "Seeking to %d (whence=%d)"
  | .stoppedTags _ => "Stopping tag iteration: %s"
  | .skippedBlob _ => "Skipping blob of unknown type %r"

end LogEvent

end MapArchive
