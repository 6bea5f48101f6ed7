import MapArchive.Stream.Basic

/-!
# Streams over byte strings

A byte string together with a position, which may lie beyond the end. Moving the stream to before
the start leaves it at the start, unless the offset is counted from there. A position has to be a
number of 64 bits.
-/

namespace MapArchive

/-- A stream over a byte string. It cannot be closed. -/
structure MemoryStream where
  /-- The bytes of the stream. -/
  bytes : ByteArray
  /-- Where the next byte is read. -/
  position : Nat
  deriving DecidableEq

namespace MemoryStream

/-- A stream at the start of a byte string. -/
def ofBytes (bytes : ByteArray) : MemoryStream := ⟨bytes, 0⟩

/-- Reads up to so many bytes. -/
def read (n : Nat) (s : MemoryStream) : ByteArray × MemoryStream :=
  let part := s.bytes.extract s.position (s.position + n)
  (part, { s with position := s.position + part.size })

/-- The place that an offset is counted from. -/
def origin? (s : MemoryStream) (whence : Int) : Option Nat :=
  if whence = 0 then some 0
  else if whence = 1 then some s.position
  else if whence = 2 then some s.bytes.size
  else none

/-- Moves the stream. -/
def seek (offset whence : Int) (s : MemoryStream) : Except StreamFault Nat × MemoryStream :=
  if !isOffset offset || !isWhence whence then (.error .range, s)
  else
    match s.origin? whence with
    | none => (.error .usage, s)
    | some origin =>
      let position := (origin + offset).toNat
      if whence = 0 ∧ offset < 0 then (.error .usage, s)
      else if position < positionLimit then (.ok position, { s with position })
      else (.error .range, s)

/-- How many bytes are to come. -/
def remaining (s : MemoryStream) : Nat := s.bytes.size - s.position

/-- As many bytes are read as are asked for, or as remain. -/
theorem size_of_read (n : Nat) (s : MemoryStream) :
    (s.read n).1.size = min n s.remaining := by
  simp only [read, remaining, ByteArray.size_extract]
  omega

/-- Bytes that are read no longer remain. -/
theorem remaining_of_read (n : Nat) (s : MemoryStream) :
    (s.read n).2.remaining + (s.read n).1.size = s.remaining := by
  have h := size_of_read n s
  simp only [read, remaining] at *
  omega

instance : FiniteStream MemoryStream where
  read n s := let result := s.read n; (.ok result.1, result.2)
  seek := seek
  tell s := .ok s.position
  close s := s
  isClosed _ := false
  size_of_read {n s t bytes} h := by
    cases h
    have := MemoryStream.size_of_read n s
    omega
  remaining := remaining
  remaining_of_read {n s t bytes} h := by
    cases h
    exact Nat.le_of_eq (remaining_of_read n s)

end MemoryStream

end MapArchive
