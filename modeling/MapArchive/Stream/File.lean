import MapArchive.Stream.Memory

/-!
# Files

A file can be closed, and any use of it afterwards makes no sense. It cannot be moved to before its
start or beyond the greatest size that a file can have. Besides the start, the current position and
the end, offsets can name a place from which to look for the next data, or for the next gap between
data; a file consists of data without gaps.
-/

namespace MapArchive

/-- A file that was opened. -/
structure FileStream where
  /-- What the file contains, and the position in it. -/
  memory : MemoryStream
  /-- Whether the file has been closed. -/
  isClosed : Bool
  deriving DecidableEq

namespace FileStream

/-- The greatest size of a file: blocks of 2¹² bytes are counted with 32 bits. -/
def maxSize : Nat := 0xFFFFFFFF * 0x1000

/-- Opens a file. -/
def ofBytes (bytes : ByteArray) : FileStream := ⟨.ofBytes bytes, false⟩

/-- Reads up to so many bytes. -/
def read (n : Nat) (s : FileStream) : Except StreamFault ByteArray × FileStream :=
  if s.isClosed then (.error .usage, s)
  else
    let result := s.memory.read n
    (.ok result.1, { s with memory := result.2 })

/-- Where to move to. -/
def target (offset whence : Int) (s : FileStream) : Except StreamFault Int :=
  match s.memory.origin? whence with
  | some origin => .ok (origin + offset)
  | none =>
    let size := s.memory.bytes.size
    if whence = 3 then if offset < size then .ok offset else .error .system
    else if whence = 4 then if 0 ≤ offset ∧ offset < size then .ok size else .error .system
    else .error .usage

/-- Moves the file. -/
def seek (offset whence : Int) (s : FileStream) : Except StreamFault Nat × FileStream :=
  if !isWhence whence then (.error .range, s)
  else if s.isClosed || !isOffset offset then (.error .usage, s)
  else
    match s.target offset whence with
    | .error fault => (.error fault, s)
    | .ok place =>
      if 0 ≤ place ∧ place ≤ maxSize then
        (.ok place.toNat, { s with memory := { s.memory with position := place.toNat } })
      else (.error .system, s)

instance : FiniteStream FileStream where
  read := read
  seek := seek
  tell s := if s.isClosed then .error .usage else .ok s.memory.position
  close s := { s with isClosed := true }
  isClosed := isClosed
  size_of_read {n s t bytes} h := by
    unfold read at h
    split at h
    · cases h
    · cases h
      have := MemoryStream.size_of_read n s.memory
      omega
  remaining s := s.memory.remaining
  remaining_of_read {n s t bytes} h := by
    unfold read at h
    split at h
    · cases h
    · cases h
      exact Nat.le_of_eq (MemoryStream.remaining_of_read n s.memory)

end FileStream

end MapArchive
