import MapArchive.Stream.Memory

/-!
# Faulty streams

A stream over a byte string that gives few bytes at a time and refuses some requests. Requests are
numbered from zero, reads and moves each on their own, those refused included.
-/

namespace MapArchive

/-- A stream with faults. -/
structure FaultyStream where
  /-- The bytes, and the position in them. -/
  memory : MemoryStream
  /-- No read gives more bytes than this, if a number is given. -/
  maxRead : Option Nat
  /-- The reads that are refused. -/
  failingReads : List Nat
  /-- The moves that are refused. -/
  failingSeeks : List Nat
  /-- The number of reads so far. -/
  reads : Nat
  /-- The number of moves so far. -/
  seeks : Nat
  deriving DecidableEq

namespace FaultyStream

/-- How many of `n` bytes may be read at once. -/
def readable (s : FaultyStream) (n : Nat) : Nat :=
  match s.maxRead with
  | none => n
  | some limit => min n limit

/-- No more bytes can be read than are asked for. -/
theorem readable_le (s : FaultyStream) (n : Nat) : s.readable n ≤ n := by
  unfold readable
  split
  · exact Nat.le_refl n
  · exact Nat.min_le_left _ _

/-- Reads up to so many bytes. -/
def read (n : Nat) (s : FaultyStream) : Except StreamFault ByteArray × FaultyStream :=
  let after := { s with reads := s.reads + 1 }
  if s.reads ∈ s.failingReads then (.error .system, after)
  else
    let result := s.memory.read (s.readable n)
    (.ok result.1, { after with memory := result.2 })

/-- Moves the stream. -/
def seek (offset whence : Int) (s : FaultyStream) : Except StreamFault Nat × FaultyStream :=
  let after := { s with seeks := s.seeks + 1 }
  if s.seeks ∈ s.failingSeeks then (.error .system, after)
  else
    let (position, memory) := s.memory.seek offset whence
    (position, { after with memory })

instance : FiniteStream FaultyStream where
  read := read
  seek := seek
  tell s := .ok s.memory.position
  close s := s
  isClosed _ := false
  size_of_read {n s t bytes} h := by
    unfold read at h
    dsimp only at h
    split at h
    · cases h
    · cases h
      have := MemoryStream.size_of_read (s.readable n) s.memory
      have := s.readable_le n
      omega
  remaining s := s.memory.remaining
  remaining_of_read {n s t bytes} h := by
    unfold read at h
    dsimp only at h
    split at h
    · cases h
    · cases h
      exact Nat.le_of_eq (MemoryStream.remaining_of_read _ s.memory)

end FaultyStream

end MapArchive
