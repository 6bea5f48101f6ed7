import MapArchive.Bytes.Cursor

/-!
# Byte streams

A byte stream gives bytes on request and can be moved to another place. Either may fail, and a read
may give fewer bytes than asked for. A stream is a state; every request gives an answer and the
state after it.

A stream is finite if it cannot give bytes for ever without being moved.
-/

namespace MapArchive

/-- Why a stream does not do what it is asked for. -/
inductive StreamFault where
  /-- There is no such file. -/
  | missing
  /-- The system refuses. -/
  | system
  /-- The request makes no sense. -/
  | usage
  /-- A number is too large for streams of this kind. -/
  | range
  /-- The place to move to is not known. -/
  | unknownPlace
  deriving DecidableEq, Repr

/-- Whether the fault is one of the system, not of the request. -/
def StreamFault.isOfSystem : StreamFault → Bool
  | .missing | .system => true
  | .usage | .range | .unknownPlace => false

/-- Positions are below 2⁶³. -/
def positionLimit : Nat := 0x8000000000000000

/-- Offsets and positions are numbers of 64 bits with sign. -/
def isOffset (n : Int) : Bool := -positionLimit ≤ n && n < positionLimit

/-- The number that tells where an offset is counted from is one of 32 bits with sign. -/
def isWhence (n : Int) : Bool := -0x80000000 ≤ n && n < 0x80000000

/-- States of byte streams. -/
class ByteStream (σ : Type) where
  /-- Reads up to so many bytes. -/
  read : Nat → σ → Except StreamFault ByteArray × σ
  /-- Moves the stream. The offset is counted from a place which the second number stands for: zero
  for the start, one for the current position, two for the end. The result is the new position. -/
  seek : Int → Int → σ → Except StreamFault Nat × σ
  /-- The current position. -/
  tell : σ → Except StreamFault Nat
  /-- Closes the stream. -/
  close : σ → σ
  /-- Whether the stream has been closed. -/
  isClosed : σ → Bool
  /-- No more is read than was asked for. -/
  size_of_read : ∀ {n : Nat} {s t : σ} {bytes : ByteArray},
    read n s = (.ok bytes, t) → bytes.size ≤ n

/-- Byte streams that can give only so many bytes before they are moved. -/
class FiniteStream (σ : Type) extends ByteStream σ where
  /-- An upper bound for the number of bytes to come. -/
  remaining : σ → Nat
  /-- What is read is no longer to come. -/
  remaining_of_read : ∀ {n : Nat} {s t : σ} {bytes : ByteArray},
    read n s = (.ok bytes, t) → remaining t + bytes.size ≤ remaining s

end MapArchive
