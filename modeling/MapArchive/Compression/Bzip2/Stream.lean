import MapArchive.Compression.Bzip2.Block
import MapArchive.Compression.Checksum

/-!
# Bzip2 streams

A bzip2 stream is a header, blocks, and a checksum over the checksums of the blocks. In the text of
a block a byte that occurs four times in a row is followed by the number of its further
occurrences.

Output comes in pages of growing size. While there is output to come but no more input, no further
page is begun; this only concerns streams which are cut off at the end of a block.
-/

namespace MapArchive.Bzip2

open Decoder (Turn)

/-- The places where pages end. -/
def pageEnds : List Nat :=
  [0x8000, 0x18000, 0x58000, 0x158000, 0x558000, 0xD58000, 0x1D58000]

/-- Puts out a byte a number of times. `written` is the number of bytes put out before. -/
def putOut (written : Nat) (byte : UInt8) (count : Nat) : Decoder Unit := do
  if pageEnds.any fun place => written ≤ place && place < written + count then
    Decoder.expect
  Decoder.write byte
  Decoder.copy 1 (count - 1)

/-- How many of the bytes from a place on are equal, but no more than `limit` of them. -/
def runLength (text : ByteArray) (place : Nat) : (limit : Nat) → Nat
  | 0 => 0
  | limit + 1 =>
    let shorter := runLength text place limit
    if shorter = limit && byteAt text (place + limit) = byteAt text place then limit + 1
    else shorter

/-- Puts out what a text of `size` bytes stands for, from a place on. The text may not end where the
number of further occurrences is missing; if it does, the byte after the text is taken for it before
the error is noticed. The result is the number of bytes put out so far. -/
def expand (text : ByteArray) (size written : Nat) : Decoder Nat :=
  Decoder.loop (0, written) fun (place, written) => do
    if place = size then
      return .leave written
    Decoder.require (place < size)
    let byte := byteAt text place
    let run := runLength text place (min 4 (size - place))
    if run < 4 then
      putOut written byte run
      return .again (place + run, written + run)
    let count := 4 + (byteAt text (place + 4)).toNat
    putOut written byte count
    return .again (place + 5, written + count)

/-- What is kept from block to block. -/
structure State where
  /-- The number of bytes put out. -/
  written : Nat
  /-- The checksum over the checksums of the blocks so far. -/
  combined : UInt32

/-- Turns a word to the left by one bit. -/
def rotate (x : UInt32) : UInt32 := (x <<< 1) ||| (x >>> 31)

/-- Reads bytes that can only be these. -/
def readExpected : List Nat → BitDecoder Unit
  | [] => return ()
  | byte :: rest => do
    Bits.require ((← number 8) = byte)
    readExpected rest

/-- Decodes a block. -/
def block (limit : Nat) (s : State) : BitDecoder State := do
  readExpected [0x41, 0x59, 0x26, 0x53, 0x59]
  let checksum ← number 32
  let text ← blockText limit
  let written ← expand text (text.size - 1) s.written
  let found := HighCrc32.checksum (← Decoder.review s.written)
  Bits.require (found.toNat = checksum)
  return ⟨written, rotate s.combined ^^^ found⟩

/-- Decodes a block, or what follows the last one. -/
def blockOrEnd (limit : Nat) (s : State) : BitDecoder (Turn State Unit) := do
  match ← number 8 with
  | 0x31 => return .again (← block limit s)
  | 0x17 =>
    readExpected [0x72, 0x45, 0x38, 0x50, 0x90]
    Bits.require ((← number 32) = s.combined.toNat)
    return .leave ()
  | _ => Bits.corrupt

/-- Decodes a bzip2 stream. -/
def stream : BitDecoder Unit := do
  readExpected [0x42, 0x5A, 0x68]
  let level ← number 8
  Bits.require (0x31 ≤ level && level ≤ 0x39)
  Bits.loop ⟨0, 0⟩ (blockOrEnd (100000 * (level - 0x30)))

/-- Decodes a bzip2 stream. -/
def decoder : Decoder Unit := stream.run' []

end MapArchive.Bzip2
