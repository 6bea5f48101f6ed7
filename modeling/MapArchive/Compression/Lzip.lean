import MapArchive.Compression.Checksum
import MapArchive.Compression.Lzma
import MapArchive.Compression.Metered

/-!
# Lzip members

A member is a header, LZMA data up to a marker, and a footer with a checksum and the length of the
output. From version 1 on the footer also has the length of the member. What follows upon the first
member is not read.
-/

namespace MapArchive.Lzip

/-- The bytes that a member starts with. -/
def headerMark : List UInt8 := [0x4C, 0x5A, 0x49, 0x50]

/-- The last known version. -/
def lastVersion : UInt8 := 1

/-- The size of a dictionary, by the byte which stands for it: a power of two, less some sixteenths
of it. -/
def dictionarySize? (byte : UInt8) : Option Nat :=
  let exponent := byte.toNat % 32
  let size := 1 <<< exponent - (byte.toNat / 32) <<< (exponent - 4)
  if exponent ≤ 29 ∧ 0x1000 ≤ size then some size else none

/-- How contexts are chosen in all members. -/
def properties : Lzma.Properties := ⟨3, 0, 2⟩

/-- The number of bytes in front of the LZMA data. -/
def headerSize : Nat := 6

/-- The number of bytes after the LZMA data. -/
def footerSize (version : UInt8) : Nat := if version = 0 then 12 else 20

/-- The footer of a member. -/
def footer (version : UInt8) (codedSize : Nat) (output : ByteArray) : List UInt8 :=
  let size := headerSize + codedSize + footerSize version
  Endian.little 4 (Crc32.checksum output).toNat ++ Endian.little 8 output.size ++
    if version = 0 then [] else Endian.little 8 size

/-- Decodes a member, of which the first byte has been read. Nothing was put out before it. -/
def decoder : Decoder Unit := do
  Decoder.readExpected headerMark.tail
  let version ← Decoder.read
  Decoder.require (version ≤ lastVersion)
  match dictionarySize? (← Decoder.read) with
  | none => .corrupt
  | some dictionarySize =>
    let state := Lzma.State.fresh properties (Lzma.keptSize dictionarySize) 0
    let coder : RangeCoder := ⟨0, 0, Lzma.freshContexts properties, none⟩
    let (_, meter) ← ((Lzma.decode none true).run state |>.run coder).metered (.start none none)
    let stored ← Decoder.readList (footerSize version)
    Decoder.require (stored = footer version meter.taken (← Decoder.review 0))

end MapArchive.Lzip
