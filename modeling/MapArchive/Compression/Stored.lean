import MapArchive.Compression.Checksum
import MapArchive.Compression.Xz

/-!
# Streams that store their content

The simplest zlib and xz streams hold their content as it is, cut into pieces.
-/

namespace MapArchive

/-- Cuts a list into pieces of `size` items, of which the last one may be shorter. There is a piece
even if the list is empty. -/
def pieces {α : Type} (size : Nat) (list : List α) : List (List α) :=
  if list.length ≤ size ∨ size = 0 then [list]
  else list.take size :: pieces size (list.drop size)
termination_by list.length
decreasing_by simp only [List.length_drop]; omega

namespace Zlib

/-- A stored block. -/
def storedBlock (isLast : Bool) (piece : List UInt8) : List UInt8 :=
  (if isLast then 1 else 0) :: Endian.little 2 piece.length ++
    Endian.little 2 (0xFFFF - piece.length) ++ piece

/-- Stored blocks, of which the last one is marked. -/
def storedBlocks : List (List UInt8) → List UInt8
  | [] => []
  | [piece] => storedBlock true piece
  | piece :: rest => storedBlock false piece ++ storedBlocks rest

/-- A zlib stream that stores a byte string. -/
def store (content : ByteArray) : ByteArray :=
  ofOctets (0x78 :: 0x01 :: storedBlocks (pieces 0xFFFF (octets content)) ++
    Endian.big 4 (Adler32.checksum content))

end Zlib

namespace Xz

/-- An uncompressed chunk. The first one forgets the dictionary. -/
def storedChunk (isFirst : Bool) (piece : List UInt8) : List UInt8 :=
  (if isFirst then 1 else 2) :: Endian.big 2 (piece.length - 1) ++ piece

/-- LZMA2 data that store a list of bytes. -/
def storedData (content : List UInt8) : List UInt8 :=
  if content.isEmpty then [0]
  else
    match pieces 0x10000 content with
    | [] => [0]
    | first :: rest => storedChunk true first ++ rest.flatMap (storedChunk false) ++ [0]

/-- Fills up with zeros. -/
def padded (bytes : List UInt8) : List UInt8 :=
  bytes ++ List.replicate (roundUp bytes.length - bytes.length) 0

/-- Bytes followed by their checksum. -/
def withChecksum (bytes : List UInt8) : List UInt8 := bytes ++ Endian.little 4 (crc32 bytes)

/-- Writes a number in groups of seven bits, the lowest first. -/
def writeNumber (n : Nat) : List UInt8 :=
  if n < 128 then [UInt8.ofNat n] else UInt8.ofNat (n % 128 + 128) :: writeNumber (n / 128)

/-- The check that is written: none. -/
def storedCheck : CheckKind := ⟨0⟩

/-- The header of a block of LZMA2 data with the smallest dictionary. -/
def storedBlockHeader : List UInt8 := withChecksum [2, 0, 0x21, 1, 0, 0, 0, 0]

/-- The index of a stream with one block. -/
def storedIndex (sizes : BlockSizes) : List UInt8 :=
  withChecksum (padded (0 :: 1 :: writeNumber sizes.unpadded ++ writeNumber sizes.output))

/-- An xz stream that stores a byte string. -/
def store (content : ByteArray) : ByteArray :=
  let flags : List UInt8 := [0, UInt8.ofNat storedCheck.id]
  let data := storedData (octets content)
  let block := storedBlockHeader ++ padded data
  let index := storedIndex
    ⟨storedBlockHeader.length + data.length, content.size⟩
  let footer := Endian.little 4 (index.length / 4 - 1) ++ flags
  ofOctets (headerMark ++ withChecksum flags ++ block ++ index ++
    Endian.little 4 (crc32 footer) ++ footer ++ footerMark)

end Xz

end MapArchive
