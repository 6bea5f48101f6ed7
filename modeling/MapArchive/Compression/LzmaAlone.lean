import MapArchive.Compression.Lzma

/-!
# LZMA files of the old form

A file of the old form is a header and LZMA data. The header has no mark by which such a file could
be told from other data, so some headers that would be possible are refused because nobody writes
them.
-/

namespace MapArchive.LzmaAlone

/-- Sizes of dictionaries that are used: powers of two, the sum of two neighbouring ones, and the
greatest size. -/
def isUsualSize (size : Nat) : Bool :=
  size = 0 || size = 0xFFFFFFFF || (List.range 32).any fun n =>
    size = 1 <<< n || size = 1 <<< n + 1 <<< (n - 1)

/-- Stands for a size that is not known. -/
def unknownSize : Nat := 0xFFFFFFFFFFFFFFFF

/-- Decodes a file, of which the first byte has been read. -/
def decoder (first : UInt8) : Decoder Unit := do
  match Lzma.Properties.ofByte? first with
  | none => .corrupt
  | some properties =>
    let dictionarySize ← Decoder.littleEndian 4
    Decoder.require (isUsualSize dictionarySize)
    let size ← Decoder.littleEndian 8
    Decoder.require (size = unknownSize || size < 0x4000000000)
    let state := Lzma.State.fresh properties (Lzma.keptSize dictionarySize) 0
    let coder : RangeCoder := ⟨0, 0, Lzma.freshContexts properties, none⟩
    let _ ← (Lzma.decode (if size = unknownSize then none else some size) true).run state
      |>.run coder

end MapArchive.LzmaAlone
