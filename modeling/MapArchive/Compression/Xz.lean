import MapArchive.Compression.Checksum
import MapArchive.Compression.Filter
import MapArchive.Compression.Filtered
import MapArchive.Compression.Lzip
import MapArchive.Compression.Lzma2
import MapArchive.Compression.LzmaAlone
import MapArchive.Compression.Metered
import MapArchive.Compression.Sha256

/-!
# Xz streams

An xz stream is a header, blocks, an index of the blocks, and a footer. Each block has a header of
its own and holds LZMA2 data and a check of the output, of a kind that the stream's header tells.
Before they were compressed, the bytes of a block may have gone through up to three filters.
Not all kinds of checks are known; those which are not are passed over. The index repeats the sizes
of all blocks.
-/

namespace MapArchive.Xz

open Decoder (Turn)

/-- The bytes that an xz stream starts with. -/
def headerMark : List UInt8 := [0xFD, 0x37, 0x7A, 0x58, 0x5A, 0x00]

/-- The bytes that an xz stream ends with. -/
def footerMark : List UInt8 := [0x59, 0x5A]

/-- The checksum of headers and of the index. -/
def crc32 (bytes : List UInt8) : Nat := (Crc32.checksum (ofOctets bytes)).toNat

/-- The least multiple of four that is not below a number. -/
def roundUp (n : Nat) : Nat := (n + 3) / 4 * 4

/-! ## Checks of the output -/

/-- A kind of check, by its number below 16. -/
structure CheckKind where
  /-- The number. -/
  id : Nat
  deriving DecidableEq, Repr

namespace CheckKind

/-- The number of bytes of a check. -/
def size (kind : CheckKind) : Nat :=
  match kind.id with
  | 0 => 0
  | 1 | 2 | 3 => 4
  | 4 | 5 | 6 => 8
  | 7 | 8 | 9 => 16
  | 10 | 11 | 12 => 32
  | _ => 64

/-- The check of some output, if the kind is known. -/
def value? (kind : CheckKind) (output : ByteArray) : Option (List UInt8) :=
  match kind.id with
  | 0 => some []
  | 1 => some (Endian.little 4 (Crc32.checksum output).toNat)
  | 4 => some (Endian.little 8 (Crc64.checksum output).toNat)
  | 10 => some (Sha256.digest output)
  | _ => none

end CheckKind

/-! ## Numbers of variable length -/

/-- Reads a number in groups of seven bits, the lowest first, each in a byte whose highest bit says
that more follow. There are at most nine groups, and the highest is not zero unless it is the only
one. `next` gives the next byte. -/
def numberFrom {m : Type → Type} [Monad m] (next : m UInt8) (fail : m Nat) : Nat → Bool → m Nat
  | 0, _ => fail
  | groups + 1, isFirst => do
    let byte ← next
    if byte < 0x80 then
      if byte = 0 && !isFirst then fail else return byte.toNat
    else
      return byte.toNat % 128 + 128 * (← numberFrom next fail groups false)

/-- The number of bytes that a number is written in. -/
def numberSize (n : Nat) : Nat := max 1 ((n.log2 + 7) / 7)

/-- The next byte of a list. -/
def nextOf : StateT (List UInt8) Option UInt8
  | [] => none
  | byte :: rest => some (byte, rest)

/-- Takes a number from a list of bytes. -/
def takeNumber : StateT (List UInt8) Option Nat := numberFrom nextOf (fun _ => none) 9 true

/-! ## Blocks -/

/-- What the header of a block says. -/
structure BlockHeader where
  /-- The number of bytes of the LZMA2 data, if it is given. -/
  codedSize : Option Nat
  /-- The number of bytes of the output, if it is given. -/
  size : Option Nat
  /-- The filters, in the order in which they were applied. -/
  filters : List Filter
  /-- How far back the output can be used. -/
  dictionarySize : Nat
  deriving DecidableEq, Repr

/-- The greatest size of a block: 2⁶³ - 4. -/
def blockSizeLimit : Nat := 0x7FFFFFFFFFFFFFFC

/-- The size of a dictionary, by the number which stands for it. -/
def dictionarySize? (n : Nat) : Option Nat :=
  if n < 40 then some ((2 + n % 2) <<< (n / 2 + 11))
  else if n = 40 then some 0xFFFFFFFF
  else none

/-- Takes an optional number. -/
def takeNumberIf (given : Bool) : StateT (List UInt8) Option (Option Nat) :=
  if given then some <$> takeNumber else pure none

/-- The architecture whose filter has a number. -/
def architecture? (id : Nat) : Option Architecture :=
  match id with
  | 4 => some .x86
  | 5 => some .powerPC
  | 6 => some .ia64
  | 7 => some .arm
  | 8 => some .armThumb
  | 9 => some .sparc
  | 10 => some .arm64
  | _ => none

/-- The filter with a number and with properties, if this is possible. -/
def filter? (id : Nat) (properties : List UInt8) : Option Filter :=
  if id = 3 then
    match properties with
    | [distance] => some (.delta (distance.toNat + 1))
    | _ => none
  else do
    let architecture ← architecture? id
    guard (properties.length = 0 ∨ properties.length = 4)
    let start := Endian.ofLittle properties
    guard (start % architecture.alignment = 0)
    return .branches architecture start

/-- Takes the number of a filter and its properties. -/
def takeFilter : StateT (List UInt8) Option (Nat × List UInt8) := do
  let id ← takeNumber
  let size ← takeNumber
  let bytes ← get
  guard (size ≤ bytes.length)
  set (bytes.drop size)
  return (id, bytes.take size)

/-- Takes filters, so many of them. -/
def takeFilters : Nat → StateT (List UInt8) Option (List Filter)
  | 0 => return []
  | count + 1 => do
    let (id, properties) ← takeFilter
    return (← filter? id properties) :: (← takeFilters count)

/-- Reads the header of a block from the flags that it starts with and the bytes after them. The
lowest bits of the flags are the number of filters before LZMA2, which counts as a filter too. -/
def BlockHeader.ofBytes? (flags : UInt8) : StateT (List UInt8) Option BlockHeader := do
  guard (flags &&& 0x3C = 0)
  let codedSize ← takeNumberIf (flags &&& 0x40 ≠ 0)
  let size ← takeNumberIf (flags &&& 0x80 ≠ 0)
  let filters ← takeFilters (flags &&& 0x03).toNat
  match ← takeFilter with
  | (0x21, [dictionary]) =>
    let dictionarySize ← (dictionarySize? dictionary.toNat : Option Nat)
    guard ((← get).all (· = 0))
    return ⟨codedSize, size, filters, dictionarySize⟩
  | _ => failure

/-- The sizes of a block that the index repeats. -/
structure BlockSizes where
  /-- The number of bytes of the block, without its padding. -/
  unpadded : Nat
  /-- The number of bytes of its output. -/
  output : Nat
  deriving DecidableEq, Repr

/-- Reads the header of a block, whose first byte tells its size. -/
def blockHeader (first : UInt8) : Decoder (BlockHeader × Nat) := do
  let size := 4 * (first.toNat + 1)
  let rest ← Decoder.readList (size - 1)
  let covered := first :: rest.take (size - 5)
  Decoder.require (Endian.ofLittle (rest.drop (size - 5)) = crc32 covered)
  match covered with
  | _ :: flags :: fields =>
    match (BlockHeader.ofBytes? flags).run fields with
    | some (header, _) => return (header, size)
    | none => .corrupt
  | _ => .corrupt

/-- A declared number of bytes must be possible. -/
def isPossible (header : BlockHeader) (headerSize : Nat) (check : CheckKind) : Bool :=
  match header.codedSize with
  | none => true
  | some codedSize => 0 < codedSize && codedSize + headerSize + check.size ≤ blockSizeLimit

/-- Decodes the data of a block. The filter that was applied last is undone first. -/
def blockData (header : BlockHeader) : Decoder Unit :=
  header.filters.foldr (fun filter data => data.filtered filter.converter)
    (Lzma2.decoder (Lzma.keptSize header.dictionarySize))

/-- Decodes a block. `before` is the number of bytes put out before it. -/
def block (check : CheckKind) (first : UInt8) (before : Nat) : Decoder BlockSizes := do
  let (header, headerSize) ← blockHeader first
  Decoder.require (isPossible header headerSize check)
  let (_, meter) ← (blockData header).metered (.start header.codedSize header.size)
  Decoder.require (header.codedSize.all (· = meter.taken) && header.size.all (· = meter.given))
  Decoder.readExpected (List.replicate (roundUp meter.taken - meter.taken) 0)
  let stored ← Decoder.readList check.size
  let computed? := check.value? (← Decoder.review before)
  Decoder.require (computed?.all (· = stored))
  return ⟨headerSize + meter.taken + check.size, meter.given⟩

/-! ## The index -/

/-- Sums over blocks that tell whether an index has gone too far. -/
structure IndexSums where
  /-- The number of bytes of the blocks. -/
  padded : Nat
  /-- The number of bytes of their output. -/
  output : Nat
  /-- The number of bytes of the index that the sizes take. -/
  listed : Nat
  deriving DecidableEq, Repr

/-- The sums over some blocks. -/
def IndexSums.of (blocks : List BlockSizes) : IndexSums where
  padded := blocks.foldr (fun b sum => roundUp b.unpadded + sum) 0
  output := blocks.foldr (fun b sum => b.output + sum) 0
  listed := blocks.foldr (fun b sum => numberSize b.unpadded + numberSize b.output + sum) 0

/-- No sum exceeds the other one. -/
def IndexSums.isWithin (a b : IndexSums) : Bool :=
  a.padded ≤ b.padded && a.output ≤ b.output && a.listed ≤ b.listed

/-- Decoders that keep the bytes which they read, in reverse. -/
abbrev KeepingDecoder := StateT (List UInt8) Decoder

/-- Reads a byte and keeps it. -/
def readKeeping : KeepingDecoder UInt8 := do
  let byte ← Decoder.read
  modify (byte :: ·)
  return byte

/-- Reads a number and keeps its bytes. -/
def readNumber : KeepingDecoder Nat :=
  numberFrom readKeeping (StateT.lift .corrupt) 9 true

/-- Reads the sizes of `count` more blocks, after those already `seen`. They may not go beyond the
sums of the blocks in the stream. -/
def readSizes (sums : IndexSums) : (count : Nat) → (seen : List BlockSizes) →
    KeepingDecoder (List BlockSizes)
  | 0, seen => return seen
  | count + 1, seen => do
    let unpadded ← readNumber
    StateT.lift (Decoder.require (5 ≤ unpadded && unpadded ≤ blockSizeLimit))
    let output ← readNumber
    let seen := seen ++ [⟨unpadded, output⟩]
    StateT.lift (Decoder.require ((IndexSums.of seen).isWithin sums))
    readSizes sums count seen

/-- Reads the index, whose first byte has been read. The result is its size. -/
def index (blocks : List BlockSizes) : Decoder Nat := do
  let (listed, kept) ← body.run [0]
  Decoder.expect
  Decoder.require (listed = blocks)
  Decoder.readExpected (Endian.little 4 (crc32 kept.reverse))
  return kept.length + 4
where
  /-- The index without its checksum. -/
  body : KeepingDecoder (List BlockSizes) := do
    let count ← readNumber
    StateT.lift (Decoder.require (count = blocks.length))
    let listed ← readSizes (IndexSums.of blocks) count []
    let size := (← get).length
    for _ in List.range (roundUp size - size) do
      let byte ← readKeeping
      StateT.lift (Decoder.require (byte = 0))
    return listed

/-! ## Streams -/

/-- Reads the header of a stream, of which the first byte has been read. -/
def streamHeader (first : UInt8) : Decoder CheckKind := do
  let header := first :: (← Decoder.readList 11)
  let flags := (header.drop 6).take 2
  Decoder.require (header.take 6 = headerMark)
  Decoder.require (Endian.ofLittle (header.drop 8) = crc32 flags)
  match flags with
  | [0, kind] =>
    Decoder.require (kind < 16)
    return ⟨kind.toNat⟩
  | _ => .corrupt

/-- Reads the footer of a stream. -/
def streamFooter (check : CheckKind) (indexSize : Nat) : Decoder Unit := do
  let footer ← Decoder.readList 12
  Decoder.require (footer.drop 10 = footerMark)
  Decoder.require (Endian.ofLittle (footer.take 4) = crc32 ((footer.drop 4).take 6))
  Decoder.require (4 * (Endian.ofLittle ((footer.drop 4).take 4) + 1) = indexSize)
  Decoder.require ((footer.drop 8).take 2 = [0, UInt8.ofNat check.id])

/-- Decodes a block, or what follows the last one. -/
def blockOrEnd (check : CheckKind) (blocks : List BlockSizes) :
    Decoder (Turn (List BlockSizes) Unit) := do
  let first ← Decoder.read
  if first = 0 then
    streamFooter check (← index blocks)
    return .leave ()
  let b ← block check first (IndexSums.of blocks).output
  return .again (blocks ++ [b])

/-- Decodes an xz stream, of which the first byte has been read. -/
def stream (first : UInt8) : Decoder Unit := do
  let check ← streamHeader first
  Decoder.loop [] (blockOrEnd check)

/-- Decodes an xz stream, an lzip member or an LZMA file of the old form. They differ in the first
byte. -/
def decoder : Decoder Unit := do
  let first ← Decoder.read
  if headerMark.head? = some first then stream first
  else if Lzip.headerMark.head? = some first then Lzip.decoder
  else LzmaAlone.decoder first

end MapArchive.Xz
