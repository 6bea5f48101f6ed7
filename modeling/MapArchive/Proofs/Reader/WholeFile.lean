import MapArchive.Proofs.Blob.Concatenation
import MapArchive.Proofs.Blob.Packing
import MapArchive.Proofs.Message.Block
import MapArchive.Proofs.Message.Header
import MapArchive.Proofs.Reader.Data
import MapArchive.Proofs.Reader.Iteration
import MapArchive.Writer.Sample

/-!
# Reading what was written: whole files

A file that was written is read back: the header is passed over if it asks for nothing that is not
supported, and then the blocks are given as they were put in, however they were packed. The elements
are those of the blocks, one block after the other.
-/

namespace MapArchive

namespace Compressors

variable {compressors : Compressors}

/-- A message can be put into a blob in some way: it is not too long, and the compressor restores
it. -/
structure Fits {α : Type} [Message α] (compressors : Compressors) (message : α)
    (packing : Packing) : Prop where
  /-- The message is below the limit. -/
  size : (Message.encode message).size < maxContentSize
  /-- Decompressing gives the message back. -/
  restores : compressors.Restores (Message.encode message) packing

/-- The bytes of blocks, each in its frame. -/
def octetsOfBlocks (compressors : Compressors) (blocks : List (BlockMessage × Packing)) :
    List UInt8 :=
  blocks.flatMap fun (block, packing) => octets (compressors.block block packing)

/-- A file is a header and then the blocks. -/
theorem octets_file (features : List String) (packing : Packing)
    (blocks : List (BlockMessage × Packing)) : octets (compressors.file features packing blocks) =
      octets (compressors.header features packing) ++ compressors.octetsOfBlocks blocks := by
  have hfoldl (start : ByteArray) :
      octets (blocks.foldl (fun file b => file ++ compressors.block b.1 b.2) start) =
        octets start ++ compressors.octetsOfBlocks blocks := by
    induction blocks generalizing start with
    | nil => exact (List.append_nil _).symm
    | cons b blocks ih =>
      rw [List.foldl_cons, ih, octets_append, List.append_assoc, octetsOfBlocks, octetsOfBlocks,
        List.flatMap_cons]
  exact hfoldl _

end Compressors

namespace ElementReader

variable {compressors : Compressors} {packing : Packing} {r : ElementReader MemoryStream}
  {more : List UInt8}

/-- A message in a frame is given in a blob of its type, and the bytes after the frame are left. -/
theorem next_of_rest {α : Type} [Message α] [Message.Faithful α] {message : α} (type : String)
    (h : compressors.Fits message packing) (hlive : r.blobs.isHalted = false)
    (hname : (Utf8.encode type.toList).length + 25 < maxHeaderSize)
    (hrest : r.blobs.stream.rest =
      octets (Frame.write type (BlobBody.ofMessage compressors packing message)) ++ more) :
    ∃ blob blobs, r.blobs.next = (.ok (some blob), blobs) ∧ blob.type = type ∧
      blob.body.decode α = .ok message ∧ blobs.isHalted = false ∧ blobs.stream.rest = more := by
  let e := Enclosure.ofMessage compressors packing type message h.restores h.size
  have htype : e.header.type.size = (Utf8.encode type.toList).length := by
    rw [← length_octets]
    show (octets (ofOctets (Utf8.encode type.toList))).length = _
    rw [octets_ofOctets]
  have hheader : e.headerSize < maxHeaderSize := by
    have hlimit : maxHeaderSize ≤ Record.maxLength := by decide
    have hle := e.headerSize_le (by omega)
    omega
  have hafter := MemoryStream.rest_skip hrest
  rw [length_octets] at hafter
  refine ⟨e.blob r.blobs.offset, _, BlobReader.next_of_rest hlive hheader hrest, rfl, ?_, hlive,
    hafter⟩
  exact BlobBody.decode_ofMessage h.restores h.size

/-- Blocks, each in its frame, are given one after the other. -/
theorem gives_of_rest {blocks : List (BlockMessage × Packing)}
    (hblocks : ∀ b ∈ blocks, compressors.Fits b.1 b.2) (hlive : r.blobs.isHalted = false)
    (hrest : r.blobs.stream.rest = compressors.octetsOfBlocks blocks) :
    r.Gives (blocks.map Prod.fst) := by
  induction blocks generalizing r with
  | nil => exact ⟨_, _, nextBlock_of_end (BlobReader.next_of_rest_nil hlive hrest)⟩
  | cons b blocks ih =>
    obtain ⟨hfits, hothers⟩ := List.forall_mem_cons.1 hblocks
    obtain ⟨blob, blobs, hnext, htype, hblock, hlive, hafter⟩ :=
      next_of_rest BlobType.dataName hfits hlive (by decide) hrest
    have hkind : blob.kind = .data := by
      rw [Blob.kind, htype]
      rfl
    exact ⟨_, _, nextBlock_of_use hnext (disposition_of_data hkind) hblock,
      ih hothers hlive hafter⟩

/-- A reader at the start of a byte string. -/
def ofBytes (knowsOffset : Bool) (supported : List String) (bytes : ByteArray) :
    ElementReader MemoryStream := ⟨.ofBytes knowsOffset bytes, supported⟩

/-- The blocks of a file are given. -/
theorem gives_file (knowsOffset : Bool) (supported : List String) {features : List String}
    {blocks : List (BlockMessage × Packing)}
    (hsupported : ∀ feature ∈ features, feature ∈ supported)
    (hheader : compressors.Fits (HeaderBlock.ofFeatures features) packing)
    (hblocks : ∀ b ∈ blocks, compressors.Fits b.1 b.2) :
    (ofBytes knowsOffset supported (compressors.file features packing blocks)).Gives
      (blocks.map Prod.fst) := by
  have hrest := compressors.octets_file features packing blocks
  obtain ⟨blob, blobs, hnext, htype, hdecode, hlive, hafter⟩ :=
    next_of_rest (r := ofBytes knowsOffset supported (compressors.file features packing blocks))
      BlobType.headerName hheader rfl (by decide) hrest
  have hkind : blob.kind = .header := by
    rw [Blob.kind, htype]
    rfl
  have hpass : disposition supported blob = .passOver [] :=
    disposition_of_header hkind hdecode hsupported
  exact (yields_congr (nextBlock_of_passOver hnext hpass)).2 (gives_of_rest hblocks hlive hafter)

/-- A file that was written is read back. An iteration over the blocks gives the blocks that were
put in, an iteration over the elements gives their elements, and both then give nothing more. If
the same blocks are packed in other ways, the same is given. -/
theorem files_are_read_back (knowsOffset : Bool) (compressors : Compressors)
    (features supported : List String) (packing : Packing) (blocks : List (BlockMessage × Packing))
    (hsupported : ∀ feature ∈ features, feature ∈ supported)
    (hheader : compressors.Fits (HeaderBlock.ofFeatures features) packing)
    (hblocks : ∀ b ∈ blocks, compressors.Fits b.1 b.2) :
    let r := ofBytes knowsOffset supported (compressors.file features packing blocks)
    let originals := blocks.map Prod.fst
    let elements := originals.flatMap BlockMessage.blockElements
    (∀ n, BlockIteration.nexts (originals.length + n) .start r =
      originals.map (.ok ∘ some) ++ List.replicate n (.ok none)) ∧
    (∀ n, ElementIteration.nexts (elements.length + n) .start r =
      elements.map (.ok ∘ some) ++ List.replicate n (.ok none)) ∧
    (∀ otherPacking otherBlocks, otherBlocks.map Prod.fst = originals →
      compressors.Fits (HeaderBlock.ofFeatures features) otherPacking →
      (∀ b ∈ otherBlocks, compressors.Fits b.1 b.2) →
      let s := ofBytes knowsOffset supported (compressors.file features otherPacking otherBlocks)
      ∀ n, BlockIteration.nexts n .start s = BlockIteration.nexts n .start r ∧
        ElementIteration.nexts n .start s = ElementIteration.nexts n .start r) := by
  intro r originals elements
  have hgives : r.Gives originals := gives_file knowsOffset supported hsupported hheader hblocks
  refine ⟨BlockIteration.nexts_of_gives hgives, ElementIteration.nexts_of_gives hgives, ?_⟩
  intro otherPacking otherBlocks hsame hotherHeader hotherBlocks s n
  have hothers : s.Gives originals := by
    have hgivesFile := gives_file knowsOffset supported hsupported hotherHeader hotherBlocks
    rwa [hsame] at hgivesFile
  exact ⟨BlockIteration.nexts_congr hothers hgives n, ElementIteration.nexts_congr hothers hgives n⟩

end ElementReader

namespace Sample

/-- A small block with one node. -/
def nodeBlock : BlockMessage := block [{ emptyGroup with nodes := [node] }] (.ofTexts [""])

/-- A small header. -/
def header : HeaderBlock := .ofFeatures ["DenseNodes"]

/-- A zlib stream of a small header. -/
def zlibHeader : ByteArray :=
  ⟨#[
    0x78, 0x9C, 0x53, 0xE2, 0x72, 0x49, 0xCD, 0x2B, 0x4E, 0xF5, 0xCB, 0x4F, 0x49, 0x2D, 0xD6,
    0x12, 0x0C, 0xCE, 0x2F, 0x2A, 0xD1, 0x0B, 0xA9, 0x2C, 0x48, 0x8D, 0x2F, 0xC9, 0x48, 0xCD,
    0x8B, 0xF7, 0x74, 0x69, 0x62, 0xE4, 0xC9, 0x2F, 0xCE, 0x2D, 0x48, 0x4A, 0xD3, 0x2D, 0x49,
    0x2D, 0x2E, 0x29, 0x06, 0x00, 0x6D, 0x5B, 0x10, 0x38]⟩

/-- An xz stream of the block. -/
def lzmaBlock : ByteArray :=
  ⟨#[
    0xFD, 0x37, 0x7A, 0x58, 0x5A, 0x00, 0x00, 0x04, 0xE6, 0xD6, 0xB4, 0x46, 0x02, 0x00, 0x21,
    0x01, 0x16, 0x00, 0x00, 0x00, 0x74, 0x2F, 0xE5, 0xA3, 0x01, 0x00, 0x15, 0x0A, 0x02, 0x0A,
    0x00, 0x12, 0x10, 0x0A, 0x0E, 0x08, 0x01, 0x40, 0xD0, 0xD7, 0xF4, 0xEF, 0x03, 0x48, 0xD0,
    0xF1, 0xA2, 0xC8, 0x01, 0x00, 0x00, 0x00, 0xD2, 0xF9, 0x47, 0x02, 0x20, 0x83, 0xAA, 0x3D,
    0x00, 0x01, 0x2E, 0x16, 0x56, 0x09, 0x55, 0xDF, 0x1F, 0xB6, 0xF3, 0x7D, 0x01, 0x00, 0x00,
    0x00, 0x00, 0x04, 0x59, 0x5A]⟩

/-- Functions that compress the header and the block. -/
def compressors : Compressors where
  zlib content := if content = Message.encode header then zlibHeader else Zlib.store content
  lzma content := if content = Message.encode nodeBlock then lzmaBlock else Xz.store content

/-- The header fits into a file when it is compressed. -/
theorem fits_header : compressors.Fits header .zlib := by
  have hcompress : compressors.zlib (Message.encode header) = zlibHeader := if_pos rfl
  have hdecompress : Codec.zlib.decompress zlibHeader = .ok (Message.encode header) :=
    eq_ok_of_toOption (by decide +kernel)
  refine ⟨by decide +kernel, ?_, ?_⟩
  · rw [hcompress]
    exact Codec.restores_of_decompress hdecompress
  · rw [hcompress]
    decide +kernel

/-- The block with a node fits into a file when it is compressed. -/
theorem fits_nodeBlock : compressors.Fits nodeBlock .lzma := by
  have hcompress : compressors.lzma (Message.encode nodeBlock) = lzmaBlock := if_pos rfl
  have hdecompress : Codec.lzma.decompress lzmaBlock = .ok (Message.encode nodeBlock) :=
    eq_ok_of_toOption (by decide +kernel)
  refine ⟨by decide +kernel, ?_, ?_⟩
  · rw [hcompress]
    exact Codec.restores_of_decompress hdecompress
  · rw [hcompress]
    decide +kernel

/-- The only element of this block is its node. -/
theorem blockElements_nodeBlock : nodeBlock.blockElements = [⟨nodeBlock, .node node⟩] := by
  have hempty : Walk.toList DenseWalk.empty = [] := Walk.toList_of_none (t := .empty) rfl
  have hdense : Walk.toList (GroupMessage.denseNodes { emptyGroup with nodes := [node] }) = [] :=
    hempty
  rw [BlockMessage.blockElements, BlockMessage.elements, nodeBlock, block, List.flatMap_singleton,
    GroupMessage.elements, hdense]
  rfl

end Sample

namespace ElementReader

/-- A block that is stored in two ways is given twice. -/
theorem small_file_is_read_back :
    (Sample.compressors.Fits (HeaderBlock.ofFeatures ["DenseNodes"]) .zlib ∧
      Sample.compressors.Fits Sample.nodeBlock .lzma ∧
      Sample.compressors.Fits Sample.nodeBlock .raw) ∧
    let r := ofBytes true supportedFeatures
      (Sample.compressors.file ["DenseNodes"] .zlib
        [(Sample.nodeBlock, .lzma), (Sample.nodeBlock, .raw)])
    BlockIteration.nexts 3 .start r =
        [.ok (some Sample.nodeBlock), .ok (some Sample.nodeBlock), .ok none] ∧
      ElementIteration.nexts 3 .start r =
        [.ok (some ⟨Sample.nodeBlock, .node Sample.node⟩),
          .ok (some ⟨Sample.nodeBlock, .node Sample.node⟩), .ok none] := by
  have hraw : Sample.compressors.Fits Sample.nodeBlock .raw :=
    ⟨Sample.fits_nodeBlock.size, trivial⟩
  have hblocks : ∀ b ∈ [(Sample.nodeBlock, Packing.lzma), (Sample.nodeBlock, Packing.raw)],
      Sample.compressors.Fits b.1 b.2 := by
    simp [Sample.fits_nodeBlock, hraw]
  have hread := files_are_read_back true Sample.compressors ["DenseNodes"] supportedFeatures .zlib
    [(Sample.nodeBlock, .lzma), (Sample.nodeBlock, .raw)] (by decide) Sample.fits_header hblocks
  have helements : [Sample.nodeBlock, Sample.nodeBlock].flatMap BlockMessage.blockElements =
      [⟨Sample.nodeBlock, .node Sample.node⟩, ⟨Sample.nodeBlock, .node Sample.node⟩] := by
    simp only [List.flatMap_cons, List.flatMap_nil, Sample.blockElements_nodeBlock]
    rfl
  have hnexts := hread.2.1 1
  simp only [List.map_cons, List.map_nil, helements] at hnexts
  exact ⟨⟨Sample.fits_header, Sample.fits_nodeBlock, hraw⟩, hread.1 1, hnexts⟩

end ElementReader

end MapArchive
