import MapArchive.Proofs.Blob.Decompression
import MapArchive.Proofs.Blob.Framing

/-!
# Reading what was written: the content of blobs

A blob into which a message was packed gives the message back, in whichever of the three ways it
was packed. About compressors it is assumed that decompressing gives the content back and comes to
the end of the stream, and that what they put out can be stored in a blob.
-/

namespace MapArchive

namespace Record

/-- A tag has no more than five bytes. -/
theorem length_writeTag_le {field kind : Nat} (hfield : field < 2 ^ 29) (hkind : kind < 8) :
    (writeTag field kind).length ≤ 5 := by
  have htag : 8 * field + kind < 128 ^ 5 := by omega
  exact Varint.length_writeNat_le (by decide) htag

/-- A number takes a few bytes. -/
theorem length_write_varint_le (field : Nat) (value : UInt64) (hfield : field < 2 ^ 29) :
    (write ⟨field, .varint value⟩).length ≤ 15 := by
  have htag := length_writeTag_le hfield (show 0 < 8 by decide)
  have hvalue := Varint.length_write_le value
  simp only [Varint.maxLength] at hvalue
  simp only [write, List.length_append]
  omega

/-- A byte string takes a few bytes more than it has. -/
theorem length_write_bytes_le (field : Nat) (content : ByteArray) (hfield : field < 2 ^ 29)
    (hsize : content.size ≤ maxLength) :
    (write ⟨field, .bytes content⟩).length ≤ content.size + 10 := by
  have htag := length_writeTag_le hfield (show 2 < 8 by decide)
  have hlength : (Varint.writeNat content.size).length ≤ 5 := by
    refine Varint.length_writeNat_le (by decide) ?_
    simp only [maxLength] at hsize
    omega
  simp only [write, List.length_append, length_octets]
  omega

/-- Two records take as many bytes as each on its own. -/
theorem size_writeAll_pair (a b : Record) :
    (writeAll [a, b]).size = a.write.length + b.write.length := by
  rw [← length_octets, writeAll, octets_ofOctets, List.flatMap_cons, List.flatMap_cons,
    List.flatMap_nil, List.append_nil, List.length_append]

end Record

namespace Enclosure

/-- The header is a few bytes longer than the name of the type. -/
theorem headerSize_le (e : Enclosure) (htype : e.header.type.size ≤ Record.maxLength) :
    e.headerSize ≤ e.header.type.size + 25 := by
  have hname := Record.length_write_bytes_le 1 e.header.type (by decide) htype
  have hsize := Record.length_write_varint_le 3 (Scalar.int32.toWord e.header.dataSize) (by decide)
  have hrecords : Message.toRecords e.header =
      [⟨1, .bytes e.header.type⟩, ⟨3, .varint (Scalar.int32.toWord e.header.dataSize)⟩] := rfl
  rw [headerSize, Message.encode, hrecords, Record.size_writeAll_pair]
  omega

end Enclosure

namespace Compressors

/-- What is assumed of the compressor for a way of packing, about some content: decompressing gives
the content back and comes to the end of the stream, and compressing makes nothing so much longer
that a frame could not hold it. -/
def Restores (compressors : Compressors) (content : ByteArray) : Packing → Prop
  | .raw => True
  | .zlib =>
    Codec.zlib.Restores (compressors.zlib content) content ∧
      (compressors.zlib content).size ≤ 2 * maxContentSize
  | .lzma =>
    Codec.lzma.Restores (compressors.lzma content) content ∧
      (compressors.lzma content).size ≤ 2 * maxContentSize

end Compressors

namespace BlobBody

variable {compressors : Compressors} {packing : Packing}

/-- Packed content is found again. -/
theorem contentBytes_pack {content : ByteArray} (h : compressors.Restores content packing)
    (hsize : content.size < maxContentSize) :
    ∃ location, (pack compressors packing content).contentBytes = .ok (location, content) := by
  cases packing with
  | raw =>
    refine ⟨"raw blob data", ?_⟩
    exact if_neg (Nat.not_le.2 hsize)
  | zlib =>
    refine ⟨Codec.zlib.location, ?_⟩
    have hdecompress := Codec.decompress_of_restores h.1 (Nat.le_of_lt hsize)
    show (do return (Codec.zlib.location, ← Codec.zlib.decompress (compressors.zlib content))) = _
    rw [hdecompress]
    rfl
  | lzma =>
    refine ⟨Codec.lzma.location, ?_⟩
    have hdecompress := Codec.decompress_of_restores h.1 (Nat.le_of_lt hsize)
    show (do return (Codec.lzma.location, ← Codec.lzma.decompress (compressors.lzma content))) = _
    rw [hdecompress]
    rfl

/-- Packed content can be stored in a frame. -/
theorem size_encode_pack {content : ByteArray} (h : compressors.Restores content packing)
    (hsize : content.size < maxContentSize) :
    (Message.encode (pack compressors packing content)).size ≤ Record.maxLength := by
  have hlength := Record.length_write_varint_le 2
    (Scalar.int32.toWord (Int32.ofNat content.size)) (by decide)
  have hpair (field : Nat) {stored : ByteArray} (hfield : field < 2 ^ 29)
      (hstored : stored.size ≤ 2 * maxContentSize) :
      (Record.write ⟨field, .bytes stored⟩).length + 15 ≤ Record.maxLength := by
    have hbytes := Record.length_write_bytes_le field stored hfield
      (Nat.le_trans hstored (by decide))
    simp only [maxContentSize, Record.maxLength] at hstored ⊢
    omega
  cases packing with
  | raw =>
    have hrecords : Message.toRecords (pack compressors .raw content) =
        [⟨1, .bytes content⟩, ⟨2, .varint (Scalar.int32.toWord (Int32.ofNat content.size))⟩] := rfl
    have hcontent := hpair 1 (by decide) (show content.size ≤ 2 * maxContentSize by omega)
    rw [Message.encode, hrecords, Record.size_writeAll_pair]
    omega
  | zlib =>
    have hrecords : Message.toRecords (pack compressors .zlib content) =
        [⟨2, .varint (Scalar.int32.toWord (Int32.ofNat content.size))⟩,
          ⟨3, .bytes (compressors.zlib content)⟩] := rfl
    have hcontent := hpair 3 (by decide) h.2
    rw [Message.encode, hrecords, Record.size_writeAll_pair]
    omega
  | lzma =>
    have hrecords : Message.toRecords (pack compressors .lzma content) =
        [⟨2, .varint (Scalar.int32.toWord (Int32.ofNat content.size))⟩,
          ⟨4, .bytes (compressors.lzma content)⟩] := rfl
    have hcontent := hpair 4 (by decide) h.2
    rw [Message.encode, hrecords, Record.size_writeAll_pair]
    omega

/-- Packed content has no unknown fields. -/
theorem sound_pack (content : ByteArray) : (pack compressors packing content).Sound := by
  cases packing <;> exact sound_of_unknown_eq_nil rfl

/-- A message that was packed is found again. -/
theorem decode_ofMessage {α : Type} [Message α] [Message.Faithful α] {message : α}
    (h : compressors.Restores (Message.encode message) packing)
    (hsize : (Message.encode message).size < maxContentSize) :
    (ofMessage compressors packing message).decode α = .ok message := by
  obtain ⟨location, hcontent⟩ := contentBytes_pack h hsize
  have hfits : (Message.encode message).size ≤ Record.maxLength :=
    Nat.le_trans (Nat.le_of_lt hsize) (by decide)
  rw [decode, ofMessage, hcontent]
  show readMessage α location (Message.encode message) = _
  rw [readMessage, Message.decode_encode hfits]

end BlobBody

namespace Enclosure

variable {α : Type} [Message α]

/-- A message that is to be put into a frame, in some way of packing it. -/
def ofMessage (compressors : Compressors) (packing : Packing) (type : String) (message : α)
    (h : compressors.Restores (Message.encode message) packing)
    (hsize : (Message.encode message).size < maxContentSize) : Enclosure where
  type
  body := BlobBody.ofMessage compressors packing message
  sound := BlobBody.sound_pack (Message.encode message)
  fits := BlobBody.size_encode_pack h hsize

end Enclosure

end MapArchive
