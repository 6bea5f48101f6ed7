import MapArchive.Message.Block
import MapArchive.Proofs.Blob.Decompression
import MapArchive.Proofs.Compression.Stored

/-!
# The content field that counts

Of the content fields of a blob the first one that is present counts, in the order in which they are
looked for. It alone decides what becomes of the blob: neither later fields nor the length that is
given for the content are ever looked at. Content stored as it is has to be shorter than the limit.
Compressed content may be just as long as the limit, and this is found out while it is decompressed:
as soon as the decompressor has more to put out than one byte over the limit, nothing that follows
matters.
-/

namespace MapArchive

/-- The fields in which content can be stored. -/
inductive ContentField where
  /-- The content as it is. -/
  | raw
  /-- The content in a compression that can be undone. -/
  | compressed (codec : Codec)
  /-- The content in LZ4 compression. -/
  | lz4
  /-- The content in Zstandard compression. -/
  | zstd
  deriving DecidableEq

namespace ContentField

/-- All fields. Of those that are present the first one counts. -/
def inOrder : List ContentField :=
  [.raw, .compressed .zlib, .compressed .lzma, .compressed .bzip2, .lz4, .zstd]

/-- How many fields come before a field. -/
def place (field : ContentField) : Nat := inOrder.idxOf field

/-- What a body has in a field. -/
def bytes? (body : BlobBody) : ContentField → Option ByteArray
  | .raw => body.raw
  | .compressed .zlib => body.zlib
  | .compressed .lzma => body.lzma
  | .compressed .bzip2 => body.bzip2
  | .lz4 => body.lz4
  | .zstd => body.zstd

/-- What it means that bytes are stored in a field. -/
def stored (bytes : ByteArray) : ContentField → StoredContent
  | .raw => .raw bytes
  | .compressed codec => .compressed codec bytes
  | .lz4 => .unsupported "LZ4"
  | .zstd => .unsupported "ZSTD"

/-- The fields before a field, the field itself, and the fields after it. -/
theorem inOrder_eq (field : ContentField) :
    inOrder = inOrder.take field.place ++ field :: inOrder.drop (field.place + 1) := by
  cases field with
  | compressed codec => cases codec <;> rfl
  | raw | lz4 | zstd => rfl

/-- The fields before a field have earlier places. -/
theorem place_lt_of_mem_take {field earlier : ContentField}
    (h : earlier ∈ inOrder.take field.place) : earlier.place < field.place := by
  have hbefore : ∀ earlier ∈ inOrder.take field.place, earlier.place < field.place := by
    cases field with
    | compressed codec => cases codec <;> decide
    | raw | lz4 | zstd => decide
  exact hbefore earlier h

end ContentField

/-- A zlib stream that stores content is complete. -/
theorem Codec.isStream_store (content : ByteArray) (hsize : content.size ≤ maxContentSize) :
    Codec.zlib.IsStream (Zlib.store content) content := by
  have hlimit : content.size ≤ outputLimit := Nat.le_succ_of_le hsize
  have hturns : content.size < Decoder.turnLimit := Nat.lt_of_le_of_lt hsize (by decide)
  have hinput : (Cursor.atStart (Zlib.store content)).rest = octets (Zlib.store content) ++ [] := by
    rw [Cursor.rest_atStart, List.append_nil]
  obtain ⟨rest, hrun, hrest⟩ := Zlib.run_store hlimit hturns hinput
  refine ⟨rest, hrun, ?_⟩
  rw [← Cursor.length_rest, hrest, List.length_nil]

namespace Sample

/-- A block with nothing but a string table, in which there is one empty string. -/
def shortBlock : ByteArray := ofOctets [0x0A, 2, 0x0A, 0]

/-- Pieces of zeros. Together they are one byte longer than content may be. -/
def zeros : List (List UInt8) :=
  List.replicate 512 (List.replicate 0xFFFF 0) ++ [List.replicate 513 0]

/-- No piece is longer than a stored block may be. -/
theorem length_le_of_mem_zeros : ∀ piece ∈ zeros, piece.length ≤ 0xFFFF := by
  intro piece hpiece
  rcases List.mem_append.1 hpiece with hfull | hlast
  · exact Nat.le_of_eq (by rw [List.eq_of_mem_replicate hfull, List.length_replicate])
  · rw [List.mem_singleton.1 hlast, List.length_replicate]
    omega

/-- The pieces are fewer than the turns that a loop may take. -/
theorem length_zeros : zeros.length < Decoder.turnLimit := by
  rw [zeros, List.length_append, List.length_replicate, List.length_singleton]
  decide

/-- The pieces make up as many bytes as may be given at most. -/
theorem length_flatten_zeros : zeros.flatten.length = Codec.outputLimit := by
  rw [zeros, List.flatten_append, List.flatten_singleton, List.length_append,
    List.length_flatten, List.map_replicate, List.sum_replicate_nat, List.length_replicate,
    List.length_replicate]
  rfl

/-- The start of a zlib stream that stores so many zeros. -/
def flood : ByteArray := Zlib.unfinished zeros

end Sample

/-- A field is the first one that is present, and has these bytes in it. -/
structure BlobBody.IsFirst (body : BlobBody) (field : ContentField) (bytes : ByteArray) :
    Prop where
  /-- The field is present. -/
  present : field.bytes? body = some bytes
  /-- No earlier one is. -/
  absent : ∀ earlier : ContentField, earlier.place < field.place → earlier.bytes? body = none

/-- What reading a message from compressed bytes comes to. -/
structure Codec.IsReading {α : Type} [Message α] (codec : Codec) (bytes : ByteArray)
    (result : Except ArchiveError α) : Prop where
  /-- Once still more than one byte over the limit is to be put out, nothing that follows
  matters. -/
  flooded : ∀ first rest : ByteArray, bytes = first ++ rest → codec.Floods first →
    result = .error (.messageTooBig (maxContentSize + 1))
  /-- One byte over the limit is too much at the end of the bytes or of the stream. -/
  exceeded : codec.Exceeds bytes → result = .error (.messageTooBig (maxContentSize + 1))
  /-- Once there is one byte over the limit, no message is read whatever follows. If this is not
  found too long, then it is found to be wrong. -/
  stopped : ∀ first rest : ByteArray, bytes = first ++ rest → codec.Exceeds first →
    result = .error (.messageTooBig (maxContentSize + 1)) ∨
      ∃ e, result = .error e ∧ e.location? = some codec.location
  /-- Behind the end of the stream nothing matters. -/
  restored : ∀ first rest content : ByteArray, bytes = first ++ rest →
    codec.Restores first content → content.size ≤ maxContentSize →
      result = readMessage α codec.location content
  /-- Otherwise there is something wrong with the stream. -/
  failed : ¬codec.Exceeds bytes → (∀ content, ¬codec.Restores bytes content) →
    ∃ e, result = .error e ∧ e.location? = some codec.location

/-- What reading a message from the field that counts comes to. -/
def ContentField.IsReading {α : Type} [Message α] (bytes : ByteArray)
    (result : Except ArchiveError α) : ContentField → Prop
  | .raw =>
    (maxContentSize ≤ bytes.size → result = .error (.messageTooBig bytes.size)) ∧
      (bytes.size < maxContentSize → result = readMessage α "raw blob data" bytes)
  | .compressed codec => codec.IsReading bytes result
  | .lz4 => result = .error (.unsupportedCompression "LZ4")
  | .zstd => result = .error (.unsupportedCompression "ZSTD")

namespace BlobBody

variable {α : Type} [Message α] {body other : BlobBody} {field : ContentField} {bytes : ByteArray}

/-- The fields are looked for in order. -/
theorem content_eq_findSome (body : BlobBody) :
    body.content =
      ((ContentField.inOrder.findSome? fun field =>
        (field.bytes? body).map fun bytes => field.stored bytes).getD .absent) := by
  obtain ⟨raw, rawSize, zlib, lzma, bzip2, lz4, zstd, unknown⟩ := body
  cases raw with
  | some => rfl
  | none =>
    cases zlib with
    | some => rfl
    | none =>
      cases lzma with
      | some => rfl
      | none =>
        cases bzip2 with
        | some => rfl
        | none =>
          cases lz4 with
          | some => rfl
          | none => cases zstd <;> rfl

/-- The content is what is stored in the first field. -/
theorem IsFirst.content_eq (h : body.IsFirst field bytes) : body.content = field.stored bytes := by
  have hpresent : ((field.bytes? body).map fun bytes => field.stored bytes) =
      some (field.stored bytes) := by
    rw [h.present, Option.map_some]
  have habsent : ∀ earlier ∈ ContentField.inOrder.take field.place,
      ((earlier.bytes? body).map fun bytes => earlier.stored bytes) = none := by
    intro earlier hearlier
    rw [h.absent earlier (ContentField.place_lt_of_mem_take hearlier), Option.map_none]
  rw [content_eq_findSome,
    List.findSome?_eq_some_iff.2 ⟨_, field, _, field.inOrder_eq, hpresent, habsent⟩,
    Option.getD_some]

/-- Where no field is present there is no content. -/
theorem content_of_absent (h : ∀ field : ContentField, field.bytes? body = none) :
    body.content = .absent := by
  have habsent : ∀ field ∈ ContentField.inOrder,
      ((field.bytes? body).map fun bytes => field.stored bytes) = none := by
    intro field _
    rw [h field, Option.map_none]
  rw [content_eq_findSome, List.findSome?_eq_none_iff.2 habsent, Option.getD_none]

/-- Bodies which agree up to the first field have the same first field. -/
theorem IsFirst.of_agree (h : body.IsFirst field bytes)
    (hagree : ∀ g : ContentField, g.place ≤ field.place → g.bytes? other = g.bytes? body) :
    other.IsFirst field bytes where
  present := (hagree field (Nat.le_refl _)).trans h.present
  absent earlier hlt := (hagree earlier (Nat.le_of_lt hlt)).trans (h.absent earlier hlt)

/-- A message is read from what decompressing gives. -/
theorem decode_of_compressed {codec : Codec} (h : body.content = .compressed codec bytes) :
    body.decode α = codec.decompress bytes >>= readMessage α codec.location := by
  rw [decode, contentBytes, h]
  dsimp only
  cases codec.decompress bytes <;> rfl

/-- What is wrong when decompressing is wrong with the body. -/
theorem decode_of_error {codec : Codec} {e : ArchiveError}
    (h : body.content = .compressed codec bytes) (he : codec.decompress bytes = .error e) :
    body.decode α = .error e := by
  rw [decode_of_compressed h, he]
  rfl

/-- What is read from compressed content. -/
theorem isReading_of_compressed {codec : Codec} (h : body.content = .compressed codec bytes) :
    codec.IsReading bytes (body.decode α) where
  flooded first rest hsplit hfloods := by
    subst hsplit
    exact decode_of_error h (Codec.decompress_of_exceeds (hfloods.exceeds rest))
  exceeded hexceeds := decode_of_error h (Codec.decompress_of_exceeds hexceeds)
  stopped first rest hsplit hexceeds := by
    subst hsplit
    by_cases hall : codec.Exceeds (first ++ rest)
    · exact .inl (decode_of_error h (Codec.decompress_of_exceeds hall))
    · right
      have hrestores (content : ByteArray) : ¬codec.Restores (first ++ rest) content :=
        fun hrestores => hall (.whole hrestores (hexceeds.size_of_restores hrestores))
      obtain ⟨e, he, hplace⟩ := Codec.location_of_decompress hrestores hall
      exact ⟨e, decode_of_error h he, hplace⟩
  restored first rest content hsplit hrestores hsize := by
    rw [decode_of_compressed h, hsplit,
      Codec.decompress_of_restores (hrestores.append rest) hsize]
    rfl
  failed hexceeds hrestores := by
    obtain ⟨e, he, hplace⟩ := Codec.location_of_decompress hrestores hexceeds
    exact ⟨e, decode_of_error h he, hplace⟩

/-- The second field is the first one that is present if the one before it is not. -/
theorem isFirst_zlib (hraw : body.raw = none) (hzlib : body.zlib = some bytes) :
    body.IsFirst (.compressed .zlib) bytes where
  present := hzlib
  absent earlier hlt := by
    cases earlier with
    | raw => exact hraw
    | compressed codec => cases codec <;> exact absurd hlt (by decide)
    | lz4 | zstd => exact absurd hlt (by decide)

/-- The first field that is present decides what becomes of a body. What comes after it does not
matter, and neither does the length that is given for the content. -/
theorem first_field_decides (α : Type) [Message α] (body : BlobBody) :
    ((∀ field : ContentField, field.bytes? body = none) → body.decode α = .error .emptyBlob) ∧
      ∀ (field : ContentField) (bytes : ByteArray), body.IsFirst field bytes →
        field.IsReading bytes (body.decode α) ∧
          ∀ other : BlobBody,
            (∀ g : ContentField, g.place ≤ field.place → g.bytes? other = g.bytes? body) →
              other.decode α = body.decode α := by
  constructor
  · intro habsent
    rw [decode, contentBytes, content_of_absent habsent]
    rfl
  · intro field bytes hfirst
    have hcontent := hfirst.content_eq
    constructor
    · cases field with
      | raw =>
        constructor
        · intro hlong
          rw [decode, contentBytes, hcontent]
          dsimp only [ContentField.stored]
          rw [if_pos hlong]
          rfl
        · intro hshort
          rw [decode, contentBytes, hcontent]
          dsimp only [ContentField.stored]
          rw [if_neg (Nat.not_le.2 hshort)]
          rfl
      | compressed codec => exact isReading_of_compressed hcontent
      | lz4 | zstd =>
        rw [decode, contentBytes, hcontent]
        rfl
    · intro other hagree
      rw [decode, contentBytes, (hfirst.of_agree hagree).content_eq, decode, contentBytes,
        hcontent]

/-- The length that is given and later fields do not matter, nor does what follows a complete stream
or a flood. -/
theorem lying_bodies_are_read :
    ({ empty with
        rawSize := some 7
        zlib := some (Zlib.store Sample.shortBlock ++ ofOctets [7])
        lz4 := some ByteArray.empty } : BlobBody).decode BlockMessage =
      readMessage BlockMessage "blob zlib data" Sample.shortBlock ∧
    ({ empty with
        rawSize := some 7
        zlib := some (Sample.flood ++ ofOctets (Zlib.storedBlock false [0]) ++ ofOctets [7]) } :
          BlobBody).decode BlockMessage = .error (.messageTooBig (maxContentSize + 1)) := by
  constructor
  · have hstream := Codec.isStream_store Sample.shortBlock (by decide)
    exact ((first_field_decides BlockMessage _).2 _ _ (isFirst_zlib rfl rfl)).1.restored _ _ _ rfl
      hstream.restores (by decide)
  · have hfull : Codec.outputLimit < Sample.zeros.flatten.length + [(0 : UInt8)].length := by
      rw [Sample.length_flatten_zeros]
      exact Nat.lt_succ_self Codec.outputLimit
    have hover := Zlib.overflows_unfinished Sample.length_le_of_mem_zeros
      (Nat.le_of_eq Sample.length_flatten_zeros) Sample.length_zeros (by decide) hfull
    exact ((first_field_decides BlockMessage _).2 _ _ (isFirst_zlib rfl rfl)).1.flooded _ _ rfl
      (.more hover)

/-- Of content that is too long by one byte it is not said that it is too long, if what follows is
found to be wrong before still more is to be put out. -/
theorem corruption_hides_length :
    Codec.zlib.decoder.run Codec.outputLimit ⟨.atStart Sample.flood, ByteArray.empty⟩ =
        .error (.starved (ofOctets Sample.zeros.flatten)) ∧
      (ofOctets Sample.zeros.flatten).size = maxContentSize + 1 ∧
      ({ empty with zlib := some Sample.flood } : BlobBody).decode BlockMessage =
        .error (.messageTooBig (maxContentSize + 1)) ∧
      ({ empty with zlib := some (Sample.flood ++ ofOctets [7]) } : BlobBody).decode
        BlockMessage = .error (.undecodable "blob zlib data") := by
  have hsize : (ofOctets Sample.zeros.flatten).size = maxContentSize + 1 :=
    Sample.length_flatten_zeros
  have hroom := Nat.le_of_eq Sample.length_flatten_zeros
  have hrun : Codec.zlib.decoder.run Codec.outputLimit ⟨.atStart Sample.flood, ByteArray.empty⟩ =
      .error (.starved (ofOctets Sample.zeros.flatten)) :=
    Zlib.run_unfinished Sample.length_le_of_mem_zeros hroom Sample.length_zeros
  have hcorrupt : Codec.zlib.decoder.run Codec.outputLimit
      ⟨.atStart (Sample.flood ++ ofOctets [7]), ByteArray.empty⟩ = .error .corrupt :=
    Zlib.run_unfinished_of_corrupt Sample.length_le_of_mem_zeros hroom Sample.length_zeros rfl
  refine ⟨hrun, hsize, ?_, ?_⟩
  · have hexceeds : Codec.zlib.Exceeds Sample.flood := .cut hrun (by omega)
    exact decode_of_error (isFirst_zlib rfl rfl).content_eq (Codec.decompress_of_exceeds hexceeds)
  · refine decode_of_error (isFirst_zlib rfl rfl).content_eq ?_
    rw [Codec.decompress, hcorrupt]
    rfl

/-- A complete compressed stream of content that is not too long, cut off anywhere, is not taken
for a shorter message: an error says that it was the compressed bytes that were being read. -/
theorem cut_content_is_located (α : Type) [Message α] {codec : Codec} {stream content : ByteArray}
    (hstream : codec.IsStream stream content) (hsize : content.size ≤ maxContentSize) {k : Nat}
    (hcut : k < stream.size) {body : BlobBody}
    (hbody : body.IsFirst (.compressed codec) (stream.extract 0 k)) :
    ∃ e, body.decode α = .error e ∧ e.location? = some codec.location := by
  obtain ⟨e, he, hplace⟩ := hstream.location_of_cut hsize hcut
  exact ⟨e, decode_of_error hbody.content_eq he, hplace⟩

/-- A stream without the last byte of its checksum, though it has all of the content. -/
theorem cut_checksum_is_located :
    ∃ e, ({ empty with zlib := some ((Zlib.store Sample.shortBlock).extract 0 14) } :
        BlobBody).decode BlockMessage = .error e ∧ e.location? = some "blob zlib data" := by
  have hstream := Codec.isStream_store Sample.shortBlock (by decide)
  have hcut : 14 < (Zlib.store Sample.shortBlock).size := by
    simp [Zlib.store, pieces, Zlib.storedBlocks, Zlib.storedBlock, Sample.shortBlock]
  exact cut_content_is_located BlockMessage hstream (by decide) hcut (isFirst_zlib rfl rfl)

end BlobBody

end MapArchive
