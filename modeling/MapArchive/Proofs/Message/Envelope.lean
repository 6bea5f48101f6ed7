import MapArchive.Message.Envelope
import MapArchive.Proofs.Wire.Message

/-!
# Reading what was written: messages of the outer layer

Headers of blobs are faithful. Blobs are read back too, but they need more care, as they keep the
records of unknown fields: a blob is sound if these are records that a blob can keep. Every blob
that is read is sound, and a sound blob is read back from its bytes.
-/

namespace MapArchive

open Record (AreSimple)

namespace BlobHeader

instance : Message.Faithful BlobHeader where
  areSimple header := by simp [Message.toRecords]
  ofRecords_toRecords room header _ := by
    have htype : Field.bytes? 1 (Message.toRecords header) = some header.type :=
      Field.bytes?_eq (by simp [Message.toRecords])
    have hindexData : Field.bytes? 2 (Message.toRecords header) = header.indexData :=
      Field.bytes?_eq (by simp [Message.toRecords])
    have hdataSize : Field.number? .int32 3 (Message.toRecords header) = some header.dataSize :=
      Field.number?_eq (by simp [Message.toRecords])
    simp only [Message.ofRecords, htype, hindexData, hdataSize, Option.getD_some]

end BlobHeader

namespace BlobBody

/-- A blob whose records of unknown fields are sorted, of no known tag, and can stand in a
message. -/
structure Sound (body : BlobBody) : Prop where
  /-- The records are in order. -/
  sorted : Record.sort body.unknown = body.unknown
  /-- No record belongs to a known field. -/
  tags : ∀ r ∈ body.unknown, r.tag ∉ knownTags
  /-- The records can stand in a message. -/
  records : ∀ r ∈ body.unknown, r.Sound Record.maxDepth

/-- The records of the known fields. -/
def knownRecords (body : BlobBody) : List Record :=
  (body.raw.map (Field.writeBytes 1)).toList ++
    (body.rawSize.map (Field.writeNumber .int32 2)).toList ++
    (body.zlib.map (Field.writeBytes 3)).toList ++
    (body.lzma.map (Field.writeBytes 4)).toList ++
    (body.bzip2.map (Field.writeBytes 5)).toList ++
    (body.lz4.map (Field.writeBytes 6)).toList ++
    (body.zstd.map (Field.writeBytes 7)).toList

/-- The records of a blob are those of known fields and then the unknown ones. -/
theorem toRecords_eq (body : BlobBody) :
    Message.toRecords body = body.knownRecords ++ body.unknown := rfl

/-- Records of known fields are simple. -/
theorem areSimple_knownRecords (body : BlobBody) : AreSimple body.knownRecords := by
  simp [knownRecords]

/-- The tag of a byte string says that it is one. -/
theorem tag_writeBytes (field : Nat) (content : ByteArray) :
    (Field.writeBytes field content).tag = ⟨field, 2⟩ := rfl

/-- The tag of a number says that it is one. -/
theorem tag_writeNumber {α : Type} (kind : Scalar α) (field : Nat) (a : α) :
    (Field.writeNumber kind field a).tag = ⟨field, 0⟩ := rfl

/-- Records of known fields have known tags. -/
theorem tag_of_mem_knownRecords {body : BlobBody} {r : Record} (hr : r ∈ body.knownRecords) :
    r.tag ∈ knownTags := by
  simp only [knownRecords, List.mem_append, Option.mem_toList] at hr
  rcases hr with (((((hr | hr) | hr) | hr) | hr) | hr) | hr
  all_goals
    obtain ⟨a, _, rfl⟩ := Option.map_eq_some_iff.1 hr
    simp [tag_writeBytes, tag_writeNumber, knownTags]

/-- Records of unknown fields hold no byte string of a known field. -/
theorem contents_unknown {field : Nat} {records : List Record} (hfield : ⟨field, 2⟩ ∈ knownTags)
    (h : ∀ r ∈ records, r.tag ∉ knownTags) : Field.contents field records = [] := by
  refine List.filterMap_eq_nil_iff.2 fun r hr => ?_
  have hr := h r hr
  obtain ⟨number, payload⟩ := r
  cases payload with
  | bytes content =>
    refine if_neg fun heq : number = field => hr ?_
    rw [heq]
    exact hfield
  | varint | fixed64 | group | fixed32 => rfl

/-- Records of unknown fields hold no number of a known field. -/
theorem words_unknown {field : Nat} {records : List Record} (hfield : ⟨field, 0⟩ ∈ knownTags)
    (h : ∀ r ∈ records, r.tag ∉ knownTags) : Field.words field records = [] := by
  refine List.filterMap_eq_nil_iff.2 fun r hr => ?_
  have hr := h r hr
  obtain ⟨number, payload⟩ := r
  cases payload with
  | varint value =>
    refine if_neg fun heq : number = field => hr ?_
    rw [heq]
    exact hfield
  | fixed64 | bytes | group | fixed32 => rfl

/-- Records of unknown fields change nothing about a byte string. -/
theorem bytes?_append_unknown {field : Nat} {known unknown : List Record}
    (hfield : ⟨field, 2⟩ ∈ knownTags) (h : ∀ r ∈ unknown, r.tag ∉ knownTags) :
    Field.bytes? field (known ++ unknown) = Field.bytes? field known := by
  have hunknown := contents_unknown hfield h
  unfold Field.contents at hunknown
  rw [Field.bytes?, Field.bytes?, Field.contents, Field.contents, List.filterMap_append, hunknown,
    List.append_nil]

/-- Records of unknown fields change nothing about a number. -/
theorem number?_append_unknown {α : Type} {kind : Scalar α} {field : Nat}
    {known unknown : List Record} (hfield : ⟨field, 0⟩ ∈ knownTags)
    (h : ∀ r ∈ unknown, r.tag ∉ knownTags) :
    Field.number? kind field (known ++ unknown) = Field.number? kind field known := by
  have hunknown := words_unknown hfield h
  unfold Field.words at hunknown
  rw [Field.number?, Field.number?, Field.words, Field.words, List.filterMap_append, hunknown,
    List.append_nil]

/-- Of all records those of unknown fields are found again. -/
theorem filter_toRecords {body : BlobBody} (h : body.Sound) :
    (Message.toRecords body).filter (·.tag ∉ knownTags) = body.unknown := by
  have hknown : body.knownRecords.filter (·.tag ∉ knownTags) = [] :=
    List.filter_eq_nil_iff.2 fun r hr => by simp [tag_of_mem_knownRecords hr]
  have hunknown : body.unknown.filter (·.tag ∉ knownTags) = body.unknown :=
    List.filter_eq_self.2 fun r hr => by simp [h.tags r hr]
  rw [toRecords_eq, List.filter_append, hknown, hunknown, List.nil_append]

/-- The records of a sound blob give it back. -/
theorem ofRecords_toRecords {body : BlobBody} (h : body.Sound) (room : Nat) :
    Message.ofRecords room (Message.toRecords body) = some body := by
  have hbytes (field : Nat) (hfield : ⟨field, 2⟩ ∈ knownTags) (content : Option ByteArray)
      (hknown : Record.ofField field body.knownRecords =
        (content.map (Field.writeBytes field)).toList) :
      Field.bytes? field (Message.toRecords body) = content := by
    rw [toRecords_eq, bytes?_append_unknown hfield h.tags, Field.bytes?_eq hknown]
  have hrawSize : Field.number? .int32 2 (Message.toRecords body) = body.rawSize := by
    rw [toRecords_eq, number?_append_unknown (by decide) h.tags]
    exact Field.number?_eq (by simp [knownRecords])
  have hraw := hbytes 1 (by decide) body.raw (by simp [knownRecords])
  have hzlib := hbytes 3 (by decide) body.zlib (by simp [knownRecords])
  have hlzma := hbytes 4 (by decide) body.lzma (by simp [knownRecords])
  have hbzip2 := hbytes 5 (by decide) body.bzip2 (by simp [knownRecords])
  have hlz4 := hbytes 6 (by decide) body.lz4 (by simp [knownRecords])
  have hzstd := hbytes 7 (by decide) body.zstd (by simp [knownRecords])
  simp only [Message.ofRecords, hraw, hrawSize, hzlib, hlzma, hbzip2, hlz4, hzstd,
    filter_toRecords h, h.sorted]

/-- The records of a sound blob that can be stored can stand in a message. -/
theorem sound_toRecords {body : BlobBody} (h : body.Sound) (hstorable : Message.Storable body) :
    ∀ r ∈ Message.toRecords body, r.Sound Record.maxDepth := by
  have hknown : Record.AreShort body.knownRecords := fun r hr =>
    hstorable r (List.mem_append_left body.unknown hr)
  intro r hr
  rw [toRecords_eq, List.mem_append] at hr
  rcases hr with hr | hr
  · exact Record.sound_of_isSimple body.areSimple_knownRecords hknown r hr
  · exact h.records r hr

/-- A sound blob that can be stored is read back. -/
theorem decode_encode_of_storable {body : BlobBody} (h : body.Sound)
    (hstorable : Message.Storable body) : Message.decode (Message.encode body) = some body := by
  have hread : Record.readAll Record.maxDepth (Message.encode body) =
      some (Message.toRecords body) := Record.readAll_writeAll (sound_toRecords h hstorable)
  rw [Message.decode, Message.decodeWithin, hread, Option.bind_some, ofRecords_toRecords h]

/-- A sound blob that is not too long is read back. -/
theorem decode_encode {body : BlobBody} (h : body.Sound)
    (hsize : (Message.encode body).size ≤ Record.maxLength) :
    Message.decode (Message.encode body) = some body :=
  decode_encode_of_storable h (Message.storable_of_size hsize)

/-- Every blob that is read is sound. -/
theorem sound_of_decode {bytes : ByteArray} {body : BlobBody}
    (h : Message.decode bytes = some body) : body.Sound := by
  obtain ⟨records, hread, hbody⟩ := Option.bind_eq_some_iff.1 h
  cases hbody
  have hmem {r : Record} (hr : r ∈ Record.sort (records.filter (·.tag ∉ knownTags))) :
      r ∈ records ∧ r.tag ∉ knownTags := by
    simpa using List.mem_mergeSort.1 hr
  refine ⟨Record.sort_sort _, fun r hr => (hmem hr).2, fun r hr => ?_⟩
  exact Record.sound_of_readAll hread r (hmem hr).1

/-- A blob without unknown fields is sound. -/
theorem sound_of_unknown_eq_nil {body : BlobBody} (h : body.unknown = []) : body.Sound := by
  refine ⟨?_, ?_, ?_⟩ <;> simp [h, Record.sort]

end BlobBody

end MapArchive
