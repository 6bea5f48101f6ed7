import MapArchive.Wire.Field

/-!
# Messages of the outer layer

A file is a sequence of blobs. In front of each stands a `BlobHeader`, which gives its type and
length, and the blob itself is a `BlobBody`, whose content is stored in one of several fields,
according to the way in which it is compressed.
-/

namespace MapArchive

/-- What stands in front of a blob. -/
structure BlobHeader where
  /-- The name of the blob's type. The bytes are meant to be UTF-8, which the format does not
  ensure. They are kept as they are, for the reading of a frame to check them. -/
  type : ByteArray
  /-- Data about the content, of no further use here. -/
  indexData : Option ByteArray
  /-- The length of the blob. -/
  dataSize : Int32
  deriving DecidableEq

/-- A blob. At most one of the content fields should be present, which the format does not
ensure. What the format does not know of is kept, so that blobs which differ in it are different. -/
structure BlobBody where
  /-- The content as it is. -/
  raw : Option ByteArray
  /-- The length of the content, if it is compressed. -/
  rawSize : Option Int32
  /-- The content as a zlib stream. -/
  zlib : Option ByteArray
  /-- The content as an xz stream or in another form with LZMA data. -/
  lzma : Option ByteArray
  /-- The content as a bzip2 stream. -/
  bzip2 : Option ByteArray
  /-- The content in LZ4 compression. -/
  lz4 : Option ByteArray
  /-- The content in Zstandard compression. -/
  zstd : Option ByteArray
  /-- The records of no known field, by ascending tag. -/
  unknown : List Record
  deriving DecidableEq

namespace BlobHeader

instance : Message BlobHeader where
  ofRecords _ records := some
    { type := (Field.bytes? 1 records).getD ByteArray.empty
      indexData := Field.bytes? 2 records
      dataSize := (Field.number? .int32 3 records).getD 0 }
  toRecords header :=
    Field.writeBytes 1 header.type ::
      (header.indexData.map (Field.writeBytes 2)).toList ++
      [Field.writeNumber .int32 3 header.dataSize]

end BlobHeader

namespace BlobBody

/-- A blob without any content. -/
def empty : BlobBody := ⟨none, none, none, none, none, none, none, []⟩

/-- The tags of the known fields. -/
def knownTags : List Record.Tag := [⟨1, 2⟩, ⟨2, 0⟩, ⟨3, 2⟩, ⟨4, 2⟩, ⟨5, 2⟩, ⟨6, 2⟩, ⟨7, 2⟩]

instance : Message BlobBody where
  ofRecords _ records := some
    { raw := Field.bytes? 1 records
      rawSize := Field.number? .int32 2 records
      zlib := Field.bytes? 3 records
      lzma := Field.bytes? 4 records
      bzip2 := Field.bytes? 5 records
      lz4 := Field.bytes? 6 records
      zstd := Field.bytes? 7 records
      unknown := Record.sort (records.filter (·.tag ∉ knownTags)) }
  toRecords body :=
    (body.raw.map (Field.writeBytes 1)).toList ++
      (body.rawSize.map (Field.writeNumber .int32 2)).toList ++
      (body.zlib.map (Field.writeBytes 3)).toList ++
      (body.lzma.map (Field.writeBytes 4)).toList ++
      (body.bzip2.map (Field.writeBytes 5)).toList ++
      (body.lz4.map (Field.writeBytes 6)).toList ++
      (body.zstd.map (Field.writeBytes 7)).toList ++
      body.unknown

end BlobBody

end MapArchive
