import MapArchive.Wire.Field

/-!
# The header of a file

The first blob of a file says what a reader has to be able to do, which area the data covers, and
where they come from.

Its texts are assumed to be checked when the message is decoded: a header with a text that is not
valid UTF-8 is ill formed. Nothing is said here of decoders that hand such bytes over. The type of a
blob is not read in this way but kept as bytes (`BlobHeader.type`), since reading a frame has a
check of its own for it, which refuses a type that is not UTF-8 and says which bytes it found.
-/

namespace MapArchive

/-- The area covered, in nanodegrees. -/
structure HeaderBox where
  /-- Western edge. -/
  left : Int64
  /-- Eastern edge. -/
  right : Int64
  /-- Northern edge. -/
  top : Int64
  /-- Southern edge. -/
  bottom : Int64
  deriving DecidableEq

/-- The header of a file. All its texts are valid UTF-8, as decoding is assumed to make sure. -/
structure HeaderBlock where
  /-- The area covered. -/
  box : Option HeaderBox
  /-- What a reader has to be able to do. -/
  requiredFeatures : List String
  /-- What a reader may make use of. -/
  optionalFeatures : List String
  /-- The program that wrote the file. -/
  writingProgram : Option String
  /-- Where the data come from. -/
  source : Option String
  /-- The time of the data, in seconds since 1970. -/
  replicationTimestamp : Option Int64
  /-- The number of the data among their updates. -/
  replicationSequenceNumber : Option Int64
  /-- Where updates are found. -/
  replicationBaseUrl : Option String
  deriving DecidableEq

instance : Message HeaderBox where
  ofRecords _ records := some
    { left := (Field.number? .sint64 1 records).getD 0
      right := (Field.number? .sint64 2 records).getD 0
      top := (Field.number? .sint64 3 records).getD 0
      bottom := (Field.number? .sint64 4 records).getD 0 }
  toRecords box :=
    [Field.writeNumber .sint64 1 box.left, Field.writeNumber .sint64 2 box.right,
      Field.writeNumber .sint64 3 box.top, Field.writeNumber .sint64 4 box.bottom]

instance : Message HeaderBlock where
  ofRecords room records := do
    return {
      box := ← Field.message? HeaderBox 1 room records
      requiredFeatures := ← Field.texts 4 records
      optionalFeatures := ← Field.texts 5 records
      writingProgram := ← Field.text? 16 records
      source := ← Field.text? 17 records
      replicationTimestamp := Field.number? .int64 32 records
      replicationSequenceNumber := Field.number? .int64 33 records
      replicationBaseUrl := ← Field.text? 34 records }
  toRecords header :=
    (header.box.map (Field.writeMessage 1)).toList ++
      header.requiredFeatures.map (Field.writeText 4) ++
      header.optionalFeatures.map (Field.writeText 5) ++
      (header.writingProgram.map (Field.writeText 16)).toList ++
      (header.source.map (Field.writeText 17)).toList ++
      (header.replicationTimestamp.map (Field.writeNumber .int64 32)).toList ++
      (header.replicationSequenceNumber.map (Field.writeNumber .int64 33)).toList ++
      (header.replicationBaseUrl.map (Field.writeText 34)).toList

end MapArchive
