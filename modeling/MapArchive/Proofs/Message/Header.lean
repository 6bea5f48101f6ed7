import MapArchive.Message.Header
import MapArchive.Proofs.Wire.Message

/-!
# Reading what was written: the header of a file

The header and the area in it are faithful.
-/

namespace MapArchive

instance : Message.Faithful HeaderBox where
  areSimple box := by simp [Message.toRecords]
  ofRecords_toRecords room box _ := by
    have hleft : Field.number? .sint64 1 (Message.toRecords box) = some box.left :=
      Field.number?_eq (by simp [Message.toRecords])
    have hright : Field.number? .sint64 2 (Message.toRecords box) = some box.right :=
      Field.number?_eq (by simp [Message.toRecords])
    have htop : Field.number? .sint64 3 (Message.toRecords box) = some box.top :=
      Field.number?_eq (by simp [Message.toRecords])
    have hbottom : Field.number? .sint64 4 (Message.toRecords box) = some box.bottom :=
      Field.number?_eq (by simp [Message.toRecords])
    simp only [Message.ofRecords, hleft, hright, htop, hbottom, Option.getD_some]

instance : Message.Faithful HeaderBlock where
  areSimple header := by simp [Message.toRecords]
  ofRecords_toRecords room header hstorable := by
    have hbox : Field.message? HeaderBox 1 room (Message.toRecords header) = some header.box :=
      Field.message?_eq (by simp [Message.toRecords]) hstorable room
    have hrequiredFeatures : Field.texts 4 (Message.toRecords header) =
        some header.requiredFeatures :=
      Field.texts_eq (by simp [Message.toRecords])
    have hoptionalFeatures : Field.texts 5 (Message.toRecords header) =
        some header.optionalFeatures :=
      Field.texts_eq (by simp [Message.toRecords])
    have hwritingProgram : Field.text? 16 (Message.toRecords header) = some header.writingProgram :=
      Field.text?_eq (by simp [Message.toRecords])
    have hsource : Field.text? 17 (Message.toRecords header) = some header.source :=
      Field.text?_eq (by simp [Message.toRecords])
    have hreplicationTimestamp : Field.number? .int64 32 (Message.toRecords header) =
        header.replicationTimestamp :=
      Field.number?_eq (by simp [Message.toRecords])
    have hreplicationSequenceNumber : Field.number? .int64 33 (Message.toRecords header) =
        header.replicationSequenceNumber :=
      Field.number?_eq (by simp [Message.toRecords])
    have hreplicationBaseUrl : Field.text? 34 (Message.toRecords header) =
        some header.replicationBaseUrl :=
      Field.text?_eq (by simp [Message.toRecords])
    simp only [Message.ofRecords, hbox, hrequiredFeatures, hoptionalFeatures, hwritingProgram,
      hsource, hreplicationTimestamp, hreplicationSequenceNumber, hreplicationBaseUrl]
    rfl

end MapArchive
