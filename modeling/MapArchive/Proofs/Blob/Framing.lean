import MapArchive.Proofs.Blob.Frame
import MapArchive.Proofs.Bytes.Endian
import MapArchive.Proofs.Message.Envelope
import MapArchive.Proofs.Stream.Memory
import MapArchive.Proofs.Text.Utf8
import MapArchive.Writer.Frame

/-!
# Reading what was written: frames

A frame is read back from a stream whose unread bytes start with it, and the bytes after it are
left. The only limit is on the length of the header: it has to be below `maxHeaderSize`, and a frame
with a longer header is refused.
-/

namespace MapArchive

/-- What can be put into a frame: a type, and a blob that can be read back. -/
structure Enclosure where
  /-- The name of the type. -/
  type : String
  /-- The blob. -/
  body : BlobBody
  /-- The records of unknown fields are as a blob keeps them. -/
  sound : body.Sound
  /-- The length of the blob can be given in the header. -/
  fits : (Message.encode body).size ≤ Record.maxLength

namespace Enclosure

/-- The bytes of the blob. -/
def content (e : Enclosure) : ByteArray := Message.encode e.body

/-- The header in front of the blob. -/
def header (e : Enclosure) : BlobHeader := Frame.headerOf e.type e.content

/-- The length of the header. -/
def headerSize (e : Enclosure) : Nat := (Message.encode e.header).size

/-- The frame. -/
def frame (e : Enclosure) : ByteArray := Frame.write e.type e.body

/-- The blob, as a reader gives it. -/
def blob (e : Enclosure) (offset : Option Nat) : Blob :=
  ⟨e.type, none, e.content.size, e.body, offset⟩

/-- The frame consists of the length of the header, the header and the blob. -/
theorem octets_frame (e : Enclosure) :
    octets e.frame =
      Endian.big 4 e.headerSize ++ (octets (Message.encode e.header) ++ octets e.content) := by
  simp [frame, Frame.write, headerSize, header, content]

/-- A frame is as long as its length, its header and its content together. -/
theorem size_frame (e : Enclosure) : e.frame.size = 4 + e.headerSize + e.content.size := by
  rw [← length_octets, octets_frame, List.length_append, List.length_append, Endian.length_big,
    length_octets, length_octets, headerSize, Nat.add_assoc]

/-- The length in the header is the length of the blob. -/
theorem bodySize_header (e : Enclosure) : Frame.bodySize e.header = e.content.size := by
  have hsize : e.content.size < 2 ^ 31 := by
    have := e.fits
    simp only [Record.maxLength] at this
    exact Nat.lt_of_le_of_lt this (by decide)
  have hint : (Int32.ofNat e.content.size).toInt = e.content.size := Int32.toInt_ofNat_of_lt hsize
  show (Int32.ofNat e.content.size).toInt.toNat = e.content.size
  rw [hint, Int.toNat_natCast]

/-- The header passes the checks. -/
theorem checkHeader_header (e : Enclosure) : Frame.checkHeader e.header = .ok e.type := by
  have htext : Field.textOfBytes? e.header.type = some e.type := Field.textOfBytes?_encode e.type
  have hsize : e.content.size < 2 ^ 31 := by
    have := e.fits
    simp only [Record.maxLength] at this
    exact Nat.lt_of_le_of_lt this (by decide)
  have hint : (Int32.ofNat e.content.size).toInt = e.content.size := Int32.toInt_ofNat_of_lt hsize
  have hnonneg : ¬e.header.dataSize < 0 := by
    rw [Int32.lt_iff_toInt_lt]
    show ¬(Int32.ofNat e.content.size).toInt < 0
    rw [hint]
    omega
  rw [Frame.checkHeader, htext]
  exact if_neg hnonneg

end Enclosure

namespace Frame

variable {s : MemoryStream} {more : List UInt8}

/-- A length in four bytes is read, or refused if it is not below the limit. -/
theorem readLength_of_rest {n : Nat} (hn : n < 2 ^ 32) (h : s.rest = Endian.big 4 n ++ more) :
    readLength s =
      (if maxHeaderSize ≤ n then .error (.archive (.headerTooBig n)) else .ok (some n),
        s.skip 4) := by
  have hread := MemoryStream.read_of_rest h
  rw [Endian.length_big] at hread
  have hsize : (ofOctets (Endian.big 4 n)).size = 4 := by
    rw [← length_octets, octets_ofOctets, Endian.length_big]
  have hvalue : Endian.ofBig (Endian.big 4 n) = n := by
    rw [Endian.ofBig_big]
    exact Nat.mod_eq_of_lt hn
  rw [readLength, hread]
  dsimp only
  rw [hsize, octets_ofOctets, hvalue, if_neg (by decide), if_neg (by decide)]
  split <;> rfl

/-- A part of a frame is read if the unread bytes start with a message of that length. -/
theorem readPart_of_rest {α : Type} [Message α] (location : String) {a : α} {part : ByteArray}
    (hdecode : Message.decode part = some a) (h : s.rest = octets part ++ more) :
    readPart α location part.size s = (.ok a, s.skip part.size) := by
  have hread := MemoryStream.read_of_rest h
  rw [length_octets, ofOctets_octets] at hread
  rw [readPart, hread]
  dsimp only
  rw [if_neg (by simp), readMessage, hdecode]
  rfl

section Short

variable {e : Enclosure}

/-- The length of a short header is read. -/
theorem readLength_of_short_header (hheader : e.headerSize < maxHeaderSize)
    (h : s.rest = Endian.big 4 e.headerSize ++ more) :
    readLength s = (.ok (some e.headerSize), s.skip 4) ∧ (s.skip 4).rest = more := by
  have hlength := readLength_of_rest (Nat.lt_trans hheader (by decide)) h
  rw [if_neg (Nat.not_le.2 hheader)] at hlength
  have hafter := MemoryStream.rest_skip h
  rw [Endian.length_big] at hafter
  exact ⟨hlength, hafter⟩

/-- A short header is read. -/
theorem readPart_of_short_header (hheader : e.headerSize < maxHeaderSize)
    (h : s.rest = octets (Message.encode e.header) ++ more) :
    readPart BlobHeader "blob header" e.headerSize s = (.ok e.header, s.skip e.headerSize) ∧
      (s.skip e.headerSize).rest = more := by
  have hfits : (Message.encode e.header).size ≤ Record.maxLength :=
    Nat.le_trans (Nat.le_of_lt hheader) (by decide)
  have hafter := MemoryStream.rest_skip h
  rw [length_octets] at hafter
  exact ⟨readPart_of_rest "blob header" (Message.decode_encode hfits) h, hafter⟩

/-- A frame with a short header is read back. -/
theorem read_of_rest (hheader : e.headerSize < maxHeaderSize)
    (h : s.rest = octets e.frame ++ more) :
    read s = (.ok (some ⟨e.headerSize, e.header, e.type, e.body⟩), s.skip e.frame.size) := by
  rw [e.octets_frame, List.append_assoc, List.append_assoc] at h
  obtain ⟨hreadLength, hafterLength⟩ := readLength_of_short_header hheader h
  obtain ⟨hreadHeader, hafterHeader⟩ := readPart_of_short_header hheader hafterLength
  have hreadBody := readPart_of_rest "blob content" (BlobBody.decode_encode e.sound e.fits)
    hafterHeader
  rw [← Enclosure.content, ← e.bodySize_header] at hreadBody
  rw [Reading.eq (.found hreadLength hreadHeader e.checkHeader_header hreadBody),
    e.bodySize_header, e.size_frame, MemoryStream.skip_skip, MemoryStream.skip_skip,
    Nat.add_assoc]

end Short

/-- A frame with a long header is refused. -/
theorem read_of_rest_of_le {e : Enclosure} (hheader : maxHeaderSize ≤ e.headerSize)
    (hlength : e.headerSize < 2 ^ 32) (h : s.rest = octets e.frame ++ more) :
    read s = (.error (.archive (.headerTooBig e.headerSize)), s.skip 4) := by
  rw [e.octets_frame, List.append_assoc] at h
  rw [read, readLength_of_rest hlength h, if_pos hheader]

end Frame

end MapArchive
