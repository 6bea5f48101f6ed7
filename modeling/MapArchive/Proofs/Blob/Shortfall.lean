import MapArchive.Proofs.Blob.Conduct
import MapArchive.Proofs.Blob.Framing

/-!
# Missing bytes

When a stream in memory ends within a frame, bytes are missing of the length, of the header or of
the body. What is there of a part is then not decoded: the error says how many bytes were expected
and how many there were. If enough bytes follow, no such error is met.
-/

namespace MapArchive

namespace ArchiveError

/-- The error of a part of which only some bytes are there. -/
def shortfall (location : String) (expected got : Nat) : ArchiveError :=
  .malformed location s!"unexpected end of stream: expected {expected} bytes, got {got}"

/-- The error is that bytes are missing. -/
def IsShortfall (e : ArchiveError) : Prop :=
  e = .invalidHeaderSize ∨ ∃ location expected got, e = shortfall location expected got

/-- Fewer bytes than were expected are a shortfall. -/
theorem isShortfall_shortfall (location : String) (expected got : Nat) :
    (shortfall location expected got).IsShortfall := .inr ⟨location, expected, got, rfl⟩

/-- A header that is too long is no shortfall. -/
theorem not_isShortfall_headerTooBig (size : Int) : ¬(headerTooBig size).IsShortfall := by
  rintro (h | ⟨location, expected, got, h⟩) <;> cases h

/-- A message that cannot be decoded is no shortfall. -/
theorem not_isShortfall_undecodable (location : String) : ¬(undecodable location).IsShortfall := by
  rintro (h | ⟨place, expected, got, h⟩) <;> cases h

/-- Words that start otherwise are not those for missing bytes. -/
theorem not_isShortfall_malformed {location reason : String} {c : Char}
    (h : reason.toList.head? = some c) (hc : c ≠ 'u') :
    ¬(malformed location reason).IsShortfall := by
  rintro (hsize | ⟨place, expected, got, hshort⟩)
  · cases hsize
  · unfold shortfall at hshort
    cases hshort
    have hhead : c = 'u' := by
      simpa [toString, String.toList_append, eq_comm] using h
    exact hc hhead

end ArchiveError

namespace Frame

variable {s : MemoryStream}

/-- What is missing of a length is not made up for. -/
theorem readLength_of_short (hpos : 0 < s.remaining) (hlt : s.remaining < 4) :
    (readLength s).1 = .error (.archive .invalidHeaderSize) := by
  have hread : ByteStream.read 4 s = (.ok (s.read 4).1, (s.read 4).2) := rfl
  have hsize := MemoryStream.size_of_read 4 s
  rw [readLength, hread]
  dsimp only
  rw [if_neg (by omega), if_pos (by omega)]

/-- If some bytes of a length are missing, there is no frame. -/
theorem read_of_short (hpos : 0 < s.remaining) (hlt : s.remaining < 4) :
    (read s).1 = .error (.archive .invalidHeaderSize) := by
  rw [Reading.eq (.noLength (Prod.ext (readLength_of_short hpos hlt) rfl))]

section Part

variable {α : Type} [Message α] {n : Nat}

/-- What there is of a part is not decoded. -/
theorem readPart_of_short (location : String) (hlt : s.remaining < n) :
    (readPart α location n s).1 = .error (.archive (.shortfall location n s.remaining)) := by
  have hread : ByteStream.read n s = (.ok (s.read n).1, (s.read n).2) := rfl
  have hsize : (s.read n).1.size = s.remaining := by
    rw [MemoryStream.size_of_read]
    omega
  rw [readPart, hread]
  dsimp only
  rw [hsize, if_pos (by omega)]
  rfl

/-- If all bytes of a part are there, none are missing. -/
theorem not_isShortfall_of_readPart {location : String} {e : ArchiveError} (hle : n ≤ s.remaining)
    (h : (readPart α location n s).1 = .error (.archive e)) : ¬e.IsShortfall := by
  have hread : ByteStream.read n s = (.ok (s.read n).1, (s.read n).2) := rfl
  have hsize : (s.read n).1.size = n := by
    rw [MemoryStream.size_of_read]
    omega
  rw [readPart, hread] at h
  dsimp only at h
  rw [hsize, if_neg (by simp)] at h
  dsimp only [readMessage] at h
  split at h
  · cases h
  · cases h
    exact ArchiveError.not_isShortfall_undecodable location

end Part

/-- If all bytes of a length are there, none are missing. -/
theorem not_isShortfall_of_readLength {e : ArchiveError} (hle : 4 ≤ s.remaining)
    (h : (readLength s).1 = .error (.archive e)) : ¬e.IsShortfall := by
  have hsize := MemoryStream.size_of_read 4 s
  have hblame : Blames [exchange 4 s] e := failure_of_readLength (Prod.ext h rfl)
  cases hblame with
  | length hbad =>
    rcases hbad with ⟨fault, hfault⟩ | ⟨bytes, hbytes, _, hshort⟩
    · cases hfault
    · cases hbytes
      omega
  | size => exact ArchiveError.not_isShortfall_headerTooBig _

/-- A header that does not pass the checks is there. -/
theorem not_isShortfall_of_checkHeader {header : BlobHeader} {e : ArchiveError}
    (h : checkHeader header = .error e) : ¬e.IsShortfall := by
  have htype (rest : String) : ("type is not valid UTF-8: " ++ rest).toList.head? = some 't' := by
    rw [String.toList_append]
    rfl
  have hsize (n : Int) : (s!"negative datasize: {n}").toList.head? = some 'n' := by
    simp [toString, String.toList_append]
  unfold checkHeader at h
  split at h
  · cases h
    exact ArchiveError.not_isShortfall_malformed (htype _) (by decide)
  · split at h
    · cases h
      exact ArchiveError.not_isShortfall_malformed (hsize _) (by decide)
    · cases h

/-- No frame is longer. -/
def maxSize : Nat := 4 + maxHeaderSize + 0x7fffffff

/-- If there are as many bytes as the longest frame has, none are missing. -/
theorem not_isShortfall_of_read {e : ArchiveError} (hle : maxSize ≤ s.remaining)
    (h : (read s).1 = .error (.archive e)) : ¬e.IsShortfall := by
  -- What the reads before it have taken leaves enough for every read.
  have hsum : maxSize = 4 + maxHeaderSize + 0x7fffffff := rfl
  have hafter := MemoryStream.remaining_le_read 4 s
  rw [← after_readLength] at hafter
  have hreading := reading_read s
  generalize read s = result at h hreading
  cases hreading with
  | noLength hlength =>
    have hle : 4 ≤ s.remaining := by omega
    cases h
    exact not_isShortfall_of_readLength hle (congrArg Prod.fst hlength)
  | @noHeader n _ t _ hlength hheader =>
    obtain ⟨_, hlt⟩ := length_of_readLength hlength
    rw [hlength] at hafter
    dsimp only at hafter
    have hle : n ≤ t.remaining := by omega
    cases h
    exact not_isShortfall_of_readPart (α := BlobHeader) hle (congrArg Prod.fst hheader)
  | badHeader _ _ hcheck =>
    cases h
    exact not_isShortfall_of_checkHeader hcheck
  | @noBody n header _ _ t u _ hlength hheader _ hbody =>
    obtain ⟨_, hlt⟩ := length_of_readLength hlength
    have hbodySize := bodySize_le header
    have hthen := MemoryStream.remaining_le_read n t
    rw [← after_readPart (α := BlobHeader) "blob header", hheader] at hthen
    rw [hlength] at hafter
    dsimp only at hafter hthen
    have hle : bodySize header ≤ u.remaining := by omega
    cases h
    exact not_isShortfall_of_readPart (α := BlobBody) hle (congrArg Prod.fst hbody)
  | ended | found => cases h

end Frame

end MapArchive
