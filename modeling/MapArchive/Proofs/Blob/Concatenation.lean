import MapArchive.Proofs.Blob.Alike
import MapArchive.Proofs.Blob.Frame
import MapArchive.Proofs.Blob.Framing
import MapArchive.Proofs.Blob.History

/-!
# Reading what was written: files of frames

Once a reader of blobs has read a frame, it does to the rest of the file what it would do to a file
that consists of the rest only, apart from offsets. So frames that were written one after the other
are read one after the other.
-/

namespace MapArchive

namespace MemoryStream

/-- One stream has the bytes of another one and `k` more in front of them, and stands at the same
of these bytes. -/
structure Follows (k : Nat) (s t : MemoryStream) : Prop where
  /-- There are `k` bytes in front. -/
  bytes : ∃ front : List UInt8, front.length = k ∧ octets s.bytes = front ++ octets t.bytes
  /-- The streams stand at the same byte. -/
  position : s.position = t.position + k

variable {k : Nat} {s t : MemoryStream}

/-- The unread bytes of both streams are the same. -/
theorem rest_of_follows (h : Follows k s t) : s.rest = t.rest := by
  obtain ⟨⟨front, hlength, hbytes⟩, hposition⟩ := h
  rw [rest, rest, hbytes, hposition, Nat.add_comm, ← hlength, ← List.drop_drop, List.drop_left]

/-- Bytes in front do not matter when reading. -/
theorem readsAlike_follows (k : Nat) : ReadsAlike (Follows k) := by
  intro n s t h
  have hanswer : (s.read n).1 = (t.read n).1 := by
    rw [← ofOctets_octets (s.read n).1, ← ofOctets_octets (t.read n).1, octets_read, octets_read,
      rest_of_follows h]
  refine ⟨congrArg Except.ok hanswer, h.bytes, ?_⟩
  show s.position + (s.read n).1.size = t.position + (t.read n).1.size + k
  rw [hanswer, h.position, Nat.add_right_comm]

/-- Moving to a place that there can be leads there. -/
theorem seek_start (offset : Int) (s : MemoryStream) (hpos : 0 ≤ offset)
    (hlt : offset < positionLimit) :
    ByteStream.seek offset 0 s = (.ok offset.toNat, { s with position := offset.toNat }) := by
  have hoffset : isOffset offset = true := by
    simp only [isOffset, Bool.and_eq_true, decide_eq_true_eq]
    omega
  have hposition : offset.toNat < positionLimit := by omega
  have horigin : s.origin? 0 = some 0 := rfl
  show s.seek offset 0 = _
  rw [seek, hoffset, horigin]
  simp only [show isWhence 0 = true from rfl, Bool.not_true, Bool.or_self, Bool.false_eq_true,
    if_false, Int.cast_ofNat_Int, Int.zero_add, true_and, Int.not_lt.2 hpos, if_pos hposition]

end MemoryStream

namespace BlobReader

/-- A request that stays within the bytes of a file when there are `k` more in front of them: moves
go to places counted from the start. -/
def Request.IsWithin (k : Nat) (q : Request) : Prop :=
  ∀ offset whence, q.move? = some (offset, whence) →
    whence = 0 ∧ 0 ≤ offset ∧ offset + k < positionLimit

/-- The same request when there are `k` more bytes in front. -/
def Request.shift (k : Nat) : Request → Request
  | .next => .next
  | .seek offset => .seek (offset + k)
  | .seekRaw offset whence => .seekRaw (offset + k) whence

/-- The same answer when there are `k` more bytes in front. -/
def Answer.shift (k : Nat) : Answer → Answer
  | .blob result => .blob ((Relocation.shift k).answer result)
  | .position result => .position (result.map (· + k))

/-- The reader has the bytes of another reader and `k` more in front of them, and otherwise it is
the same. -/
abbrev Follows (k : Nat) (r s : BlobReader MemoryStream) : Prop :=
  Related (MemoryStream.Follows k) (Relocation.shift k) r s

variable {k : Nat} {r s : BlobReader MemoryStream}

/-- Bytes in front do not matter when moving to a place counted from the start. -/
theorem follows_seek {offset : Int} (h : Follows k r s) (hpos : 0 ≤ offset)
    (hlt : offset + k < positionLimit) :
    (r.seek (offset + k)).1 = (s.seek offset).1.map (· + k) ∧
      Follows k (r.seek (offset + k)).2 (s.seek offset).2 := by
  have hr := r.stream.seek_start (offset + k) (by omega) hlt
  have hs := s.stream.seek_start offset hpos (by omega)
  have hplace : (offset + k).toNat = offset.toNat + k := by omega
  rw [seek, seek, seekRaw, seekRaw, hr, hs, hplace]
  exact ⟨rfl, ⟨h.stream.bytes, rfl⟩, rfl, h.isHalted⟩

/-- Bytes in front do not matter in any request that stays within the other ones. -/
theorem follows_step {q : Request} (h : Follows k r s) (hq : q.IsWithin k) :
    (r.step (q.shift k)).answer = (s.step q).answer.shift k ∧
      Follows k (r.step (q.shift k)).after (s.step q).after := by
  cases q with
  | next =>
    obtain ⟨hanswer, hafter⟩ := related_next (MemoryStream.readsAlike_follows k) h
    exact ⟨congrArg Answer.blob hanswer, hafter⟩
  | seek offset =>
    obtain ⟨_, hpos, hlt⟩ := hq offset 0 rfl
    obtain ⟨hanswer, hafter⟩ := follows_seek h hpos hlt
    exact ⟨congrArg Answer.position hanswer, hafter⟩
  | seekRaw offset whence =>
    obtain ⟨rfl, hpos, hlt⟩ := hq offset whence rfl
    obtain ⟨hanswer, hafter⟩ := follows_seek h hpos hlt
    exact ⟨congrArg Answer.position hanswer, hafter⟩

/-- Bytes in front do not matter in all requests that stay within the other ones. -/
theorem answers_of_follows {requests : List Request} (h : Follows k r s)
    (hrequests : ∀ q ∈ requests, q.IsWithin k) :
    answers (requests.map (·.shift k)) r = (answers requests s).map (·.shift k) := by
  induction requests generalizing r s with
  | nil => rfl
  | cons q requests ih =>
    obtain ⟨hq, hrest⟩ := List.forall_mem_cons.1 hrequests
    obtain ⟨hanswer, hafter⟩ := follows_step h hq
    have hanswers := ih hafter hrest
    simp only [answers, List.map_cons, history_cons] at hanswers ⊢
    rw [hanswer, hanswers]

/-- A reader at the start of a byte string. -/
def ofBytes (knowsOffset : Bool) (bytes : ByteArray) : BlobReader MemoryStream :=
  ⟨.ofBytes bytes, if knowsOffset then some 0 else none, false, false⟩

section Frames

variable {e : Enclosure} {more : List UInt8}

/-- A frame with a short header is given as a blob. -/
theorem next_of_rest (h : r.isHalted = false) (hheader : e.headerSize < maxHeaderSize)
    (hrest : r.stream.rest = octets e.frame ++ more) :
    r.next = (.ok (some (e.blob r.offset)),
      { r with stream := r.stream.skip e.frame.size,
               offset := r.offset.map (· + e.frame.size) }) := by
  have hnext := next_of_frame h (Frame.read_of_rest hheader hrest)
  have hblob : Frame.blob ⟨e.headerSize, e.header, e.type, e.body⟩ r.offset = e.blob r.offset := by
    rw [Frame.blob, e.bodySize_header]
    rfl
  have hsize : Frame.size ⟨e.headerSize, e.header, e.type, e.body⟩ = e.frame.size := by
    rw [Frame.size, e.bodySize_header, e.size_frame]
  rw [hnext, hblob, hsize]

/-- At the end there is no blob. -/
theorem next_of_rest_nil (h : r.isHalted = false) (hrest : r.stream.rest = []) :
    r.next = (.ok none, r) :=
  next_of_end h (Frame.read_eq_end_iff.2 (MemoryStream.read_of_rest_nil hrest 4))

/-- At the end nothing more is given. -/
theorem nexts_of_rest_nil (h : r.isHalted = false) (hrest : r.stream.rest = []) (n : Nat) :
    nexts n r = List.replicate n (.ok none) := by
  have hnext := next_of_rest_nil h hrest
  induction n with
  | zero => rfl
  | succ n ih => rw [nexts, hnext, ih, List.replicate_succ]

/-- The frames one after the other. -/
def file : List Enclosure → ByteArray
  | [] => .empty
  | e :: enclosures => e.frame ++ file enclosures

/-- The blobs in the frames, of which the first starts at an offset. -/
def blobsFrom : Option Nat → List Enclosure → List Blob
  | _, [] => []
  | offset, e :: enclosures =>
    e.blob offset :: blobsFrom (offset.map (· + e.frame.size)) enclosures

/-- The blobs of all frames are given, and nothing more. -/
theorem nexts_of_rest {enclosures : List Enclosure} (h : r.isHalted = false)
    (hheaders : ∀ e ∈ enclosures, e.headerSize < maxHeaderSize)
    (hrest : r.stream.rest = octets (file enclosures)) (n : Nat) :
    nexts (enclosures.length + n) r =
      (blobsFrom r.offset enclosures).map (.ok ∘ some) ++ List.replicate n (.ok none) := by
  induction enclosures generalizing r with
  | nil =>
    rw [List.length_nil, Nat.zero_add]
    exact nexts_of_rest_nil h hrest n
  | cons e enclosures ih =>
    obtain ⟨hheader, hothers⟩ := List.forall_mem_cons.1 hheaders
    have hsplit : r.stream.rest = octets e.frame ++ octets (file enclosures) := by
      rw [hrest, file, octets_append]
    have hafter := MemoryStream.rest_skip hsplit
    rw [length_octets] at hafter
    rw [List.length_cons, Nat.add_right_comm, nexts, next_of_rest h hheader hsplit, blobsFrom]
    have hrest := ih (r := ⟨r.stream.skip e.frame.size, r.offset.map (· + e.frame.size),
      r.isHalted, r.ownsStream⟩) h hothers hafter
    rw [hrest]
    rfl

/-- What is in a frame is given as it was put in, if the length of the header is below the limit.
After it the reader does to the bytes that follow what it would do if there were only these, apart
from offsets. So frames one after the other are given one after the other, with nothing lost or
added. A frame with a longer header is refused. -/
theorem frames_are_read_back (knowsOffset : Bool) :
    (∀ (e : Enclosure) (tail : ByteArray), e.headerSize < maxHeaderSize →
      let now := ofBytes knowsOffset (e.frame ++ tail)
      now.next.1 = .ok (some (e.blob now.offset)) ∧
        ∀ requests : List Request, (∀ q ∈ requests, q.IsWithin e.frame.size) →
          answers (requests.map (·.shift e.frame.size)) now.next.2 =
            (answers requests (ofBytes knowsOffset tail)).map (·.shift e.frame.size)) ∧
    (∀ enclosures : List Enclosure, (∀ e ∈ enclosures, e.headerSize < maxHeaderSize) →
      let now := ofBytes knowsOffset (file enclosures)
      ∀ n, nexts (enclosures.length + n) now =
        (blobsFrom now.offset enclosures).map (.ok ∘ some) ++ List.replicate n (.ok none)) ∧
    (∀ (e : Enclosure) (tail : ByteArray), maxHeaderSize ≤ e.headerSize → e.headerSize < 2 ^ 32 →
      (ofBytes knowsOffset (e.frame ++ tail)).next.1 =
        .error (.archive (.headerTooBig e.headerSize))) := by
  have hrest (e : Enclosure) (tail : ByteArray) :
      (ofBytes knowsOffset (e.frame ++ tail)).stream.rest = octets e.frame ++ octets tail := by
    exact octets_append e.frame tail
  refine ⟨?_, ?_, ?_⟩
  · intro e tail hheader now
    have hnext := next_of_rest rfl hheader (hrest e tail)
    rw [hnext]
    refine ⟨rfl, fun requests hrequests =>
      answers_of_follows ⟨⟨⟨octets e.frame, ?_, ?_⟩, rfl⟩, ?_, rfl⟩ hrequests⟩
    · exact length_octets e.frame
    · exact octets_append e.frame tail
    · cases knowsOffset <;> rfl
  · intro enclosures hheaders now n
    exact nexts_of_rest rfl hheaders rfl n
  · intro e tail hheader hlength
    rw [next_of_failure rfl (Frame.read_of_rest_of_le hheader hlength (hrest e tail))]

/-- A blob without content, of some type. -/
def emptyEnclosure : Enclosure := ⟨"x", .empty, BlobBody.sound_of_unknown_eq_nil rfl, by decide⟩

/-- A blob that holds five bytes and a field that the format does not know of. -/
def foreignBody : BlobBody :=
  { BlobBody.empty with
    raw := some (ofOctets [0x68, 0x65, 0x6C, 0x6C, 0x6F]), unknown := [⟨9, .varint 300⟩] }

/-- The bytes that it is read from, with the unknown field in front. -/
def foreignBytes : ByteArray :=
  ofOctets [0x48, 0xAC, 0x02, 0x0A, 0x05, 0x68, 0x65, 0x6C, 0x6C, 0x6F]

/-- This blob, of a type with a letter beyond ASCII. -/
def foreignEnclosure : Enclosure where
  type := "ü"
  body := foreignBody
  sound := BlobBody.sound_of_decode
    (by decide +kernel : Message.decode foreignBytes = some foreignBody)
  fits := by decide +kernel

/-- A frame with content and one without are read back, and nothing more. -/
theorem two_frames_are_read_back :
    foreignEnclosure.headerSize < maxHeaderSize ∧ emptyEnclosure.headerSize < maxHeaderSize ∧
      nexts 3 (ofBytes true (file [foreignEnclosure, emptyEnclosure])) =
        [.ok (some (foreignEnclosure.blob (some 0))), .ok (some (emptyEnclosure.blob (some 20))),
          .ok none] := by
  have hforeign : foreignEnclosure.headerSize < maxHeaderSize := by decide +kernel
  have hempty : emptyEnclosure.headerSize < maxHeaderSize := by decide +kernel
  have hsize : foreignEnclosure.frame.size = 20 := by decide +kernel
  have hnexts := (frames_are_read_back true).2.1 [foreignEnclosure, emptyEnclosure]
    (by simp [hforeign, hempty]) 1
  refine ⟨hforeign, hempty, hnexts.trans ?_⟩
  simp [ofBytes, blobsFrom, hsize]

end Frames

end BlobReader

end MapArchive
