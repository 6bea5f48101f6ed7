import MapArchive.Proofs.Blob.Concatenation
import MapArchive.Proofs.Blob.Outcome
import MapArchive.Proofs.Blob.Shortfall

/-!
# Files that were cut

When a file of frames is cut anywhere, the blobs whose frames are whole are still given. If the cut
is where a frame ends, the reader comes to the end as if nothing was missing. Otherwise it tells
what is missing: bytes of a length, of a header or of a body.
-/

namespace MapArchive

namespace Enclosure

/-- The first bytes of a frame beyond its length. -/
theorem take_frame_of_length (e : Enclosure) (more : List UInt8) (n : Nat) :
    (octets e.frame ++ more).take (4 + n) = Endian.big 4 e.headerSize ++
      (octets (Message.encode e.header) ++ (octets e.content ++ more)).take n := by
  have hlength := Endian.length_big 4 e.headerSize
  rw [e.octets_frame, List.append_assoc, List.append_assoc]
  generalize Endian.big 4 e.headerSize = length at hlength
  rw [← hlength, List.take_length_add_append]

/-- The first bytes of a frame beyond its header. -/
theorem take_frame_of_header (e : Enclosure) (more : List UInt8) (n : Nat) :
    (octets e.frame ++ more).take (4 + e.headerSize + n) = Endian.big 4 e.headerSize ++
      (octets (Message.encode e.header) ++ (octets e.content ++ more).take n) := by
  have hlength : (octets (Message.encode e.header)).length = e.headerSize := length_octets _
  rw [Nat.add_assoc, take_frame_of_length, ← hlength, List.take_length_add_append]

/-- What is missing of a frame if only so many bytes of it are there, and at least one. -/
inductive Lacks (e : Enclosure) : Nat → ArchiveError → Prop where
  /-- The length is not whole. -/
  | length {n : Nat} (hpos : 1 ≤ n) (hle : n ≤ 3) : Lacks e n .invalidHeaderSize
  /-- The length is there, but the header is not whole. -/
  | header {n : Nat} (hlt : n < e.headerSize) :
      Lacks e (4 + n) (.shortfall "blob header" e.headerSize n)
  /-- The header is there, but the body is not whole. -/
  | body {n : Nat} (hlt : n < e.content.size) :
      Lacks e (4 + e.headerSize + n) (.shortfall "blob content" e.content.size n)

variable {e : Enclosure} {n : Nat}

/-- Of every frame that is not whole something is missing. -/
theorem exists_lacks (hpos : 0 < n) (hlt : n < e.frame.size) : ∃ cause, e.Lacks n cause := by
  rw [e.size_frame] at hlt
  by_cases hlength : n ≤ 3
  · exact ⟨_, .length hpos hlength⟩
  · by_cases hheader : n < 4 + e.headerSize
    · obtain ⟨got, rfl⟩ := Nat.exists_eq_add_of_le (show 4 ≤ n by omega)
      exact ⟨_, .header (by omega)⟩
    · obtain ⟨got, rfl⟩ := Nat.exists_eq_add_of_le (Nat.not_lt.1 hheader)
      exact ⟨_, .body (by omega)⟩

end Enclosure

namespace Frame

variable {s : MemoryStream} {e : Enclosure} {more : List UInt8} {n : Nat}

/-- A frame of which only some bytes of the length are there. -/
theorem read_of_part_of_length (hpos : 1 ≤ n) (hle : n ≤ 3)
    (h : s.rest = (octets e.frame ++ more).take n) :
    (read s).1 = .error (.archive .invalidHeaderSize) := by
  have hsize := e.size_frame
  have hremaining : s.remaining = n := by
    rw [← MemoryStream.length_rest, h, List.length_take, List.length_append, length_octets]
    omega
  exact read_of_short (by omega) (by omega)

/-- A frame of which only some bytes of the header are there. -/
theorem read_of_part_of_header (hheader : e.headerSize < maxHeaderSize) (hlt : n < e.headerSize)
    (h : s.rest = (octets e.frame ++ more).take (4 + n)) :
    (read s).1 = .error (.archive (.shortfall "blob header" e.headerSize n)) := by
  rw [e.take_frame_of_length] at h
  obtain ⟨hreadLength, hafter⟩ := readLength_of_short_header hheader h
  generalize s.skip 4 = t at hreadLength hafter
  have hsize : (octets (Message.encode e.header)).length = e.headerSize := length_octets _
  have hremaining : t.remaining = n := by
    rw [← MemoryStream.length_rest, hafter, List.length_take, List.length_append]
    omega
  have hreadHeader := readPart_of_short (α := BlobHeader) (s := t) (n := e.headerSize)
    "blob header" (by omega)
  rw [hremaining] at hreadHeader
  rw [Reading.eq (.noHeader hreadLength (Prod.ext hreadHeader rfl))]

/-- A frame of which only some bytes of the body are there. -/
theorem read_of_part_of_body (hheader : e.headerSize < maxHeaderSize) (hlt : n < e.content.size)
    (h : s.rest = (octets e.frame ++ more).take (4 + e.headerSize + n)) :
    (read s).1 = .error (.archive (.shortfall "blob content" e.content.size n)) := by
  rw [e.take_frame_of_header] at h
  obtain ⟨hreadLength, hafterLength⟩ := readLength_of_short_header hheader h
  obtain ⟨hreadHeader, hafterHeader⟩ := readPart_of_short_header hheader hafterLength
  generalize (s.skip 4).skip e.headerSize = t at hreadHeader hafterHeader
  have hremaining : t.remaining = n := by
    rw [← MemoryStream.length_rest, hafterHeader, List.length_take, List.length_append,
      length_octets]
    omega
  have hreadBody := readPart_of_short (α := BlobBody) (s := t) (n := e.content.size)
    "blob content" (by omega)
  rw [hremaining, ← e.bodySize_header] at hreadBody
  rw [Reading.eq (.noBody hreadLength hreadHeader e.checkHeader_header (Prod.ext hreadBody rfl)),
    e.bodySize_header]

/-- What is missing of a frame is told. -/
theorem read_of_lacks {cause : ArchiveError} (hheader : e.headerSize < maxHeaderSize)
    (hlacks : e.Lacks n cause) (h : s.rest = (octets e.frame ++ more).take n) :
    (read s).1 = .error (.archive cause) := by
  cases hlacks with
  | length hpos hle => exact read_of_part_of_length hpos hle h
  | header hlt => exact read_of_part_of_header hheader hlt h
  | body hlt => exact read_of_part_of_body hheader hlt h

end Frame

namespace BlobReader

variable {r : BlobReader MemoryStream}

/-- At the end there is nothing more. -/
theorem outcome_of_rest_nil (h : r.isHalted = false) (hrest : r.stream.rest = []) :
    r.outcome = ⟨[], none⟩ :=
  outcome_of_end (by rw [next_of_rest_nil h hrest])

/-- An error in the archive comes last. -/
theorem outcome_of_read {e : ArchiveError} (h : r.isHalted = false)
    (hread : (Frame.read r.stream).1 = .error (.archive e)) :
    r.outcome = ⟨[], some (.archive e)⟩ :=
  outcome_of_error (by rw [next_of_failure h (Prod.ext hread rfl)])

/-- The blobs of all frames are given, and then what there is in the bytes that follow. -/
theorem outcome_of_rest {enclosures : List Enclosure} {more : List UInt8}
    (h : r.isHalted = false) (hheaders : ∀ e ∈ enclosures, e.headerSize < maxHeaderSize)
    (hrest : r.stream.rest = octets (file enclosures) ++ more) :
    ∃ last : BlobReader MemoryStream, last.isHalted = false ∧ last.stream.rest = more ∧
      r.outcome = last.outcome.after (blobsFrom r.offset enclosures) := by
  induction enclosures generalizing r with
  | nil => exact ⟨r, h, hrest, rfl⟩
  | cons e enclosures ih =>
    obtain ⟨hheader, hothers⟩ := List.forall_mem_cons.1 hheaders
    rw [file, octets_append, List.append_assoc] at hrest
    have hnext := next_of_rest h hheader hrest
    have hafter := MemoryStream.rest_skip hrest
    rw [length_octets] at hafter
    obtain ⟨last, hrunning, hlast, houtcome⟩ := ih (r := ⟨r.stream.skip e.frame.size,
      r.offset.map (· + e.frame.size), r.isHalted, r.ownsStream⟩) h hothers hafter
    refine ⟨last, hrunning, hlast, ?_⟩
    rw [outcome_of_blob (by rw [hnext]), hnext, houtcome, ← Outcome.after_append]
    rfl

section Cut

variable {enclosures : List Enclosure} {k m : Nat} {e : Enclosure}

/-- The file of two lists of frames is the file of the first and then that of the second. -/
theorem file_append (first second : List Enclosure) :
    file (first ++ second) = file first ++ file second := by
  induction first with
  | nil => simp [file]
  | cons e first ih => rw [List.cons_append, file, file, ih, ByteArray.append_assoc]

/-- A file is as long as its first frame and the file of the others. -/
theorem size_file_cons (e : Enclosure) (enclosures : List Enclosure) :
    (file (e :: enclosures)).size = e.frame.size + (file enclosures).size :=
  ByteArray.size_append

/-- Fewer frames are not longer. -/
theorem size_file_take_le (enclosures : List Enclosure) {i : Nat} (h : i ≤ m) :
    (file (enclosures.take i)).size ≤ (file (enclosures.take m)).size := by
  have hsplit := file_append ((enclosures.take m).take i) ((enclosures.take m).drop i)
  rw [List.take_append_drop, List.take_take, Nat.min_eq_left h] at hsplit
  rw [hsplit, ByteArray.size_append]
  omega

/-- There is a number of frames that are whole after a cut. -/
theorem exists_whole (enclosures : List Enclosure) (k : Nat) :
    ∃ m ≤ enclosures.length, ∀ i ≤ enclosures.length,
      i ≤ m ↔ (file (enclosures.take i)).size ≤ k := by
  induction enclosures generalizing k with
  | nil =>
    refine ⟨0, Nat.le_refl 0, fun i hi => ?_⟩
    simp [file, Nat.le_zero.1 hi]
  | cons e enclosures ih =>
    by_cases hfirst : e.frame.size ≤ k
    · obtain ⟨m, hm, hwhole⟩ := ih (k - e.frame.size)
      refine ⟨m + 1, Nat.succ_le_succ hm, fun i hi => ?_⟩
      cases i with
      | zero => simp [file]
      | succ i =>
        have hrest := hwhole i (Nat.le_of_succ_le_succ hi)
        rw [List.take_succ_cons, size_file_cons]
        omega
    · refine ⟨0, Nat.zero_le _, fun i hi => ?_⟩
      cases i with
      | zero => simp [file]
      | succ i =>
        rw [List.take_succ_cons, size_file_cons]
        omega

/-- What a cut leaves: whole frames, and the first bytes of the others. -/
theorem octets_cut (hm : (file (enclosures.take m)).size ≤ k) :
    octets ((file enclosures).extract 0 k) = octets (file (enclosures.take m)) ++
      (octets (file (enclosures.drop m))).take (k - (file (enclosures.take m)).size) := by
  have hsplit := file_append (enclosures.take m) (enclosures.drop m)
  rw [List.take_append_drop] at hsplit
  have hcut : octets ((file enclosures).extract 0 k) = (octets (file enclosures)).take k := by
    simp [octets, List.extract_eq_take_drop]
  rw [hcut, hsplit, octets_append, List.take_append, length_octets,
    List.take_of_length_le (by rw [length_octets]; exact hm)]

/-- A cut is where a frame ends, or some bytes of the next frame are there and others are not. -/
theorem exists_lacks_of_whole (hk : k ≤ (file enclosures).size) (hm : m ≤ enclosures.length)
    (hwhole : ∀ i ≤ enclosures.length, i ≤ m ↔ (file (enclosures.take i)).size ≤ k) :
    k = (file (enclosures.take m)).size ∨ ∃ e n cause, enclosures[m]? = some e ∧
      k = (file (enclosures.take m)).size + n ∧ e.Lacks n cause := by
  have hstart := (hwhole m hm).1 (Nat.le_refl m)
  rcases Nat.lt_or_eq_of_le hm with hlt | rfl
  · have he : enclosures[m]? = some enclosures[m] := List.getElem?_eq_getElem hlt
    have hend : (file (enclosures.take (m + 1))).size =
        (file (enclosures.take m)).size + enclosures[m].frame.size := by
      rw [List.take_add_one, he, Option.toList_some, file_append, ByteArray.size_append,
        size_file_cons]
      rfl
    have hnext := hwhole (m + 1) hlt
    obtain ⟨n, rfl⟩ := Nat.exists_eq_add_of_le hstart
    rcases Nat.eq_zero_or_pos n with rfl | hpos
    · exact .inl rfl
    · obtain ⟨cause, hlacks⟩ := Enclosure.exists_lacks (e := enclosures[m]) hpos (by omega)
      exact .inr ⟨_, n, cause, he, rfl, hlacks⟩
  · rw [List.take_length] at hstart ⊢
    exact .inl (Nat.le_antisymm hk hstart)

end Cut

/-- A file of frames that was cut gives the blobs of the frames that are whole. It ends well exactly
if it was cut at the start or where a frame ends. Otherwise the error is what is missing of the
first frame that is not whole: bytes of the length, of the header or of the body. A part of which
bytes are missing is not decoded, whatever kind of message it is. -/
theorem cuts_are_located (knowsOffset : Bool) (enclosures : List Enclosure)
    (hheaders : ∀ e ∈ enclosures, e.headerSize < maxHeaderSize) (k : Nat)
    (hk : k ≤ (file enclosures).size) :
    let cut := ofBytes knowsOffset ((file enclosures).extract 0 k)
    ∃ m ≤ enclosures.length,
      (∀ i ≤ enclosures.length, i ≤ m ↔ (file (enclosures.take i)).size ≤ k) ∧
      cut.outcome.blobs = blobsFrom cut.offset (enclosures.take m) ∧
      (cut.outcome.failure = none ↔
        ∃ i ≤ enclosures.length, k = (file (enclosures.take i)).size) ∧
      (∀ error, cut.outcome.failure = some error ↔
        ∃ e n cause, enclosures[m]? = some e ∧ k = (file (enclosures.take m)).size + n ∧
          e.Lacks n cause ∧ error = .archive cause) ∧
      ∀ (α : Type) [Message α] (location : String) (n : Nat) (s : MemoryStream), s.remaining < n →
        (Frame.readPart α location n s).1 =
          .error (.archive (.shortfall location n s.remaining)) := by
  intro cut
  obtain ⟨m, hm, hwhole⟩ := exists_whole enclosures k
  have hcut := exists_lacks_of_whole hk hm hwhole
  have hstart := (hwhole m hm).1 (Nat.le_refl m)
  have hrest : cut.stream.rest = octets (file (enclosures.take m)) ++ _ := octets_cut hstart
  -- After the whole frames the reader stands before what the cut has left of the others.
  obtain ⟨last, hrunning, hlast, houtcome⟩ := outcome_of_rest rfl
    (fun e he => hheaders e (List.mem_of_mem_take he)) hrest
  have hended (h : k = (file (enclosures.take m)).size) :
      cut.outcome = ⟨blobsFrom cut.offset (enclosures.take m), none⟩ := by
    rw [← h, Nat.sub_self, List.take_zero] at hlast
    rw [houtcome, outcome_of_rest_nil hrunning hlast, Outcome.after_nothing]
  have hfailed {e : Enclosure} {n : Nat} {cause : ArchiveError} (he : enclosures[m]? = some e)
      (hn : k = (file (enclosures.take m)).size + n) (hlacks : e.Lacks n cause) :
      cut.outcome = ⟨blobsFrom cut.offset (enclosures.take m), some (.archive cause)⟩ := by
    have hheader := hheaders e (List.mem_of_getElem? he)
    rw [hn, Nat.add_sub_cancel_left, List.drop_eq_getElem?_toList_append, he, Option.toList_some,
      List.singleton_append, file, octets_append] at hlast
    rw [houtcome, outcome_of_read hrunning (Frame.read_of_lacks hheader hlacks hlast),
      Outcome.after_nothing]
  refine ⟨m, hm, hwhole, ?_, ?_, fun error => ?_,
    fun α _ location n s => Frame.readPart_of_short location⟩
  · rcases hcut with h | ⟨e, n, cause, he, hn, hlacks⟩
    · rw [hended h]
    · rw [hfailed he hn hlacks]
  · constructor
    · intro hnone
      rcases hcut with h | ⟨e, n, cause, he, hn, hlacks⟩
      · exact ⟨m, hm, h⟩
      · rw [hfailed he hn hlacks] at hnone
        cases hnone
    · rintro ⟨i, hi, hend⟩
      have hle := size_file_take_le enclosures ((hwhole i hi).2 (Nat.le_of_eq hend.symm))
      rw [hended (by omega)]
  · constructor
    · intro hsome
      rcases hcut with h | ⟨e, n, cause, he, hn, hlacks⟩
      · rw [hended h] at hsome
        cases hsome
      · rw [hfailed he hn hlacks] at hsome
        exact ⟨e, n, cause, he, hn, hlacks, (Option.some.inj hsome).symm⟩
    · rintro ⟨e, n, cause, he, hn, hlacks, rfl⟩
      rw [hfailed he hn hlacks]

/-- Two frames of nine bytes each, of which the last three bytes are cut off. The second header has
five bytes, and two of them are there. -/
theorem second_header_is_cut :
    let enclosures := [emptyEnclosure, emptyEnclosure]
    let cut := ofBytes true ((file enclosures).extract 0 15)
    (∀ e ∈ enclosures, e.headerSize < maxHeaderSize) ∧ 15 ≤ (file enclosures).size ∧
      cut.outcome.blobs = [emptyEnclosure.blob (some 0)] ∧
      cut.outcome.failure = some (.archive (.shortfall "blob header" 5 2)) := by
  have hheaders : ∀ e ∈ [emptyEnclosure, emptyEnclosure], e.headerSize < maxHeaderSize := by
    have hheader : emptyEnclosure.headerSize < maxHeaderSize := by decide +kernel
    simp [hheader]
  have hone : (file [emptyEnclosure]).size = 9 := by decide +kernel
  have htwo : (file [emptyEnclosure, emptyEnclosure]).size = 18 := by decide +kernel
  have hk : 15 ≤ (file [emptyEnclosure, emptyEnclosure]).size := by omega
  obtain ⟨m, hm, hwhole, hblobs, _, hfailure, _⟩ :=
    cuts_are_located true [emptyEnclosure, emptyEnclosure] hheaders 15 hk
  have hm : m = 1 := by
    have hfirst := hwhole 1 (by decide)
    have hsecond := hwhole 2 (by decide)
    simp only [List.take_succ_cons, List.take_zero, hone, htwo] at hfirst hsecond
    omega
  subst hm
  have hlacks : emptyEnclosure.Lacks (4 + 2) (.shortfall "blob header" 5 2) := by
    have hsize : emptyEnclosure.headerSize = 5 := by decide +kernel
    rw [← hsize]
    exact .header (by omega)
  exact ⟨hheaders, hk, hblobs,
    (hfailure _).2 ⟨emptyEnclosure, 6, _, rfl, by rw [List.take_succ_cons, List.take_zero, hone],
      hlacks, rfl⟩⟩

end BlobReader

end MapArchive
