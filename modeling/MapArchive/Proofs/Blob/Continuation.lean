import MapArchive.Proofs.Blob.Outcome
import MapArchive.Proofs.Blob.Seeking
import MapArchive.Proofs.Blob.Shortfall

/-!
# Bytes that follow

More bytes are put behind those of a stream in memory, which need not be well-formed. A reader does
the same as before as long as it finds all bytes it asks for. Where it came to the end, it goes on
with the bytes that follow as if there were only these; where it found an error, the error stays,
unless bytes were missing.
-/

namespace MapArchive

namespace MemoryStream

/-- The same stream, with more bytes behind. -/
def extend (more : ByteArray) (s : MemoryStream) : MemoryStream :=
  { s with bytes := s.bytes ++ more }

variable {s : MemoryStream}

/-- The bytes behind are unread, unless the stream stands among them. -/
theorem rest_extend (more : ByteArray) (s : MemoryStream) :
    (s.extend more).rest = s.rest ++ (octets more).drop (s.position - s.bytes.size) := by
  rw [rest, rest, extend, octets_append, List.drop_append, length_octets]

/-- A read that finds all its bytes does not see what is behind them. -/
theorem agree_extend {n : Nat} (more : ByteArray) (hle : n ≤ s.remaining) :
    Agree (fun a b : MemoryStream => b = a.extend more)
      (ByteStream.read n s) (ByteStream.read n (s.extend more)) := by
  have hanswer : (s.read n).1 = ((s.extend more).read n).1 := by
    rw [← ofOctets_octets (s.read n).1, ← ofOctets_octets ((s.extend more).read n).1, octets_read,
      octets_read, rest_extend, List.take_append_of_le_length (by rw [length_rest]; exact hle)]
  refine ⟨congrArg Except.ok hanswer, ?_⟩
  show (⟨s.bytes ++ more, s.position + ((s.extend more).read n).1.size⟩ : MemoryStream) =
    ⟨s.bytes ++ more, s.position + (s.read n).1.size⟩
  rw [hanswer]

/-- A read does not lead beyond the end. -/
theorem position_read_le (n : Nat) (s : MemoryStream) (h : s.position ≤ s.bytes.size) :
    (ByteStream.read n s).2.position ≤ (ByteStream.read n s).2.bytes.size := by
  have hsize := size_of_read n s
  rw [remaining] at hsize
  show s.position + (s.read n).1.size ≤ s.bytes.size
  omega

end MemoryStream

namespace Frame

variable {s t : MemoryStream}

/-- Reading a frame does not lead beyond the end. -/
theorem position_read_le (h : s.position ≤ s.bytes.size) :
    (read s).2.position ≤ (read s).2.bytes.size := by
  obtain ⟨_, hexchanges, _⟩ := exists_course MemoryStream.refusesAsSystem s
  exact hexchanges.preserves (P := fun t => t.position ≤ t.bytes.size)
    MemoryStream.position_read_le h

/-- A length is read as before, unless it was missing. -/
theorem readLength_extend (more : ByteArray) {answer : Except ReadError (Option Nat)}
    (h : readLength s = (answer, t)) (hend : answer ≠ .ok none)
    (henough : ∀ e, answer = .error (.archive e) → ¬e.IsShortfall) :
    readLength (s.extend more) = (answer, t.extend more) := by
  -- With fewer bytes the answer would be the end, or that bytes are missing.
  have hle : 4 ≤ s.remaining := by
    refine Nat.not_lt.1 fun hlt => ?_
    rcases Nat.eq_zero_or_pos s.remaining with hzero | hpos
    · have hrest : s.rest = [] := List.length_eq_zero_iff.1 (by rw [s.length_rest, hzero])
      rw [readLength_eq_end_iff.2 (MemoryStream.read_of_rest_nil hrest 4)] at h
      cases h
      exact hend rfl
    · have hshort := readLength_of_short hpos hlt
      rw [h] at hshort
      exact henough _ hshort (.inl rfl)
  obtain ⟨hanswer, hafter⟩ := agree_readLength (MemoryStream.agree_extend more hle)
  rw [h] at hanswer hafter
  exact Prod.ext hanswer.symm hafter

/-- A part is read as before, unless bytes of it were missing. -/
theorem readPart_extend {α : Type} [Message α] (more : ByteArray) {location : String} {n : Nat}
    {answer : Except ReadError α} (h : readPart α location n s = (answer, t))
    (henough : ∀ e, answer = .error (.archive e) → ¬e.IsShortfall) :
    readPart α location n (s.extend more) = (answer, t.extend more) := by
  have hle : n ≤ s.remaining := by
    refine Nat.not_lt.1 fun hlt => ?_
    have hshort := readPart_of_short (α := α) location hlt
    rw [h] at hshort
    exact henough _ hshort (ArchiveError.isShortfall_shortfall _ _ _)
  obtain ⟨hanswer, hafter⟩ := agree_readPart (α := α) location (MemoryStream.agree_extend more hle)
  rw [h] at hanswer hafter
  exact Prod.ext hanswer.symm hafter

/-- A frame is read as before, unless bytes of it were missing. -/
theorem read_extend (more : ByteArray) {answer : Except ReadError (Option Frame)}
    (h : read s = (answer, t)) (hend : answer ≠ .ok none)
    (henough : ∀ e, answer = .error (.archive e) → ¬e.IsShortfall) :
    read (s.extend more) = (answer, t.extend more) := by
  have hreading := reading_read s
  rw [h] at hreading
  cases hreading with
  | noLength hlength =>
    have hlengths := readLength_extend more hlength nofun fun e he => henough e (by cases he; rfl)
    exact Reading.eq (.noLength hlengths)
  | ended => exact absurd rfl hend
  | noHeader hlength hheader =>
    have hlengths := readLength_extend more hlength nofun nofun
    have hheaders := readPart_extend more hheader fun e he => henough e (by cases he; rfl)
    exact Reading.eq (.noHeader hlengths hheaders)
  | badHeader hlength hheader hcheck =>
    have hlengths := readLength_extend more hlength nofun nofun
    have hheaders := readPart_extend more hheader nofun
    exact Reading.eq (.badHeader hlengths hheaders hcheck)
  | noBody hlength hheader hcheck hbody =>
    have hlengths := readLength_extend more hlength nofun nofun
    have hheaders := readPart_extend more hheader nofun
    have hbodies := readPart_extend more hbody fun e he => henough e (by cases he; rfl)
    exact Reading.eq (.noBody hlengths hheaders hcheck hbodies)
  | found hlength hheader hcheck hbody =>
    have hlengths := readLength_extend more hlength nofun nofun
    have hheaders := readPart_extend more hheader nofun
    have hbodies := readPart_extend more hbody nofun
    exact Reading.eq (.found hlengths hheaders hcheck hbodies)

end Frame

namespace BlobReader

/-- The same reader, with more bytes behind those of its stream. -/
def extend (more : ByteArray) (r : BlobReader MemoryStream) : BlobReader MemoryStream :=
  { r with stream := r.stream.extend more }

variable {r : BlobReader MemoryStream}

/-- A reader gives what it gave before, unless it was at the end or bytes were missing. -/
theorem next_extend (more : ByteArray) (hrunning : r.isHalted = false)
    (hend : r.next.1 ≠ .ok none)
    (henough : ∀ e, r.next.1 = .error (.archive e) → ¬e.IsShortfall) :
    (r.extend more).next = (r.next.1, r.next.2.extend more) := by
  have heffect := r.effect_next
  generalize r.next.1 = answer at heffect hend henough ⊢
  generalize r.next.2 = after at heffect ⊢
  cases heffect with
  | halted hhalted => rw [hrunning] at hhalted; cases hhalted
  | failed _ hread =>
    exact next_of_failure hrunning
      (Frame.read_extend more hread nofun fun e he => henough e (by cases he; rfl))
  | refused _ hread =>
    exact next_of_refusal hrunning (Frame.read_extend more hread nofun nofun)
  | ended => exact absurd rfl hend
  | found _ hread => exact next_of_frame hrunning (Frame.read_extend more hread nofun nofun)

/-- No error but one in the archive is found in memory. -/
theorem archive_of_next {error : ReadError} (h : r.next.1 = .error error) :
    ∃ e, error = .archive e := by
  have heffect := r.effect_next
  rw [h] at heffect
  generalize r.next.2 = after at heffect
  cases heffect with
  | @failed e => exact ⟨e, rfl⟩
  | @refused fault t _ hread =>
    obtain ⟨_, _, _, hverdict⟩ := Frame.exists_course MemoryStream.refusesAsSystem r.stream
    obtain ⟨e, he, _⟩ := hverdict.blames (congrArg Prod.fst hread)
    exact ⟨e, he⟩

/-- The reader stands somewhere in the bytes and has not halted. If it knows offsets it knows where
it stands. -/
structure StandsIn (knowsOffset : Bool) (bytes : ByteArray) (r : BlobReader MemoryStream) :
    Prop where
  /-- The bytes are those of the stream. -/
  bytes : r.stream.bytes = bytes
  /-- The place is not beyond the end. -/
  position_le : r.stream.position ≤ r.stream.bytes.size
  /-- The reader has not halted. -/
  isHalted : r.isHalted = false
  /-- The offset is the place, if offsets are known. -/
  offset : r.offset = if knowsOffset then some r.stream.position else none

variable {knowsOffset : Bool} {bytes : ByteArray}

/-- A reader at the start of a byte string stands in it. -/
theorem standsIn_ofBytes (knowsOffset : Bool) (bytes : ByteArray) :
    (ofBytes knowsOffset bytes).StandsIn knowsOffset bytes :=
  ⟨rfl, Nat.zero_le _, rfl, rfl⟩

/-- After a blob the reader stands further on. -/
theorem standsIn_next {b : Blob} (h : r.StandsIn knowsOffset bytes)
    (hfound : r.next.1 = .ok (some b)) : r.next.2.StandsIn knowsOffset bytes := by
  obtain ⟨hoffset, _, hafter, hposition⟩ := found_at hfound
  have hstream := stream_next_of_running h.isHalted
  have hbytes : r.next.2.stream.bytes = bytes := by rw [hstream, Frame.bytes_read, h.bytes]
  refine ⟨hbytes, ?_, ?_, ?_⟩
  · rw [hstream]
    exact Frame.position_read_le h.position_le
  · have heffect := r.effect_next
    rw [hfound] at heffect
    generalize r.next.2 = after at heffect ⊢
    cases heffect with
    | found => exact h.isHalted
  · rw [hafter, hoffset, h.offset]
    cases knowsOffset with
    | false => rfl
    | true => exact congrArg some hposition.symm

/-- A reader gives its blobs, and stands in the same bytes when it has given the last. If there are
more bytes behind, it gives these blobs and goes on from there. -/
theorem exists_last (h : r.StandsIn knowsOffset bytes) :
    ∃ last : BlobReader MemoryStream, last.StandsIn knowsOffset bytes ∧
      last.outcome = ⟨[], r.outcome.failure⟩ ∧
      ∀ more, (r.extend more).outcome = (last.extend more).outcome.after r.outcome.blobs := by
  induction r using outcome_induction with
  | hend r hnext =>
    have houtcome := outcome_of_end hnext
    refine ⟨r, h, by rw [houtcome], fun more => ?_⟩
    rw [houtcome, Outcome.after_nil]
  | herror r e hnext =>
    have houtcome := outcome_of_error hnext
    refine ⟨r, h, by rw [houtcome], fun more => ?_⟩
    rw [houtcome, Outcome.after_nil]
  | hblob r b hnext ih =>
    obtain ⟨last, hlast, hfailure, hextend⟩ := ih (standsIn_next h hnext)
    refine ⟨last, hlast, ?_, fun more => ?_⟩
    · rw [hfailure, outcome_of_blob hnext, Outcome.failure_after]
    · -- The blob was there as a whole, so it is given whatever is behind it.
      have hsame := next_extend more h.isHalted (by rw [hnext]; nofun) (by rw [hnext]; nofun)
      have hanswer : (r.extend more).next.1 = .ok (some b) := by rw [hsame, hnext]
      rw [outcome_of_blob hanswer, hsame, hextend, outcome_of_blob hnext, Outcome.blobs_after,
        Outcome.after_append]

/-- A reader at the end goes on as if there were only the bytes that follow. -/
theorem outcome_extend_of_end {more : ByteArray} (h : r.StandsIn knowsOffset bytes)
    (hend : r.next.1 = .ok none) :
    (r.extend more).outcome =
      (ofBytes knowsOffset more).outcome.relocate (.shift bytes.size) := by
  have hread : (r.stream.read 4).1 = ByteArray.empty :=
    Except.ok.inj ((next_eq_end_iff_of_running h.isHalted).1 hend)
  have hsize := r.stream.size_of_read 4
  have hle := h.position_le
  rw [h.bytes] at hle
  rw [hread, MemoryStream.remaining, h.bytes] at hsize
  -- No byte was given, so none is left, and the reader does not stand beyond the end.
  have hposition : r.stream.position = bytes.size := by
    rw [ByteArray.size_empty] at hsize
    omega
  have hfollows : Follows bytes.size (r.extend more) (ofBytes knowsOffset more) := by
    refine ⟨⟨⟨octets bytes, length_octets bytes, ?_⟩, ?_⟩, ?_, h.isHalted⟩
    · rw [← h.bytes]
      exact octets_append r.stream.bytes more
    · rw [← hposition]
      exact (Nat.zero_add _).symm
    · show r.offset = _
      rw [h.offset, hposition]
      cases knowsOffset with
      | false => rfl
      | true => exact congrArg some (Nat.zero_add _).symm
  exact outcome_of_related (MemoryStream.readsAlike_follows _) hfollows

/-- An error that is not for missing bytes stays. -/
theorem outcome_extend_of_error {more : ByteArray} {e : ArchiveError}
    (hrunning : r.isHalted = false) (herror : r.next.1 = .error (.archive e))
    (henough : ¬e.IsShortfall) :
    (r.extend more).outcome = r.outcome := by
  have hsame := next_extend more hrunning (by rw [herror]; nofun) fun cause hcause => by
    rw [herror] at hcause
    cases hcause
    exact henough
  rw [outcome_of_error herror, outcome_of_error (by rw [hsame, herror])]

/-- An error for missing bytes does not stay if there are enough bytes. -/
theorem outcome_extend_ne {more : ByteArray} {e : ArchiveError} (h : r.StandsIn knowsOffset bytes)
    (herror : r.next.1 = .error (.archive e)) (hmissing : e.IsShortfall)
    (hmore : Frame.maxSize ≤ more.size) : (r.extend more).outcome ≠ r.outcome := by
  intro hsame
  rw [outcome_of_error herror] at hsame
  have hnext := next_of_blobs_eq_nil (congrArg Outcome.blobs hsame)
  rw [hsame, answer_of_running (r := r.extend more) h.isHalted] at hnext
  have hread := map_eq_error_iff.1 hnext
  refine Frame.not_isShortfall_of_read ?_ hread hmissing
  have hsize : (r.stream.bytes ++ more).size = r.stream.bytes.size + more.size :=
    ByteArray.size_append
  have hle := h.position_le
  show Frame.maxSize ≤ (r.stream.bytes ++ more).size - r.stream.position
  omega

/-- There are byte strings of any length. -/
theorem exists_le_size (n : Nat) : ∃ bytes : ByteArray, n ≤ bytes.size := by
  have hsize : (ofOctets (List.replicate n 0)).size = n := by
    rw [← length_octets, octets_ofOctets, List.length_replicate]
  exact ⟨ofOctets (List.replicate n 0), Nat.le_of_eq hsize.symm⟩

/-- If bytes follow, the same blobs are given. Where the reader came to the end it then gives what
there is in the bytes that follow, with the offsets behind the others. Where it met an error it
gives nothing more, whatever follows, unless bytes were missing; and if bytes were missing, there
are bytes after which it gives something else. -/
theorem reading_goes_on (knowsOffset : Bool) (front back : ByteArray) :
    (ofBytes knowsOffset front).outcome.blobs <+:
      (ofBytes knowsOffset (front ++ back)).outcome.blobs ∧
    let alone := (ofBytes knowsOffset front).outcome
    let both := (ofBytes knowsOffset (front ++ back)).outcome
    let following := (ofBytes knowsOffset back).outcome
    (alone.failure = none →
      both = (following.relocate (.shift front.size)).after alone.blobs) ∧
    ∀ error, alone.failure = some error → ∃ e, error = .archive e ∧
      (¬e.IsShortfall → both = alone) ∧
      (e.IsShortfall → ∃ more, (ofBytes knowsOffset (front ++ more)).outcome ≠ alone) := by
  -- All depends on what the reader does where it has given the last blob of the first part.
  obtain ⟨last, hlast, hfailure, hextend⟩ := exists_last (standsIn_ofBytes knowsOffset front)
  have hnext : last.next.1 = last.outcome.lastAnswer :=
    next_of_blobs_eq_nil (congrArg Outcome.blobs hfailure)
  rw [hfailure] at hnext
  have hboth : (ofBytes knowsOffset (front ++ back)).outcome =
      (last.extend back).outcome.after (ofBytes knowsOffset front).outcome.blobs := hextend back
  refine ⟨⟨(last.extend back).outcome.blobs, by rw [hboth]; rfl⟩, ?_⟩
  intro alone both following
  refine ⟨fun hnone => ?_, fun error herror => ?_⟩
  · have hend : last.next.1 = .ok none := by
      rw [hnext]
      exact congrArg (Outcome.lastAnswer ⟨[], ·⟩) hnone
    exact hboth.trans (congrArg (Outcome.after alone.blobs) (outcome_extend_of_end hlast hend))
  · have hend : last.next.1 = .error error := by
      rw [hnext]
      exact congrArg (Outcome.lastAnswer ⟨[], ·⟩) herror
    have halone : alone = last.outcome.after alone.blobs := by
      rw [hfailure, Outcome.after_nothing]
    obtain ⟨e, rfl⟩ := archive_of_next hend
    refine ⟨e, rfl, fun henough => ?_, fun hmissing => ?_⟩
    · calc both
        _ = (last.extend back).outcome.after alone.blobs := hboth
        _ = last.outcome.after alone.blobs := by
          rw [outcome_extend_of_error hlast.isHalted hend henough]
        _ = alone := halone.symm
    · obtain ⟨more, hmore⟩ := exists_le_size Frame.maxSize
      refine ⟨more, fun hsame => outcome_extend_ne hlast hend hmissing hmore ?_⟩
      have hafter : (last.extend more).outcome.after alone.blobs =
          last.outcome.after alone.blobs :=
        calc (last.extend more).outcome.after alone.blobs
          _ = (ofBytes knowsOffset (front ++ more)).outcome := (hextend more).symm
          _ = alone := hsame
          _ = last.outcome.after alone.blobs := halone
      exact Outcome.after_cancel hafter

/-- A blob of nine bytes without content, at the start. -/
def firstBlob : Blob := ⟨"x", none, 0, .empty, some 0⟩

/-- After nine bytes that are a frame the reader goes on to a length that is too great. Before them
it stops there. -/
theorem nine_bytes_go_on :
    let nine : ByteArray := ⟨#[0, 0, 0, 5, 10, 1, 120, 24, 0]⟩
    let great : ByteArray := ofOctets (Endian.big 4 maxHeaderSize)
    let e : ArchiveError := .headerTooBig maxHeaderSize
    (ofBytes true nine).outcome = ⟨[firstBlob], none⟩ ∧
      (ofBytes true (nine ++ great)).outcome = ⟨[firstBlob], some (.archive e)⟩ ∧
      ¬e.IsShortfall ∧ (ofBytes true (great ++ nine)).outcome = ⟨[], some (.archive e)⟩ := by
  intro nine great e
  have hfound : (ofBytes true nine).next.1 = .ok (some firstBlob) :=
    eq_ok_of_toOption (by decide +kernel)
  have hend : (ofBytes true nine).next.2.next.1 = .ok none := eq_ok_of_toOption (by decide +kernel)
  have hnine : (ofBytes true nine).outcome = ⟨[firstBlob], none⟩ := by
    rw [outcome_of_blob hfound, outcome_of_end hend]
    rfl
  have hrest : (MemoryStream.ofBytes great).rest = Endian.big 4 maxHeaderSize ++ [] := by
    rw [List.append_nil]
    exact octets_ofOctets _
  have hlength := Frame.readLength_of_rest (by decide) hrest
  rw [if_pos (Nat.le_refl _)] at hlength
  have herror :=
    next_of_failure (r := ofBytes true great) rfl (Frame.Reading.eq (.noLength hlength))
  have hgreat : (ofBytes true great).outcome = ⟨[], some (.archive e)⟩ :=
    outcome_of_error (congrArg Prod.fst herror)
  have henough : ¬e.IsShortfall := ArchiveError.not_isShortfall_headerTooBig _
  refine ⟨hnine, ?_, henough, ?_⟩
  · have hboth := (reading_goes_on true nine great).2.1 (by rw [hnine])
    rw [hboth, hnine, hgreat]
    rfl
  · obtain ⟨cause, hcause, hstays, _⟩ :=
      (reading_goes_on true great nine).2.2 (.archive e) (by rw [hgreat])
    cases hcause
    rw [hstays henough, hgreat]

end BlobReader

end MapArchive
