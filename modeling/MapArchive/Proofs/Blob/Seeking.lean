import MapArchive.Proofs.Blob.Concatenation
import MapArchive.Proofs.Blob.Conduct

/-!
# Moving a reader

A reader over a byte string that has not halted consists of its place in the bytes and of nothing
else. When it is moved to an offset it becomes the reader that would be made on a stream standing
there, whatever it was asked for before. In particular it can be moved back to a blob that it has
given, and then gives that blob and those after it again.

No stream in memory stands at 2⁶³ or beyond. A reader that is asked to move there refuses and stays
as it was.
-/

namespace MapArchive

namespace MemoryStream

/-- No read from memory is refused. -/
theorem refusesAsSystem : RefusesAsSystem MemoryStream := by
  intro n s t fault h
  cases h

/-- Moving does not change the bytes. -/
theorem bytes_of_seek {offset whence : Int} {s t : MemoryStream} {answer : Except StreamFault Nat}
    (h : ByteStream.seek offset whence s = (answer, t)) : t.bytes = s.bytes := by
  change s.seek offset whence = _ at h
  unfold seek at h
  split at h
  · cases h
    rfl
  · split at h
    · cases h
      rfl
    · dsimp only at h
      split at h
      · cases h
        rfl
      · split at h
        · cases h
          rfl
        · cases h
          rfl

/-- There is no moving to a place that cannot be. -/
theorem seek_beyond {offset : Int} (h : positionLimit ≤ offset) (s : MemoryStream) :
    ByteStream.seek offset 0 s = (.error .range, s) := by
  have hoffset : isOffset offset = false := by
    simp only [isOffset, Bool.and_eq_false_iff, decide_eq_false_iff_not]
    omega
  show s.seek offset 0 = _
  rw [seek, hoffset]
  rfl

/-- The stream is one over some bytes that was moved to an offset. -/
def WasMovedTo (bytes : ByteArray) (offset : Int) (s : MemoryStream) : Prop :=
  ∃ (before : MemoryStream) (place : Nat), before.bytes = bytes ∧
    ByteStream.seek offset 0 before = (.ok place, s)

/-- A stream that was moved to an offset stands there, and the offset is below the limit. -/
theorem wasMovedTo_iff {bytes : ByteArray} {offset : Int} {s : MemoryStream} (hpos : 0 ≤ offset) :
    s.WasMovedTo bytes offset ↔ s = ⟨bytes, offset.toNat⟩ ∧ offset < positionLimit := by
  constructor
  · rintro ⟨before, place, rfl, hseek⟩
    by_cases hlt : offset < positionLimit
    · rw [before.seek_start offset hpos hlt] at hseek
      cases hseek
      exact ⟨rfl, hlt⟩
    · rw [seek_beyond (by omega) before] at hseek
      cases hseek
  · rintro ⟨rfl, hlt⟩
    exact ⟨⟨bytes, 0⟩, offset.toNat, rfl, seek_start offset _ hpos hlt⟩

end MemoryStream

namespace Frame

/-- Reading a frame does not change the bytes. -/
theorem bytes_read (s : MemoryStream) : (read s).2.bytes = s.bytes := by
  obtain ⟨xs, hexchanges, _, _⟩ := exists_course MemoryStream.refusesAsSystem s
  exact hexchanges.preserves (P := fun t => t.bytes = s.bytes) (fun n t h => h) rfl

end Frame

namespace BlobReader

variable {bytes : ByteArray} {r : BlobReader MemoryStream}

/-- The reader is one over some bytes, and closing it closes nothing. -/
structure IsOver (bytes : ByteArray) (r : BlobReader MemoryStream) : Prop where
  /-- The bytes are those of the stream. -/
  bytes : r.stream.bytes = bytes
  /-- The stream belongs to someone else. -/
  ownsStream : r.ownsStream = false

/-- A reader that was just made is over the bytes of its stream. -/
theorem isOver_of_isMadeOn {s : MemoryStream} (h : r.IsMadeOn s) : r.IsOver s.bytes := by
  rcases h with rfl | h
  · exact ⟨rfl, rfl⟩
  · obtain ⟨_, _, rfl⟩ := ofSeekable_eq_ok h
    exact ⟨rfl, rfl⟩

/-- Every step leaves the reader over the same bytes. -/
theorem isOver_after_step (request : Request) (r : BlobReader MemoryStream) (h : r.IsOver bytes) :
    (r.step request).after.IsOver bytes := by
  have hread {t : MemoryStream} {answer : Except ReadError (Option Frame)}
      (hread : Frame.read r.stream = (answer, t)) : t.bytes = bytes := by
    have hbytes := Frame.bytes_read r.stream
    rw [hread] at hbytes
    rw [← h.bytes, ← hbytes]
  have hseek {offset whence : Int} {t : MemoryStream} {answer : Except StreamFault Nat}
      (hseek : ByteStream.seek offset whence r.stream = (answer, t)) : t.bytes = bytes := by
    rw [MemoryStream.bytes_of_seek hseek, h.bytes]
  have heffect := effect_step request r
  generalize (r.step request).answer = answer at heffect
  generalize (r.step request).after = after at heffect ⊢
  cases heffect with
  | halted => exact h
  | failed _ hframe | refused _ hframe | ended _ hframe | found _ hframe =>
    exact ⟨hread hframe, h.ownsStream⟩
  | moved _ hmove | strayed _ hmove | kept _ hmove => exact ⟨hseek hmove, h.ownsStream⟩

/-- A reader stays over the same bytes, whatever is asked of it. -/
theorem isOver_final (requests : List Request) (h : r.IsOver bytes) :
    (final requests r).IsOver bytes :=
  final_induction isOver_after_step requests h

/-- A reader that knows offsets, made on a stream over some bytes that stands at a place. -/
def standingAt (bytes : ByteArray) (place : Nat) : BlobReader MemoryStream :=
  ⟨⟨bytes, place⟩, some place, false, false⟩

/-- A reader that has not halted and knows its offset consists of nothing but that. -/
theorem eq_standingAt {place : Nat} (h : r.IsOver bytes) (hrunning : r.isHalted = false)
    (htruthful : r.Truthful) (hoffset : r.offset = some place) : r = standingAt bytes place := by
  obtain ⟨⟨_, position⟩, offset, isHalted, ownsStream⟩ := r
  obtain ⟨rfl, rfl⟩ := h
  cases hrunning
  cases hoffset
  have hplace : place = position := htruthful place rfl
  rw [hplace]
  rfl

/-- A reader that has not halted moves to where it is sent and becomes a new one there. -/
theorem seek_of_running {offset : Int} (h : r.IsOver bytes) (hrunning : r.isHalted = false)
    (hpos : 0 ≤ offset) (hlt : offset < positionLimit) :
    r.seek offset = (.ok offset.toNat, standingAt bytes offset.toNat) := by
  have hseek := r.stream.seek_start offset hpos hlt
  obtain ⟨⟨_, position⟩, _, isHalted, ownsStream⟩ := r
  obtain ⟨rfl, rfl⟩ := h
  cases hrunning
  rw [seek, seekRaw, hseek]
  rfl

/-- A reader does not move to a place that cannot be. -/
theorem seek_of_le {offset : Int} (h : positionLimit ≤ offset) (r : BlobReader MemoryStream) :
    r.seek offset = (.error .range, r) := by
  rw [seek, seekRaw, MemoryStream.seek_beyond h]
  rfl

/-- A blob that is found in memory starts at least four bytes before the end. -/
theorem position_of_found {b : Blob} (h : r.next.1 = .ok (some b)) :
    r.stream.position + 4 ≤ r.stream.bytes.size := by
  obtain ⟨_, ⟨part, hread, hsize⟩, _⟩ := found_at h
  cases hread
  have hle := MemoryStream.size_of_read 4 r.stream
  rw [hsize, MemoryStream.remaining] at hle
  omega

/-- The reader that gave a blob was standing at the blob's offset and consisted of that only. -/
theorem standingAt_of_found {s : MemoryStream} (hmade : r.IsMadeOn s) {before : List Request}
    (hbefore : ∀ x ∈ history before r, ¬x.Fails) {b : Blob} {place : Nat}
    (hfound : (final before r).next.1 = .ok (some b)) (hplace : b.offset = some place) :
    final before r = standingAt s.bytes place ∧ place + 4 ≤ s.bytes.size := by
  have hover : (final before r).IsOver s.bytes := isOver_final before (isOver_of_isMadeOn hmade)
  have hrunning := isHalted_final_of_forall (isHalted_of_isMadeOn hmade) hbefore
  have htruthful : (final before r).Truthful := truthful_final before (truthful_of_isMadeOn hmade)
  have hoffset : (final before r).offset = some place := by rw [← (found_at hfound).1, hplace]
  have hgave := eq_standingAt hover hrunning htruthful hoffset
  have hend := position_of_found hfound
  rw [hgave] at hend
  exact ⟨hgave, hend⟩

/-- Once it has been moved, a reader is the one that would be made on a stream standing there,
whatever was asked of it before, as long as there was no error in the archive. If no stream can
stand there, the reader refuses to move and stays as it was. Moved back to a blob that it has given,
it gives the same blob again and then all that it gave or would have given after it. -/
theorem seeking_forgets_history {s : MemoryStream} (hmade : r.IsMadeOn s) {past : List Request}
    (hpast : ∀ x ∈ history past r, ¬x.Fails) :
    let now := final past r
    (∀ (offset : Int) (there : MemoryStream) (fresh : BlobReader MemoryStream), 0 ≤ offset →
      there.WasMovedTo s.bytes offset → ofSeekable there = .ok fresh →
        now.seek offset = (.ok offset.toNat, fresh) ∧
          ∀ n, nexts n (now.seek offset).2 = nexts n fresh) ∧
    (∀ offset : Int, 0 ≤ offset → (∀ there : MemoryStream, ¬there.WasMovedTo s.bytes offset) →
      positionLimit ≤ offset ∧ now.seek offset = (.error .range, now)) ∧
    (∀ (before later : List Request) (b : Blob) (place : Nat), past = before ++ .next :: later →
      (final before r).next.1 = .ok (some b) → b.offset = some place →
        s.bytes.size ≤ positionLimit →
          (now.seek place).1 = .ok place ∧ (now.seek place).2.next.1 = .ok (some b) ∧
            ∀ n, nexts n (now.seek place).2.next.2 = nexts n (final before r).next.2) := by
  have hover : (final past r).IsOver s.bytes := isOver_final past (isOver_of_isMadeOn hmade)
  have hrunning := isHalted_final_of_forall (isHalted_of_isMadeOn hmade) hpast
  intro now
  refine ⟨?_, ?_, ?_⟩
  · intro offset there fresh hpos hmoved hfresh
    obtain ⟨rfl, hlt⟩ := (MemoryStream.wasMovedTo_iff hpos).1 hmoved
    have hmade : standingAt s.bytes offset.toNat = fresh := Except.ok.inj hfresh
    have hseek := seek_of_running hover hrunning hpos hlt
    rw [hmade] at hseek
    refine ⟨hseek, fun n => ?_⟩
    rw [hseek]
  · intro offset hpos hnone
    have hle : positionLimit ≤ offset := by
      refine Int.not_lt.1 fun hlt => ?_
      exact hnone ⟨s.bytes, offset.toNat⟩ ((MemoryStream.wasMovedTo_iff hpos).2 ⟨rfl, hlt⟩)
    exact ⟨hle, seek_of_le hle now⟩
  · intro before later b place hsplit hfound hplace hsize
    have hbefore : ∀ x ∈ history before r, ¬x.Fails := by
      intro x hx
      refine hpast x ?_
      rw [hsplit, history_append]
      exact List.mem_append_left _ hx
    obtain ⟨hgave, hend⟩ := standingAt_of_found hmade hbefore hfound hplace
    have hlt : (place : Int) < positionLimit := by omega
    have hseek := seek_of_running hover hrunning (Int.natCast_nonneg place) hlt
    rw [Int.toNat_natCast, ← hgave] at hseek
    rw [hseek]
    exact ⟨rfl, hfound, fun n => rfl⟩

/-- A reader that has come to the end of two blobs is moved back to the second one, gives it again
and comes to the end again. -/
theorem second_blob_is_given_again :
    let start := standingAt twoBlobs.bytes 0
    let now := final [.next, .next, .next] start
    (∀ x ∈ history [.next, .next, .next] start, ¬x.Fails) ∧ now.offset = some 18 ∧
      now.seek 9 = (.ok 9, standingAt twoBlobs.bytes 9) ∧
      (now.seek 9).2.next.1 = .ok (some ⟨"x", none, 0, .empty, some 9⟩) ∧
      nexts 1 (now.seek 9).2.next.2 = [.ok none] := by
  have hmade : (standingAt twoBlobs.bytes 0).IsMadeOn twoBlobs := .inr rfl
  have hrunning : (final [.next, .next, .next] (standingAt twoBlobs.bytes 0)).isHalted = false := by
    decide +kernel
  have hpast : ∀ x ∈ history [.next, .next, .next] (standingAt twoBlobs.bytes 0), ¬x.Fails := by
    intro x hx hfails
    rw [(isHalted_final _).2 (.inr ⟨x, hx, hfails⟩)] at hrunning
    cases hrunning
  have hoffset : (final [.next, .next, .next] (standingAt twoBlobs.bytes 0)).offset = some 18 := by
    decide +kernel
  have hfound : (final [.next] (standingAt twoBlobs.bytes 0)).next.1 =
      .ok (some ⟨"x", none, 0, .empty, some 9⟩) := eq_ok_of_toOption (by decide +kernel)
  have hend : (final [.next, .next] (standingAt twoBlobs.bytes 0)).next.1 = .ok none :=
    eq_ok_of_toOption (by decide +kernel)
  obtain ⟨hmoves, _, hback⟩ := seeking_forgets_history hmade hpast
  obtain ⟨hseek, _⟩ := hmoves 9 ⟨twoBlobs.bytes, 9⟩ (standingAt twoBlobs.bytes 9) (by decide)
    ((MemoryStream.wasMovedTo_iff (by decide)).2 ⟨rfl, by decide⟩) rfl
  obtain ⟨_, hagain, hnexts⟩ := hback [.next] [.next] _ 9 rfl hfound rfl (by decide)
  refine ⟨hpast, hoffset, hseek, hagain, (hnexts 1).trans ?_⟩
  exact congrArg (fun answer => [answer]) hend

end BlobReader

end MapArchive
