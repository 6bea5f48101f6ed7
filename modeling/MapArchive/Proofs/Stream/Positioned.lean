import MapArchive.Proofs.Blob.Frame
import MapArchive.Stream.Faulty
import MapArchive.Stream.File

/-!
# Streams that stand at a position

A stream has positions if reading moves it on by as many bytes as it gave and moving it leads to the
position that was answered. If the system refuses, nothing is known of the position; any other
refusal leaves the stream where it was. Streams in memory, files and faulty streams have positions.
-/

namespace MapArchive

/-- Byte streams of which every state stands at a position. -/
class PositionedStream (σ : Type) [ByteStream σ] where
  /-- Where the next byte is read. -/
  position : σ → Nat
  /-- The stream tells where it stands. -/
  position_of_tell : ∀ {s : σ} {n : Nat}, ByteStream.tell s = .ok n → n = position s
  /-- The stream moves on by what was read. -/
  position_of_read : ∀ {n : Nat} {s t : σ} {bytes : ByteArray},
    ByteStream.read n s = (.ok bytes, t) → position t = position s + bytes.size
  /-- If it was not the system that refused to read, the stream was not moved. -/
  position_of_refused_read : ∀ {n : Nat} {s t : σ} {fault : StreamFault},
    ByteStream.read n s = (.error fault, t) → fault.isOfSystem = false → position t = position s
  /-- After a read only the system can refuse the next one. -/
  isOfSystem_of_read_of_read : ∀ {m n : Nat} {s t u : σ} {bytes : ByteArray} {fault : StreamFault},
    ByteStream.read m s = (.ok bytes, t) → ByteStream.read n t = (.error fault, u) →
      fault.isOfSystem = true
  /-- The stream is moved to the position that it answers. -/
  position_of_seek : ∀ {offset whence : Int} {s t : σ} {n : Nat},
    ByteStream.seek offset whence s = (.ok n, t) → position t = n
  /-- If it was not the system that refused to move the stream, it was not moved. -/
  position_of_refused_seek : ∀ {offset whence : Int} {s t : σ} {fault : StreamFault},
    ByteStream.seek offset whence s = (.error fault, t) → fault.isOfSystem = false →
      position t = position s

namespace MemoryStream

/-- The position that a request to seek answers is the one that is reached. -/
theorem position_of_seek {offset whence : Int} {s t : MemoryStream} {n : Nat}
    (h : s.seek offset whence = (.ok n, t)) : t.position = n := by
  unfold seek at h
  split at h
  · cases h
  · split at h
    · cases h
    · dsimp only at h
      split at h
      · cases h
      · split at h
        · cases h
          rfl
        · cases h

/-- A move that is refused does nothing. -/
theorem eq_of_refused_seek {offset whence : Int} {s t : MemoryStream} {fault : StreamFault}
    (h : s.seek offset whence = (.error fault, t)) : t = s := by
  unfold seek at h
  split at h
  · cases h
    rfl
  · split at h
    · cases h
      rfl
    · dsimp only at h
      split at h
      · cases h
        rfl
      · split at h
        · cases h
        · cases h
          rfl

instance : PositionedStream MemoryStream where
  position := position
  position_of_tell h := (Except.ok.inj h).symm
  position_of_read h := by
    cases h
    rfl
  position_of_refused_read h := by cases h
  isOfSystem_of_read_of_read _ h := by cases h
  position_of_seek := position_of_seek
  position_of_refused_seek h _ := congrArg position (eq_of_refused_seek h)

end MemoryStream

namespace FaultyStream

instance : PositionedStream FaultyStream where
  position s := s.memory.position
  position_of_tell h := (Except.ok.inj h).symm
  position_of_read {n s t bytes} h := by
    change s.read n = _ at h
    unfold read at h
    dsimp only at h
    split at h
    · cases h
    · cases h
      rfl
  position_of_refused_read {n s t fault} h hfault := by
    change s.read n = _ at h
    unfold read at h
    dsimp only at h
    split at h
    · cases h
      cases hfault
    · cases h
  isOfSystem_of_read_of_read {m n s t u bytes fault} _ h := by
    change t.read n = _ at h
    unfold read at h
    dsimp only at h
    split at h
    · cases h
      rfl
    · cases h
  position_of_seek {offset whence s t n} h := by
    change s.seek offset whence = _ at h
    unfold seek at h
    dsimp only at h
    split at h
    · cases h
    · obtain ⟨hanswer, rfl⟩ := Prod.mk.inj h
      exact MemoryStream.position_of_seek (Prod.ext hanswer rfl)
  position_of_refused_seek {offset whence s t fault} h hfault := by
    change s.seek offset whence = _ at h
    unfold seek at h
    dsimp only at h
    split at h
    · cases h
      cases hfault
    · obtain ⟨hanswer, rfl⟩ := Prod.mk.inj h
      exact congrArg MemoryStream.position
        (MemoryStream.eq_of_refused_seek (Prod.ext hanswer rfl))

end FaultyStream

namespace FileStream

/-- A read does not close a file. -/
theorem isClosed_of_read {n : Nat} {s t : FileStream} {bytes : ByteArray}
    (h : s.read n = (.ok bytes, t)) : t.isClosed = false := by
  unfold read at h
  split at h
  · cases h
  case isFalse hopen =>
    cases h
    exact Bool.eq_false_iff.2 hopen

instance : PositionedStream FileStream where
  position s := s.memory.position
  position_of_tell {s n} h := by
    change (if s.isClosed then _ else _) = _ at h
    split at h
    · cases h
    · exact (Except.ok.inj h).symm
  position_of_read {n s t bytes} h := by
    change s.read n = _ at h
    unfold read at h
    split at h
    · cases h
    · cases h
      rfl
  position_of_refused_read {n s t fault} h _ := by
    change s.read n = _ at h
    unfold read at h
    split at h
    · cases h
      rfl
    · cases h
  isOfSystem_of_read_of_read {m n s t u bytes fault} hfirst h := by
    change t.read n = _ at h
    rw [read, if_neg (by simp [isClosed_of_read hfirst])] at h
    cases h
  position_of_seek {offset whence s t n} h := by
    change s.seek offset whence = _ at h
    unfold seek at h
    split at h
    · cases h
    · split at h
      · cases h
      · split at h
        · cases h
        · split at h
          · cases h
            rfl
          · cases h
  position_of_refused_seek {offset whence s t fault} h _ := by
    change s.seek offset whence = _ at h
    unfold seek at h
    split at h
    · cases h
      rfl
    · split at h
      · cases h
        rfl
      · split at h
        · cases h
          rfl
        · split at h
          · cases h
          · cases h
            rfl

end FileStream

namespace Frame

open PositionedStream (position position_of_read)

variable {σ : Type} [ByteStream σ] [PositionedStream σ] {s t : σ}

/-- Reading the length of a header moves on by four bytes. -/
theorem position_of_readLength {n : Nat} (h : readLength s = (.ok (some n), t)) :
    position t = position s + 4 := by
  obtain ⟨bytes, hread, hsize, _⟩ := read_of_readLength h
  rw [position_of_read hread, hsize]

/-- Reading a part moves on by its length. -/
theorem position_of_readPart {α : Type} [Message α] {location : String} {n : Nat} {a : α}
    (h : readPart α location n s = (.ok a, t)) : position t = position s + n := by
  obtain ⟨bytes, hread, hsize⟩ := Frame.read_of_readPart h
  rw [position_of_read hread, hsize]

/-- A frame moves the stream on by its length. -/
theorem position_of_read_frame {f : Frame} (h : read s = (.ok (some f), t)) :
    position t = position s + f.size := by
  have hreading := reading_read s
  rw [h] at hreading
  cases hreading with
  | found hlength hheader _ hbody =>
    rw [position_of_readPart hbody, position_of_readPart hheader, position_of_readLength hlength,
      Nat.add_assoc, Nat.add_assoc, Frame.size, Nat.add_assoc]

/-- At its end the stream stays where it is. -/
theorem position_of_read_end (h : read s = (.ok none, t)) : position t = position s := by
  rw [position_of_read (read_eq_end_iff.1 h)]
  rfl

/-- A read that something other than the system refuses is the first one of a frame, and the stream
stays where it is. -/
theorem position_of_refused_frame {fault : StreamFault}
    (h : read s = (.error (.stream fault), t)) : position t = position s := by
  have hreading := reading_read s
  rw [h] at hreading
  cases hreading with
  | noLength hlength =>
    obtain ⟨hread, hfault⟩ := refusal_of_readLength hlength
    exact PositionedStream.position_of_refused_read hread hfault
  | noHeader hlength hheader =>
    obtain ⟨_, hbefore, _⟩ := read_of_readLength hlength
    obtain ⟨hread, hfault⟩ := refusal_of_readPart hheader
    rw [PositionedStream.isOfSystem_of_read_of_read hbefore hread] at hfault
    cases hfault
  | noBody _ hheader _ hbody =>
    obtain ⟨_, hbefore, _⟩ := read_of_readPart hheader
    obtain ⟨hread, hfault⟩ := refusal_of_readPart hbody
    rw [PositionedStream.isOfSystem_of_read_of_read hbefore hread] at hfault
    cases hfault

end Frame

end MapArchive
