import MapArchive.Blob.Frame

/-!
# What reading a frame can do

Each of the three reads of a frame gives its answer and leaves the stream where the read left it.
The lemmas here tell from the result of reading a frame which reads there were and what they gave;
what is known of a stream's reads can then be said of whole frames.
-/

namespace MapArchive

/-- A refusal of a stream is passed on as it is just if it is not one of the system. -/
theorem ReadError.ofFault_eq_stream_iff {error : ArchiveError} {fault other : StreamFault} :
    ofFault error fault = .stream other ↔ fault.isOfSystem = false ∧ fault = other := by
  unfold ofFault
  rcases Bool.eq_false_or_eq_true fault.isOfSystem with h | h
  · rw [if_pos h]
    simp [h]
  · rw [if_neg (by simp [h])]
    simp [h]

namespace Frame

variable {σ : Type} [ByteStream σ] {s t : σ}

/-- Reading a length leaves the stream where its read left it. -/
theorem after_readLength (s : σ) : (readLength s).2 = (ByteStream.read 4 s).2 := by
  unfold readLength
  split
  case h_1 fault t hread => rw [hread]
  case h_2 bytes t hread =>
    rw [hread]
    split
    · rfl
    · split
      · rfl
      · dsimp only
        split <;> rfl

/-- Reading a part leaves the stream where its read left it. -/
theorem after_readPart {α : Type} [Message α] (location : String) (n : Nat) (s : σ) :
    (readPart α location n s).2 = (ByteStream.read n s).2 := by
  unfold readPart
  split
  case h_1 fault t hread => rw [hread]
  case h_2 bytes t hread =>
    rw [hread]
    split <;> rfl

/-- A length is read from four bytes. -/
theorem read_of_readLength {n : Nat} (h : readLength s = (.ok (some n), t)) :
    ∃ bytes, ByteStream.read 4 s = (.ok bytes, t) ∧ bytes.size = 4 ∧
      n = Endian.ofBig (octets bytes) := by
  unfold readLength at h
  split at h
  case h_1 => cases h
  case h_2 bytes u hread =>
    split at h
    · cases h
    · split at h
      · cases h
      case isFalse hsize =>
        dsimp only at h
        split at h
        · cases h
        · cases h
          exact ⟨bytes, hread, Decidable.not_not.1 hsize, rfl⟩

/-- The end of the stream is where no byte is read. -/
theorem readLength_eq_end_iff :
    readLength s = (.ok none, t) ↔ ByteStream.read 4 s = (.ok ByteArray.empty, t) := by
  constructor
  · intro h
    unfold readLength at h
    split at h
    case h_1 => cases h
    case h_2 bytes u hread =>
      split at h
      case isTrue hsize =>
        cases h
        rw [hread, ByteArray.size_eq_zero_iff.1 hsize]
      · split at h
        · cases h
        · dsimp only at h
          split at h <;> cases h
  · intro h
    rw [readLength, h]
    rfl

/-- If the stream refuses a length, it refuses to be read. -/
theorem refusal_of_readLength {fault : StreamFault}
    (h : readLength s = (.error (.stream fault), t)) :
    ByteStream.read 4 s = (.error fault, t) ∧ fault.isOfSystem = false := by
  unfold readLength at h
  split at h
  case h_1 found u hread =>
    obtain ⟨herror, rfl⟩ := Prod.mk.inj h
    obtain ⟨hfault, rfl⟩ := ReadError.ofFault_eq_stream_iff.1 (Except.error.inj herror)
    exact ⟨hread, hfault⟩
  case h_2 =>
    split at h
    · cases h
    · split at h
      · cases h
      · dsimp only at h
        split at h <;> cases h

section Part

variable {α : Type} [Message α] {location : String} {n : Nat}

/-- A part is read from as many bytes as it has. -/
theorem read_of_readPart {a : α} (h : readPart α location n s = (.ok a, t)) :
    ∃ bytes, ByteStream.read n s = (.ok bytes, t) ∧ bytes.size = n := by
  unfold readPart at h
  split at h
  case h_1 => cases h
  case h_2 bytes u hread =>
    split at h
    · cases h
    case isFalse hsize =>
      obtain ⟨_, rfl⟩ := Prod.mk.inj h
      exact ⟨bytes, hread, Decidable.not_not.1 hsize⟩

/-- If the stream refuses a part, it refuses to be read. -/
theorem refusal_of_readPart {fault : StreamFault}
    (h : readPart α location n s = (.error (.stream fault), t)) :
    ByteStream.read n s = (.error fault, t) ∧ fault.isOfSystem = false := by
  unfold readPart at h
  split at h
  case h_1 found u hread =>
    obtain ⟨herror, rfl⟩ := Prod.mk.inj h
    obtain ⟨hfault, rfl⟩ := ReadError.ofFault_eq_stream_iff.1 (Except.error.inj herror)
    exact ⟨hread, hfault⟩
  case h_2 bytes u hread =>
    split at h
    · cases h
    · obtain ⟨herror, rfl⟩ := Prod.mk.inj h
      cases hmessage : readMessage α location bytes with
      | ok a =>
        rw [hmessage] at herror
        cases herror
      | error e =>
        rw [hmessage] at herror
        cases herror

end Part

/-- All that reading a frame can do. -/
inductive Reading (s : σ) : Except ReadError (Option Frame) × σ → Prop where
  /-- The length of the header cannot be read. -/
  | noLength {e : ReadError} {t : σ} (hlength : readLength s = (.error e, t)) :
      Reading s (.error e, t)
  /-- The stream has ended. -/
  | ended {t : σ} (hlength : readLength s = (.ok none, t)) : Reading s (.ok none, t)
  /-- The header cannot be read. -/
  | noHeader {n : Nat} {e : ReadError} {t u : σ} (hlength : readLength s = (.ok (some n), t))
      (hheader : readPart BlobHeader "blob header" n t = (.error e, u)) : Reading s (.error e, u)
  /-- There is something wrong with the header. -/
  | badHeader {n : Nat} {header : BlobHeader} {e : ArchiveError} {t u : σ}
      (hlength : readLength s = (.ok (some n), t))
      (hheader : readPart BlobHeader "blob header" n t = (.ok header, u))
      (hcheck : checkHeader header = .error e) : Reading s (.error (.archive e), u)
  /-- The body cannot be read. -/
  | noBody {n : Nat} {header : BlobHeader} {type : String} {e : ReadError} {t u v : σ}
      (hlength : readLength s = (.ok (some n), t))
      (hheader : readPart BlobHeader "blob header" n t = (.ok header, u))
      (hcheck : checkHeader header = .ok type)
      (hbody : readPart BlobBody "blob content" (bodySize header) u = (.error e, v)) :
      Reading s (.error e, v)
  /-- There is a frame. -/
  | found {n : Nat} {header : BlobHeader} {type : String} {body : BlobBody} {t u v : σ}
      (hlength : readLength s = (.ok (some n), t))
      (hheader : readPart BlobHeader "blob header" n t = (.ok header, u))
      (hcheck : checkHeader header = .ok type)
      (hbody : readPart BlobBody "blob content" (bodySize header) u = (.ok body, v)) :
      Reading s (.ok (some ⟨n, header, type, body⟩), v)

/-- Reading a frame does one of the things that it can do. -/
theorem reading_read (s : σ) : Reading s (read s) := by
  unfold read
  split
  case h_1 hlength => exact .noLength hlength
  case h_2 hlength => exact .ended hlength
  case h_3 hlength =>
    split
    case h_1 hheader => exact .noHeader hlength hheader
    case h_2 hheader =>
      split
      case h_1 hcheck => exact .badHeader hlength hheader hcheck
      case h_2 hcheck =>
        split
        case h_1 hbody => exact .noBody hlength hheader hcheck hbody
        case h_2 hbody => exact .found hlength hheader hcheck hbody

/-- What reading a frame can do is what it does. -/
theorem Reading.eq {result : Except ReadError (Option Frame) × σ} (h : Reading s result) :
    read s = result := by
  cases h with
  | noLength hlength | ended hlength => rw [read, hlength]
  | noHeader hlength hheader =>
    rw [read, hlength]
    dsimp only
    rw [hheader]
  | badHeader hlength hheader hcheck =>
    rw [read, hlength]
    dsimp only
    rw [hheader]
    dsimp only
    rw [hcheck]
  | noBody hlength hheader hcheck hbody | found hlength hheader hcheck hbody =>
    rw [read, hlength]
    dsimp only
    rw [hheader]
    dsimp only
    rw [hcheck]
    dsimp only
    rw [hbody]

/-- The length of the header in front of which the stream stands. -/
def headerSizeAt (s : σ) : Nat :=
  match (ByteStream.read 4 s).1 with
  | .ok bytes => Endian.ofBig (octets bytes)
  | .error _ => 0

/-- A frame starts with the length of its header. -/
theorem headerSize_of_read {f : Frame} (h : read s = (.ok (some f), t)) :
    ∃ bytes, (ByteStream.read 4 s).1 = .ok bytes ∧ bytes.size = 4 ∧
      f.headerSize = headerSizeAt s := by
  have hreading := reading_read s
  rw [h] at hreading
  cases hreading with
  | found hlength =>
    obtain ⟨bytes, hread, hsize, hvalue⟩ := read_of_readLength hlength
    refine ⟨bytes, by rw [hread], hsize, ?_⟩
    rw [headerSizeAt, hread]
    exact hvalue

/-- There is no further frame exactly if no byte is read where its length would start. -/
theorem read_eq_end_iff :
    read s = (.ok none, t) ↔ ByteStream.read 4 s = (.ok ByteArray.empty, t) := by
  rw [← readLength_eq_end_iff]
  constructor
  · intro h
    have hreading := reading_read s
    rw [h] at hreading
    cases hreading with
    | ended hlength => exact hlength
  · intro h
    rw [read, h]

end Frame

end MapArchive
