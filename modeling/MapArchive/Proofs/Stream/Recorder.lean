import MapArchive.Proofs.Blob.Frame

/-!
# Recorded streams

A stream of any kind whose reads are written down. Whether a reader has read from its stream can be
told from the record, also where a read leaves the stream as it was.
-/

namespace MapArchive

/-- A stream, with a record of its reads. -/
structure Recorder (σ : Type) where
  /-- The stream. -/
  inner : σ
  /-- How many bytes were asked for, by all reads so far. -/
  reads : List Nat

namespace Recorder

variable {σ : Type} [ByteStream σ]

instance : ByteStream (Recorder σ) where
  read n s := ((ByteStream.read n s.inner).1, ⟨(ByteStream.read n s.inner).2, s.reads ++ [n]⟩)
  seek offset whence s :=
    ((ByteStream.seek offset whence s.inner).1,
      { s with inner := (ByteStream.seek offset whence s.inner).2 })
  tell s := ByteStream.tell s.inner
  close s := { s with inner := ByteStream.close s.inner }
  isClosed s := ByteStream.isClosed s.inner
  size_of_read {n s t bytes} h := by
    obtain ⟨hanswer, hafter⟩ := Prod.mk.inj h
    exact ByteStream.size_of_read (Prod.ext hanswer (congrArg inner hafter))

/-- A read is written down, whatever the stream answers. -/
theorem reads_read (n : Nat) (s : Recorder σ) :
    (ByteStream.read n s).2.reads = s.reads ++ [n] := rfl

/-- Moving is not written down. -/
theorem reads_seek (offset whence : Int) (s : Recorder σ) :
    (ByteStream.seek offset whence s).2.reads = s.reads := rfl

/-- The length of a header is read in one request for four bytes. -/
theorem reads_readLength (s : Recorder σ) : (Frame.readLength s).2.reads = s.reads ++ [4] := by
  rw [Frame.after_readLength, reads_read]

/-- A part is read in one request for its length. -/
theorem reads_readPart {α : Type} [Message α] (location : String) (n : Nat) (s : Recorder σ) :
    (Frame.readPart α location n s).2.reads = s.reads ++ [n] := by
  rw [Frame.after_readPart, reads_read]

/-- Reading a frame starts with reading four bytes. -/
theorem reads_readFrame (s : Recorder σ) :
    ∃ more, (Frame.read s).2.reads = s.reads ++ 4 :: more := by
  have hlength := reads_readLength s
  have h := Frame.reading_read s
  generalize Frame.read s = result at h ⊢
  cases h with
  | noLength hread =>
    rw [hread] at hlength
    exact ⟨[], hlength⟩
  | ended hread =>
    rw [hread] at hlength
    exact ⟨[], hlength⟩
  | @noHeader n e t u hread hheader
  | @badHeader n header e t u hread hheader _ =>
    rw [hread] at hlength
    have hpart := reads_readPart (α := BlobHeader) "blob header" n t
    rw [hheader, hlength, List.append_assoc] at hpart
    exact ⟨[n], hpart⟩
  | @noBody n header type e t u v hread hheader _ hbody
  | @found n header type body t u v hread hheader _ hbody =>
    rw [hread] at hlength
    have hpart := reads_readPart (α := BlobHeader) "blob header" n t
    rw [hheader, hlength] at hpart
    have hlast := reads_readPart (α := BlobBody) "blob content" (Frame.bodySize header) u
    rw [hbody, hpart, List.append_assoc, List.append_assoc] at hlast
    exact ⟨[n, Frame.bodySize header], hlast⟩

/-- A recorded stream gives no more bytes than the stream itself. -/
instance {σ : Type} [FiniteStream σ] : FiniteStream (Recorder σ) where
  toByteStream := inferInstance
  remaining s := FiniteStream.remaining s.inner
  remaining_of_read {n s t bytes} h := by
    obtain ⟨hanswer, hafter⟩ := Prod.mk.inj h
    exact FiniteStream.remaining_of_read (Prod.ext hanswer (congrArg inner hafter))

end Recorder

end MapArchive
