import MapArchive.Blob.Reader

/-!
# Streams that read alike

Two streams read alike if every read gives the same on both and leaves them reading alike. A reader
of blobs knows its stream by reading only, so readers on streams that read alike give the same
blobs, whatever the streams are made of and wherever they stand. If the offsets of one reader are
those of the other one relocated, so are the offsets of the blobs, and nothing else differs.
-/

namespace MapArchive

variable {σ τ : Type} [ByteStream σ] [ByteStream τ]

/-- Reading keeps the relation and gives the same on both sides. -/
def ReadsAlike (R : σ → τ → Prop) : Prop :=
  ∀ (n : Nat) {s : σ} {t : τ}, R s t →
    (ByteStream.read n s).1 = (ByteStream.read n t).1 ∧
      R (ByteStream.read n s).2 (ByteStream.read n t).2

/-- Two results of reading are the same and leave the relation. -/
structure Agree {α : Type} (R : σ → τ → Prop) (a : α × σ) (b : α × τ) : Prop where
  /-- The answers are the same. -/
  answer : a.1 = b.1
  /-- The streams are related afterwards. -/
  after : R a.2 b.2

/-- Streams that are read alike agree on every read. -/
theorem ReadsAlike.agree {R : σ → τ → Prop} {s : σ} {t : τ} (hR : ReadsAlike R) (h : R s t)
    (n : Nat) : Agree R (ByteStream.read n s) (ByteStream.read n t) :=
  ⟨(hR n h).1, (hR n h).2⟩

namespace Frame

variable {R : σ → τ → Prop} {s : σ} {t : τ}

/-- The length of a header is read alike. -/
theorem agree_readLength (h : Agree R (ByteStream.read 4 s) (ByteStream.read 4 t)) :
    Agree R (readLength s) (readLength t) := by
  obtain ⟨hanswer, hafter⟩ := h
  unfold readLength
  generalize ByteStream.read 4 s = a at hanswer hafter
  generalize ByteStream.read 4 t = b at hanswer hafter
  obtain ⟨answer, s'⟩ := a
  obtain ⟨_, t'⟩ := b
  cases hanswer
  cases answer with
  | error fault => exact ⟨rfl, hafter⟩
  | ok bytes =>
    dsimp only
    split
    · exact ⟨rfl, hafter⟩
    · split
      · exact ⟨rfl, hafter⟩
      · split <;> exact ⟨rfl, hafter⟩

/-- A part of a frame is read alike. -/
theorem agree_readPart {α : Type} [Message α] (location : String) {size : Nat}
    (h : Agree R (ByteStream.read size s) (ByteStream.read size t)) :
    Agree R (readPart α location size s) (readPart α location size t) := by
  obtain ⟨hanswer, hafter⟩ := h
  unfold readPart
  generalize ByteStream.read size s = a at hanswer hafter
  generalize ByteStream.read size t = b at hanswer hafter
  obtain ⟨answer, s'⟩ := a
  obtain ⟨_, t'⟩ := b
  cases hanswer
  cases answer with
  | error fault => exact ⟨rfl, hafter⟩
  | ok bytes =>
    dsimp only
    split <;> exact ⟨rfl, hafter⟩

/-- A frame is read alike. -/
theorem agree_read (hR : ReadsAlike R) (h : R s t) : Agree R (read s) (read t) := by
  obtain ⟨hlength, hafter⟩ := agree_readLength (hR.agree h 4)
  unfold read
  generalize readLength s = a at hlength hafter
  generalize readLength t = b at hlength hafter
  obtain ⟨answer, s₁⟩ := a
  obtain ⟨_, t₁⟩ := b
  cases hlength
  cases answer with
  | error e => exact ⟨rfl, hafter⟩
  | ok length =>
  cases length with
  | none => exact ⟨rfl, hafter⟩
  | some headerSize =>
  obtain ⟨hheader, hafter⟩ :=
    agree_readPart (α := BlobHeader) "blob header" (hR.agree hafter headerSize)
  dsimp only
  generalize readPart BlobHeader "blob header" headerSize s₁ = a at hheader hafter
  generalize readPart BlobHeader "blob header" headerSize t₁ = b at hheader hafter
  obtain ⟨answer, s₂⟩ := a
  obtain ⟨_, t₂⟩ := b
  cases hheader
  cases answer with
  | error e => exact ⟨rfl, hafter⟩
  | ok header =>
  dsimp only
  cases checkHeader header with
  | error e => exact ⟨rfl, hafter⟩
  | ok type =>
  obtain ⟨hbody, hafter⟩ :=
    agree_readPart (α := BlobBody) "blob content" (hR.agree hafter (bodySize header))
  dsimp only
  generalize readPart BlobBody "blob content" (bodySize header) s₂ = a at hbody hafter
  generalize readPart BlobBody "blob content" (bodySize header) t₂ = b at hbody hafter
  obtain ⟨answer, s₃⟩ := a
  obtain ⟨_, t₃⟩ := b
  cases hbody
  cases answer with
  | error e => exact ⟨rfl, hafter⟩
  | ok body => exact ⟨rfl, hafter⟩

end Frame

/-- A change of offsets that going on by some bytes commutes with. -/
structure Relocation where
  /-- What becomes of an offset, which may be unknown. -/
  place : Option Nat → Option Nat
  /-- Going on by some bytes commutes with it. -/
  place_map_add : ∀ (offset : Option Nat) (n : Nat),
    place (offset.map (· + n)) = (place offset).map (· + n)
  /-- An unknown offset stays unknown. -/
  place_none : place none = none

namespace Relocation

/-- Every offset grows by the same number. -/
def shift (k : Nat) : Relocation where
  place := Option.map (· + k)
  place_map_add offset n := by
    cases offset with
    | none => rfl
    | some p => exact congrArg some (Nat.add_right_comm p n k)
  place_none := rfl

/-- Every offset is forgotten. -/
def forget : Relocation := ⟨fun _ => none, fun _ _ => rfl, rfl⟩

/-- The same blob, at the changed offset. -/
def blob (f : Relocation) (b : Blob) : Blob := { b with offset := f.place b.offset }

/-- The same answer of a reader, with the blob at the changed offset. -/
def answer (f : Relocation) (a : Except ReadError (Option Blob)) : Except ReadError (Option Blob) :=
  a.map (Option.map f.blob)

end Relocation

namespace BlobReader

/-- What a reader answers when it is asked for the next blob so many times. -/
def nexts : Nat → BlobReader σ → List (Except ReadError (Option Blob))
  | 0, _ => []
  | n + 1, r => r.next.1 :: nexts n r.next.2

/-- Two readers whose streams are related, the offset of the first being that of the second
relocated. -/
structure Related (R : σ → τ → Prop) (f : Relocation) (r : BlobReader σ) (s : BlobReader τ) :
    Prop where
  /-- The streams are related. -/
  stream : R r.stream s.stream
  /-- The offsets differ by the relocation. -/
  offset : r.offset = f.place s.offset
  /-- Both have halted, or neither. -/
  isHalted : r.isHalted = s.isHalted

variable {R : σ → τ → Prop} {f : Relocation} {r : BlobReader σ} {s : BlobReader τ}

/-- Related readers give the same next blob and stay related. -/
theorem related_next (hR : ReadsAlike R) (h : Related R f r s) :
    r.next.1 = f.answer s.next.1 ∧ Related R f r.next.2 s.next.2 := by
  obtain ⟨hstream, hoffset, hhalted⟩ := h
  unfold next
  rw [hhalted]
  split
  · exact ⟨rfl, hstream, hoffset, hhalted⟩
  · obtain ⟨hanswer, hafter⟩ := Frame.agree_read hR hstream
    generalize Frame.read r.stream = a at hanswer hafter
    generalize Frame.read s.stream = b at hanswer hafter
    obtain ⟨answer, s'⟩ := a
    obtain ⟨_, t'⟩ := b
    cases hanswer
    cases answer with
    | error e =>
      cases e with
      | archive e => exact ⟨rfl, hafter, f.place_none.symm, rfl⟩
      | stream fault => exact ⟨rfl, hafter, hoffset, rfl⟩
    | ok found =>
      cases found with
      | none => exact ⟨rfl, hafter, hoffset, rfl⟩
      | some frame =>
        refine ⟨?_, hafter, ?_, rfl⟩
        · rw [hoffset]
          rfl
        · dsimp only
          rw [hoffset, f.place_map_add]

/-- Related readers give the same blobs, however often they are asked. -/
theorem nexts_of_related (hR : ReadsAlike R) (h : Related R f r s) (n : Nat) :
    nexts n r = (nexts n s).map f.answer := by
  induction n generalizing r s with
  | zero => rfl
  | succ n ih =>
    obtain ⟨hanswer, hafter⟩ := related_next hR h
    rw [nexts, nexts, List.map_cons, hanswer, ih hafter]

end BlobReader

end MapArchive
