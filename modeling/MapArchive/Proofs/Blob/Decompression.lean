import MapArchive.Blob.Content
import MapArchive.Proofs.Compression.Running

/-!
# What decompressing comes to

Decompressing gives the content, or finds it too long, or ends with an error that calls the bytes by
their name. There is content if the bytes start with a complete stream, whatever follows it. It is
too long if a first part of the bytes makes the decompressor want to put out too much, whatever
follows that. If a complete stream is cut off anywhere, there is an error.
-/

namespace MapArchive.Codec

open Procedure (Buffers)

variable {codec : Codec} {packed first content : ByteArray}

/-- Decompressing gives some content and comes to the end of the stream. -/
def Restores (codec : Codec) (packed content : ByteArray) : Prop :=
  ∃ input, codec.decoder.run outputLimit ⟨.atStart packed, .empty⟩ = .ok ((), ⟨input, content⟩)

/-- Bytes are a complete stream of some content, and nothing follows its end. -/
def IsStream (codec : Codec) (packed content : ByteArray) : Prop :=
  ∃ input, codec.decoder.run outputLimit ⟨.atStart packed, .empty⟩ =
    .ok ((), ⟨input, content⟩) ∧ input.remaining = 0

/-- Decompressing puts out more than is allowed. -/
inductive Exceeds (codec : Codec) (packed : ByteArray) : Prop where
  /-- Still more was to be put out. -/
  | more (h : codec.decoder.run outputLimit ⟨.atStart packed, .empty⟩ = .error .overfull)
  /-- So much had been put out where the bytes ended. -/
  | cut {output : ByteArray} (h : codec.decoder.run outputLimit ⟨.atStart packed, .empty⟩ =
      .error (.starved output)) (hsize : maxContentSize < output.size)
  /-- So much had been put out where the stream ended. -/
  | whole {content : ByteArray} (h : codec.Restores packed content)
      (hsize : maxContentSize < content.size)

/-- Decompressing puts out more than is allowed, whatever follows these bytes: they make the
decompressor want to put out still more before it comes upon their end, or it comes to the end of
the stream. -/
inductive Floods (codec : Codec) (first : ByteArray) : Prop where
  /-- Still more is to be put out. -/
  | more (h : codec.decoder.procedure.Overflows outputLimit ⟨.atStart first, .empty⟩)
  /-- So much has been put out where the stream ends. -/
  | whole {content : ByteArray} (h : codec.Restores first content)
      (hsize : maxContentSize < content.size)

/-- A cursor at the start has not passed the end. -/
theorem isWithin_atStart (packed : ByteArray) : (Cursor.atStart packed).IsWithin := Nat.zero_le _

/-- A stream restores its content. -/
theorem IsStream.restores (h : codec.IsStream packed content) : codec.Restores packed content := by
  obtain ⟨input, hrun, _⟩ := h
  exact ⟨input, hrun⟩

/-- What follows after the end of the stream does not matter. -/
theorem Restores.append (h : codec.Restores first content) (rest : ByteArray) :
    codec.Restores (first ++ rest) content := by
  obtain ⟨input, hrun⟩ := h
  exact ⟨input.extend rest,
    codec.decoder.careful.run_extend (isWithin_atStart first) hrun rest⟩

/-- What follows a flood does not matter. -/
theorem Floods.exceeds (h : codec.Floods first) (rest : ByteArray) :
    codec.Exceeds (first ++ rest) := by
  cases h with
  | more hover => exact .more (hover.run_extend (isWithin_atStart first) rest)
  | whole hrestores hsize => exact .whole (hrestores.append rest) hsize

/-- Whatever follows bytes from which more is put out than is allowed, they do not become the start
of a stream of content that is not too long. -/
theorem Exceeds.size_of_restores {rest : ByteArray} (h : codec.Exceeds first)
    (hrestores : codec.Restores (first ++ rest) content) : maxContentSize < content.size := by
  refine Nat.lt_of_not_le fun hsize => ?_
  obtain ⟨input, hrun⟩ := hrestores
  have hroom : content.size < outputLimit := Nat.lt_succ_of_le hsize
  rcases codec.decoder.careful.run_of_extend (b := ⟨.atStart first, .empty⟩)
    (isWithin_atStart first) hrun hroom with
    ⟨middle, hok, hafter⟩ | hcorrupt | ⟨output, hstarved, hle⟩
  · cases h with
    | more hmore => cases hok.symm.trans hmore
    | cut hcut => cases hok.symm.trans hcut
    | whole hwhole hlong =>
      obtain ⟨_, hwhole⟩ := hwhole
      cases hok.symm.trans hwhole
      have houtput := congrArg Buffers.output hafter
      cases houtput
      omega
  · cases h with
    | more hmore => cases hcorrupt.symm.trans hmore
    | cut hcut => cases hcorrupt.symm.trans hcut
    | whole hwhole =>
      obtain ⟨_, hwhole⟩ := hwhole
      cases hcorrupt.symm.trans hwhole
  · cases h with
    | more hmore => cases hstarved.symm.trans hmore
    | cut hcut hlong =>
      cases hstarved.symm.trans hcut
      exact Nat.not_lt.2 (Nat.le_trans hle hsize) hlong
    | whole hwhole =>
      obtain ⟨_, hwhole⟩ := hwhole
      cases hstarved.symm.trans hwhole

/-- Content that is not too long is what decompressing results in. -/
theorem decompress_of_restores (h : codec.Restores packed content)
    (hsize : content.size ≤ maxContentSize) : codec.decompress packed = .ok content := by
  obtain ⟨input, hrun⟩ := h
  rw [decompress, hrun]
  exact (if_neg (Nat.not_lt.2 hsize)).trans (if_pos rfl)

/-- Content that decompressing results in was there at the end of the stream. -/
theorem restores_of_decompress (h : codec.decompress packed = .ok content) :
    codec.Restores packed content := by
  rw [decompress] at h
  rcases hrun : codec.decoder.run outputLimit ⟨.atStart packed, .empty⟩ with
    stop | ⟨_, input, output⟩
  · rw [hrun] at h
    cases stop with
    | starved output =>
      dsimp only [judge] at h
      split at h <;> cases h
    | overfull | corrupt => cases h
  · rw [hrun] at h
    dsimp only [judge] at h
    split at h
    · cases h
    · cases h
      exact ⟨input, hrun⟩

/-- If more is put out than is allowed, it is one byte more: no more is asked for. -/
theorem decompress_of_exceeds (h : codec.Exceeds packed) :
    codec.decompress packed = .error (.messageTooBig (maxContentSize + 1)) := by
  have hempty : ByteArray.empty.size ≤ outputLimit := Nat.zero_le _
  have hlimit : outputLimit = maxContentSize + 1 := rfl
  cases h with
  | more hrun =>
    rw [decompress, hrun]
    rfl
  | @cut output hrun hsize =>
    have hle := Procedure.size_of_run_starved hrun hempty
    have heq : output.size = maxContentSize + 1 := by omega
    rw [decompress, hrun]
    dsimp only [judge]
    rw [if_pos hsize, heq]
    rfl
  | @whole content hrestores hsize =>
    obtain ⟨input, hrun⟩ := hrestores
    have hle : content.size ≤ outputLimit := (Procedure.sizes_of_run hrun).2.1 hempty
    have heq : content.size = maxContentSize + 1 := by omega
    rw [decompress, hrun]
    dsimp only [judge]
    rw [if_pos hsize, heq]
    rfl

/-- If there is no complete stream, and not too much is put out, an error says what was being
read. -/
theorem location_of_decompress (hrestores : ∀ content, ¬codec.Restores packed content)
    (hexceeds : ¬codec.Exceeds packed) :
    ∃ e, codec.decompress packed = .error e ∧ e.location? = some codec.location := by
  rw [decompress]
  rcases hrun : codec.decoder.run outputLimit ⟨.atStart packed, .empty⟩ with
    halt | ⟨_, input, output⟩
  · cases halt with
    | starved output =>
      have hsize : ¬maxContentSize < output.size := fun hsize => hexceeds (.cut hrun hsize)
      dsimp only [judge]
      rw [if_neg hsize]
      exact ⟨_, rfl, rfl⟩
    | overfull => exact absurd (.more hrun) hexceeds
    | corrupt => exact ⟨_, rfl, rfl⟩
  · exact absurd ⟨input, hrun⟩ (hrestores output)

/-- A complete stream that is cut off anywhere is not taken for a complete stream, even if all of
the content could be had from what is left. -/
theorem IsStream.location_of_cut (h : codec.IsStream packed content)
    (hsize : content.size ≤ maxContentSize) {k : Nat} (hcut : k < packed.size) :
    ∃ e, codec.decompress (packed.extract 0 k) = .error e ∧
      e.location? = some codec.location := by
  obtain ⟨input, hrun, hend⟩ := h
  obtain ⟨part, hpart⟩ : ∃ part, part = packed.extract 0 k := ⟨_, rfl⟩
  obtain ⟨more, hmore⟩ : ∃ more, more = packed.extract k packed.size := ⟨_, rfl⟩
  have hsplit : packed = part ++ more := by
    rw [hpart, hmore, ByteArray.extract_append_extract, Nat.min_eq_left (Nat.zero_le k),
      Nat.max_eq_right (Nat.le_of_lt hcut), ByteArray.extract_zero_size]
  have hpositive : 0 < more.size := by
    rw [hmore, ByteArray.size_extract]
    omega
  have hwithin := isWithin_atStart part
  have hroom : content.size < outputLimit := Nat.lt_succ_of_le hsize
  rw [← hpart, decompress]
  rw [hsplit] at hrun
  rcases codec.decoder.careful.run_of_extend (b := ⟨.atStart part, .empty⟩) hwithin hrun hroom with
    ⟨middle, hmiddle, hafter⟩ | hcorrupt | ⟨output, hstarved, hle⟩
  · -- The end of the stream would have been read without what is cut off.
    exfalso
    have hinput : input = middle.input.extend more := congrArg Buffers.input hafter
    have hinside : middle.input.IsWithin := (Procedure.sizes_of_run hmiddle).2.2.2 hwithin
    rw [hinput, Cursor.remaining_extend hinside] at hend
    omega
  · rw [Decoder.run, hcorrupt]
    exact ⟨_, rfl, rfl⟩
  · have hsmall : ¬maxContentSize < output.size := Nat.not_lt.2 (Nat.le_trans hle hsize)
    rw [Decoder.run, hstarved]
    dsimp only [judge]
    rw [if_neg hsmall]
    exact ⟨_, rfl, rfl⟩

end MapArchive.Codec
