import MapArchive.Proofs.Blob.Continuation

/-!
# Reading finite streams to an end

Every blob takes at least the four bytes of a length from its stream, even if its header and its
body are empty. So only so many blobs can be found in so many bytes, and a reader comes to an end.
What it costs to get there is counted in reads: each blob is found with three of them at most, and
the bytes that are left pay for three reads for every four of them.
-/

namespace MapArchive

open FiniteStream (remaining)

/-- A frame takes at most three reads. -/
theorem Course.length_le {xs : List Exchange} (h : Course xs) : xs.length ≤ 3 := by
  cases h with
  | length => exact Nat.le_add_left 1 2
  | header => exact Nat.le_add_left 2 1
  | body => exact Nat.le_refl 3

namespace BlobReader

/-! ## How many blobs there are -/

/-- A blob that is found takes four bytes at least. -/
theorem remaining_of_found {σ : Type} [FiniteStream σ] {r : BlobReader σ} {b : Blob}
    (h : r.next.1 = .ok (some b)) : remaining r.next.2.stream + 4 ≤ remaining r.stream :=
  remaining_of_next (Prod.ext h rfl)

/-- There are four bytes for each blob. -/
theorem four_mul_length_blobs_le {σ : Type} [FiniteStream σ] (r : BlobReader σ) :
    4 * r.outcome.blobs.length ≤ remaining r.stream := by
  induction r using outcome_induction with
  | hend r hnext =>
    rw [outcome_of_end hnext]
    exact Nat.zero_le _
  | herror r e hnext =>
    rw [outcome_of_error hnext]
    exact Nat.zero_le _
  | hblob r b hnext ih =>
    have htaken := remaining_of_found hnext
    rw [outcome_of_blob hnext, Outcome.blobs_after, List.length_append, List.length_singleton]
    omega

section Memory

variable {r : BlobReader MemoryStream}

/-- A blob that is found moves the stream on by its length, but not beyond the end. -/
theorem advance_of_found {b : Blob} (h : r.next.1 = .ok (some b)) :
    r.next.2.stream.position = r.stream.position + r.extent b ∧
      r.next.2.stream.position ≤ r.stream.bytes.size := by
  obtain ⟨-, -, -, hposition⟩ := found_at h
  have hstart := position_of_found h
  have hrunning : r.isHalted = false := by
    refine Bool.eq_false_iff.mpr fun hhalted => ?_
    rw [next_of_isHalted hhalted] at h
    cases h
  have hstream := stream_next_of_running hrunning
  have hend := Frame.position_read_le (s := r.stream) (by omega)
  rw [Frame.bytes_read, ← hstream] at hend
  exact ⟨hposition, hend⟩

/-- At the end a reader stays as it is. -/
theorem next_of_nothing (h : r.next.1 = .ok none) : r.next = (.ok none, r) := by
  rcases Bool.eq_false_or_eq_true r.isHalted with hhalted | hrunning
  · exact next_of_isHalted hhalted
  · have hread := (next_eq_end_iff_of_running hrunning).1 h
    have hnone : r.stream.rest.take 4 = [] := by
      rw [← MemoryStream.octets_read]
      exact congrArg octets (Except.ok.inj hread)
    have hrest : r.stream.rest = [] := (List.take_eq_nil_iff.1 hnone).resolve_left (by decide)
    exact next_of_rest_nil hrunning hrest

/-- At the end nothing is given, however often a reader is asked. -/
theorem nexts_of_nothing (h : r.next.1 = .ok none) (n : Nat) :
    nexts n r = List.replicate n (.ok none) := by
  induction n with
  | zero => rfl
  | succ n ih => rw [nexts, next_of_nothing h, ih, List.replicate_succ]

/-- A reader ends cleanly, or with an error in the archive. -/
theorem lastAnswer_cases (r : BlobReader MemoryStream) :
    r.outcome.lastAnswer = .ok none ∨ ∃ e, r.outcome.lastAnswer = .error (.archive e) := by
  induction r using outcome_induction with
  | hend r hnext =>
    rw [outcome_of_end hnext]
    exact .inl rfl
  | herror r e hnext =>
    obtain ⟨cause, rfl⟩ := archive_of_next hnext
    rw [outcome_of_error hnext]
    exact .inr ⟨cause, rfl⟩
  | hblob r b hnext ih =>
    rw [outcome_of_blob hnext]
    exact ih

/-- A reader gives its blobs and what its outcome ends with, and then nothing more. -/
theorem nexts_eq_outcome_append (r : BlobReader MemoryStream) (n : Nat) :
    nexts (r.outcome.blobs.length + 1 + n) r =
      r.outcome.blobs.map (.ok ∘ some) ++
        r.outcome.lastAnswer :: List.replicate n (.ok none) := by
  induction r using outcome_induction with
  | hend r hnext =>
    rw [outcome_of_end hnext, List.length_nil, Nat.zero_add, nexts_of_nothing hnext, Nat.add_comm,
      List.replicate_succ]
    rfl
  | herror r e hnext =>
    obtain ⟨cause, rfl⟩ := archive_of_next hnext
    have hafter : r.next.2.next.1 = .ok none := by rw [next_of_isHalted (after_failure hnext).1]
    rw [outcome_of_error hnext, List.length_nil, Nat.zero_add, Nat.add_comm, nexts, hnext,
      nexts_of_nothing hafter]
    rfl
  | hblob r b hnext ih =>
    rw [outcome_of_blob hnext, Outcome.blobs_after, List.singleton_append, List.length_cons,
      Nat.add_right_comm, Nat.add_right_comm _ 1, nexts, hnext, Nat.add_right_comm, ih]
    rfl

end Memory

/-- A reader that was just made has its stream as it was. -/
theorem stream_of_isMadeOn {σ : Type} [ByteStream σ] {r : BlobReader σ} {s : σ}
    (h : r.IsMadeOn s) : r.stream = s := by
  rcases h with rfl | h
  · rfl
  · obtain ⟨_, -, rfl⟩ := ofSeekable_eq_ok h
    rfl

/-! ## How often a stream is read -/

section Recorded

variable {r : BlobReader (Recorder MemoryStream)}

/-- The reads that a reader has made, and those that the bytes still pay for. -/
def effort (r : BlobReader (Recorder MemoryStream)) : Nat :=
  r.stream.reads.length + 3 * (remaining r.stream / 4)

/-- A reader that was just made has made no reads, and has three to spend for every four bytes. -/
theorem effort_of_isMadeOn {bytes : ByteArray} {place : Nat}
    (h : r.IsMadeOn ⟨⟨bytes, place⟩, []⟩) : r.effort = 3 * ((bytes.size - place) / 4) := by
  rw [effort, stream_of_isMadeOn h]
  exact Nat.zero_add _

/-- Asking for a blob makes at most three reads. -/
theorem reads_next_le (r : BlobReader (Recorder MemoryStream)) :
    r.next.2.stream.reads.length ≤ r.stream.reads.length + 3 := by
  rcases Bool.eq_false_or_eq_true r.isHalted with hhalted | hrunning
  · rw [next_of_isHalted hhalted]
    exact Nat.le_add_right _ 3
  · obtain ⟨xs, hexchanges, hcourse, -⟩ :=
      Frame.exists_course MemoryStream.refusesAsSystem.recorder r.stream
    have hlength := hcourse.length_le
    rw [stream_next_of_running hrunning, Recorder.reads_of_exchanges hexchanges,
      List.length_append, List.length_map]
    omega

/-- A blob that is found has been paid for. -/
theorem effort_of_found {b : Blob} (h : r.next.1 = .ok (some b)) : r.next.2.effort ≤ r.effort := by
  have hreads := r.reads_next_le
  have htaken := remaining_of_found h
  rw [effort, effort]
  omega

end Recorded

end BlobReader

end MapArchive
