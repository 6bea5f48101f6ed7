import MapArchive.Proofs.Blob.Exhaustion
import MapArchive.Proofs.Reader.Reduction

/-!
# Every loop over a finite stream ends

All that goes through a file goes on only as long as blobs are found, be they used or passed over in
silence. So each of the loops ends, and what it costs is bounded by what its reader has to spend: as
long as a loop goes on its reads have been paid for by the bytes they took, and when it stops there
were at most three more.
-/

namespace MapArchive

open FiniteStream (remaining)

namespace ElementReader

/-! ## How much is given -/

section Count

variable {σ : Type} [FiniteStream σ]

/-- There are four bytes for each block. -/
theorem Yields.four_mul_length_le {blocks : List BlockMessage} {failure : Option ReadError}
    {r : ElementReader σ} (h : r.Yields blocks failure) :
    4 * blocks.length ≤ remaining r.blobs.stream := by
  induction blocks generalizing r with
  | nil => exact Nat.zero_le _
  | cons block blocks ih =>
    obtain ⟨events, s, hblock, hrest⟩ := h
    have htaken := remaining_of_nextBlock hblock
    have hlater := ih hrest
    rw [List.length_cons]
    omega

/-- There are four bytes for each blob that is handed over. -/
theorem four_mul_length_handovers_le (r : ElementReader σ) :
    4 * (itemsBeforeError r.handovers).length ≤ remaining r.blobs.stream := by
  generalize hitems : itemsBeforeError r.handovers = items
  induction items generalizing r with
  | nil => exact Nat.zero_le _
  | cons blob items ih =>
    have hhands := r.hands_nextData
    generalize hnext : r.nextData = report at hhands
    obtain ⟨answer, events, s⟩ := report
    cases hhands with
    | stop hnone _ => rw [hnone] at hitems; cases hitems
    | blob hblob =>
      rw [hblob] at hitems
      have htaken := remaining_of_nextData hnext
      have hlater := ih s (List.cons.inj hitems).2
      rw [List.length_cons]
      omega

/-- There are four bytes for each task of a reduction. -/
theorem four_mul_length_tasks_le {α : Type} (m : Reduction α) (pool : Pool) (r : ElementReader σ) :
    4 * (reduceInParallel m pool r).blobs.length ≤ remaining r.blobs.stream := by
  have hhanded := r.four_mul_length_handovers_le
  rw [(reduces_reduceInParallel m pool r).blobs_eq, withinWindow, List.length_take]
  omega

/-- What holds of a reader if it holds after the next blob with data, and if there is none, holds of
every reader. -/
theorem nextData_induction {P : ElementReader σ → Prop}
    (hstop : ∀ (r : ElementReader σ) (failure : Option ReadError) (events : List LogEvent)
      (s : ElementReader σ), r.nextData = ⟨ending failure, events, s⟩ → P r)
    (hblob : ∀ (r : ElementReader σ) (blob : Blob) (events : List LogEvent) (s : ElementReader σ),
      r.nextData = ⟨.ok (some blob), events, s⟩ → P s → P r)
    (r : ElementReader σ) : P r := by
  rcases hnext : r.nextData with ⟨e | _ | blob, events, s⟩
  · exact hstop r (some e) events s hnext
  · exact hstop r none events s hnext
  · have htaken := remaining_of_nextData hnext
    exact hblob r blob events s hnext (nextData_induction hstop hblob s)
termination_by remaining r.blobs.stream

end Count

/-! ## What a search costs -/

/-- What led from one reader to another costs no more than it may: three reads may not have been
paid for, and none if it goes on. -/
structure Affords (goesOn : Prop) (r s : BlobReader (Recorder MemoryStream)) : Prop where
  /-- At most three reads have not been paid for. -/
  reads : s.stream.reads.length ≤ r.effort + 3
  /-- If it goes on, all have been paid for. -/
  effort : goesOn → s.effort ≤ r.effort

section Cost

variable {goesOn : Prop} {b s t : BlobReader (Recorder MemoryStream)}

/-- What has been paid for may be gone on from. -/
theorem affords_of_effort_le (h : s.effort ≤ b.effort) : Affords goesOn b s where
  reads := by
    rw [BlobReader.effort] at h
    omega
  effort _ := h

/-- The last question may not have been paid for. -/
theorem affords_last (hstops : ¬goesOn) (b : BlobReader (Recorder MemoryStream)) :
    Affords goesOn b b.next.2 where
  reads := by
    have hreads := b.reads_next_le
    rw [BlobReader.effort]
    omega
  effort hgoes := absurd hgoes hstops

/-- What comes after something that was paid for. -/
theorem Affords.after (h : Affords goesOn s t) (hpaid : s.effort ≤ b.effort) :
    Affords goesOn b t where
  reads := Nat.le_trans h.reads (Nat.add_le_add_right hpaid 3)
  effort hgoes := Nat.le_trans (h.effort hgoes) hpaid

/-- Nothing has to be paid for in order to stop. -/
theorem Affords.stop (h : Affords goesOn b s) : Affords False b s := ⟨h.reads, False.elim⟩

/-- Looking for data costs no more than it may, whatever is passed over. -/
theorem affords_nextDataAfter (blobs : BlobReader (Recorder MemoryStream))
    (supported : List String) (before : List LogEvent) :
    Affords (∃ blob, (nextDataAfter before ⟨blobs, supported⟩).result = .ok (some blob)) blobs
      (nextDataAfter before ⟨blobs, supported⟩).reader.blobs := by
  induction blobs using BlobReader.outcome_induction generalizing before with
  | hend blobs hnext =>
    rw [nextDataAfter_of_end (Prod.ext hnext rfl)]
    refine affords_last ?_ blobs
    rintro ⟨found, hfound⟩
    cases hfound
  | herror blobs e hnext =>
    rw [nextDataAfter_of_error (Prod.ext hnext rfl)]
    refine affords_last ?_ blobs
    rintro ⟨found, hfound⟩
    cases hfound
  | hblob blobs blob hnext ih =>
    have hpaid := BlobReader.effort_of_found hnext
    have hpair : blobs.next = (.ok (some blob), blobs.next.2) := Prod.ext hnext rfl
    rcases disposition_cases supported blob with
      ⟨-, huse⟩ | ⟨-, events, hpass⟩ | ⟨e, -, -, hrefuse⟩
    · rw [nextDataAfter_of_use (r := ⟨blobs, supported⟩) hpair huse]
      exact affords_of_effort_le hpaid
    · rw [nextDataAfter_of_passOver (r := ⟨blobs, supported⟩) hpair hpass]
      exact (ih (before ++ events)).after hpaid
    · rw [nextDataAfter_of_refuse (r := ⟨blobs, supported⟩) hpair hrefuse]
      exact affords_of_effort_le hpaid

variable {r : ElementReader (Recorder MemoryStream)}

/-- A blob with data that is found has been paid for. -/
theorem affords_nextData {report : Report (Recorder MemoryStream) (Option Blob)}
    (h : r.nextData = report) :
    Affords (∃ blob, report.result = .ok (some blob)) r.blobs report.reader.blobs := by
  rw [← h]
  exact affords_nextDataAfter r.blobs r.supported []

/-- A block that is read has been paid for. -/
theorem affords_nextBlock {report : Report (Recorder MemoryStream) (Option BlockMessage)}
    (h : r.nextBlock = report) :
    Affords (∃ block, report.result = .ok (some block)) r.blobs report.reader.blobs := by
  rw [← h, nextBlock]
  rcases hdata : r.nextData with ⟨e | _ | blob, events, s⟩
  · refine ⟨(affords_nextData hdata).reads, ?_⟩
    rintro ⟨block, ⟨⟩⟩
  · refine ⟨(affords_nextData hdata).reads, ?_⟩
    rintro ⟨block, ⟨⟩⟩
  · exact affords_of_effort_le ((affords_nextData hdata).effort ⟨blob, rfl⟩)

/-! ## What the loops cost -/

/-- Reading all blocks costs no more than it may. -/
theorem affords_restOfBlocksAfter {blocks : List BlockMessage} {failure : Option ReadError}
    (seen : Array (List LogEvent × BlockMessage)) (h : r.Yields blocks failure) :
    Affords False r.blobs (restOfBlocksAfter seen r).reader.blobs := by
  induction blocks generalizing seen r with
  | nil =>
    obtain ⟨events, s, hend⟩ := h
    rw [restOfBlocksAfter_of_ending hend]
    exact (affords_nextBlock hend).stop
  | cons block blocks ih =>
    obtain ⟨events, s, hblock, hrest⟩ := h
    have hpaid := (affords_nextBlock hblock).effort ⟨block, rfl⟩
    rw [restOfBlocksAfter_of_block hblock]
    exact (ih (seen.push (events, block)) hrest).after hpaid

/-- Concluding a reduction does not read. -/
theorem reader_conclude {α : Type} (m : Reduction α) (pool : Pool) (failure : Option ReadError)
    (events : List LogEvent) (p : Progress α) (r : ElementReader (Recorder MemoryStream)) :
    (conclude m pool failure events p r).reader = r := rfl

/-- A reduction costs no more than it may, whatever becomes of its tasks. -/
theorem affords_reduceFrom {α : Type} (m : Reduction α) (pool : Pool) (before : List LogEvent)
    (p : Progress α) (r : ElementReader (Recorder MemoryStream)) :
    Affords False r.blobs (reduceFrom m pool before p r).reader.blobs := by
  induction r using nextData_induction generalizing before p with
  | hstop r failure events s hnext =>
    rw [reduceFrom_of_ending hnext, reader_conclude]
    exact (affords_nextData hnext).stop
  | hblob r blob events s hnext ih =>
    have haffords := affords_nextData hnext
    rw [reduceFrom_of_blob hnext]
    split
    · rw [reader_conclude]
      exact haffords.stop
    · exact (ih _ _).after (haffords.effort ⟨blob, rfl⟩)

/-- The reader after an iteration has been asked so many times. What comes of a question is told by
`next`. -/
def readerAfter {σ ι α : Type} (next : ι → ElementReader σ → Report σ α × ι) :
    Nat → ι → ElementReader σ → ElementReader σ
  | 0, _, r => r
  | n + 1, it, r => readerAfter next n (next it r).2 (next it r).1.reader

section Iteration

variable {ι α : Type} {ended : ι} {next : ι → ElementReader (Recorder MemoryStream) →
  Report (Recorder MemoryStream) α × ι}

/-- An iteration that has ended leaves the reader alone. -/
theorem readerAfter_ended
    (hended : ∀ r, (next ended r).2 = ended ∧ (next ended r).1.reader = r) (n : Nat)
    (r : ElementReader (Recorder MemoryStream)) : readerAfter next n ended r = r := by
  induction n with
  | zero => rfl
  | succ n ih => rw [readerAfter, (hended r).1, (hended r).2, ih]

/-- If no question costs more than it may, an iteration does not, however often it is asked. -/
theorem affords_readerAfter
    (hended : ∀ r, (next ended r).2 = ended ∧ (next ended r).1.reader = r)
    (hnext : ∀ it r, Affords ((next it r).2 ≠ ended) r.blobs (next it r).1.reader.blobs)
    (n : Nat) (it : ι) (r : ElementReader (Recorder MemoryStream)) :
    Affords False r.blobs (readerAfter next n it r).blobs := by
  induction n generalizing it r with
  | zero => exact affords_of_effort_le (Nat.le_refl _)
  | succ n ih =>
    rw [readerAfter]
    by_cases hends : (next it r).2 = ended
    · rw [hends, readerAfter_ended hended]
      exact (hnext it r).stop
    · exact (ih _ _).after ((hnext it r).effort hends)

end Iteration

end Cost

end ElementReader

open ElementReader (Affords affords_of_effort_le affords_nextBlock ending)

namespace BlockIteration

/-- A question costs no more than it may. -/
theorem affords_next (it : BlockIteration) (r : ElementReader (Recorder MemoryStream)) :
    Affords ((it.next r).2 ≠ ended) r.blobs (it.next r).1.reader.blobs := by
  rw [next]
  split
  case isFalse => exact affords_of_effort_le (Nat.le_refl _)
  case isTrue =>
    have haffords := affords_nextBlock (r := r) rfl
    dsimp only
    split
    case h_1 block hblock => exact affords_of_effort_le (haffords.effort ⟨block, hblock⟩)
    case h_2 => exact ⟨haffords.reads, fun hgoes => absurd rfl hgoes⟩

end BlockIteration

namespace ElementIteration

/-- Looking for an element costs no more than it may, however many blocks have none. -/
theorem affords_nextFromBlocks {blocks : List BlockMessage} {failure : Option ReadError}
    {r : ElementReader (Recorder MemoryStream)} (before : List LogEvent)
    (h : r.Yields blocks failure) :
    Affords ((nextFromBlocks before r).2 ≠ ended) r.blobs
      (nextFromBlocks before r).1.reader.blobs := by
  induction blocks generalizing before r with
  | nil =>
    obtain ⟨events, s, hend⟩ := h
    rw [nextFromBlocks_of_ending hend]
    exact ⟨(affords_nextBlock hend).reads, fun hgoes => absurd rfl hgoes⟩
  | cons block blocks ih =>
    obtain ⟨events, s, hblock, hrest⟩ := h
    have hpaid := (affords_nextBlock hblock).effort ⟨block, rfl⟩
    rcases hfound : nextOfBlock ⟨.start, some (block, block.walk)⟩ with ⟨_ | element, it⟩
    · rw [nextFromBlocks_of_none hblock (congrArg Prod.fst hfound)]
      exact (ih (before ++ events) hrest).after hpaid
    · rw [nextFromBlocks_of_some hblock hfound]
      exact affords_of_effort_le hpaid

/-- A question costs no more than it may. -/
theorem affords_next (it : ElementIteration) (r : ElementReader (Recorder MemoryStream)) :
    Affords ((it.next r).2 ≠ ended) r.blobs (it.next r).1.reader.blobs := by
  rw [next]
  split
  case h_1 => exact affords_of_effort_le (Nat.le_refl _)
  case h_2 =>
    split
    case isTrue => exact affords_nextFromBlocks [] r.yields_deliveries
    case isFalse => exact affords_of_effort_le (Nat.le_refl _)

end ElementIteration

namespace ElementReader

/-- Reading a stream in memory ends, wherever it starts. Let a reader be made on a stream that
stands at a place in some bytes.
- If it is asked for blobs only, it gives at most one for every four bytes behind the place, then
  that there are no more, or an error in the archive, and then nothing, however often it is asked.
- Whatever has been asked of it, a blob that is found moves the stream on by four bytes, those of
  the header and those of the body, even if there are none of either, and not beyond the end.
- Iterations over blocks and elements, which pass over blobs without giving anything, give what
  there is in at most so many blocks and then end, and so does calling a function on every element.
  A reduction hands over at most so many tasks.
- None of these loops, however far it is followed, reads from the stream more than three times for
  each of the blobs that there may be, and three times more. -/
theorem reading_ends (bytes : ByteArray) (place : Nat) (supported : List String) :
    let most := (bytes.size - place) / 4
    (∀ blobs : BlobReader MemoryStream, blobs.IsMadeOn ⟨bytes, place⟩ →
      let r : ElementReader MemoryStream := ⟨blobs, supported⟩
      (∃ (found : List Blob) (last : Except ReadError (Option Blob)), found.length ≤ most ∧
        (last = .ok none ∨ ∃ e, last = .error (.archive e)) ∧
        ∀ n, BlobReader.nexts (found.length + 1 + n) blobs =
          found.map (.ok ∘ some) ++ last :: List.replicate n (.ok none)) ∧
      (∀ (past : List BlobReader.Request) (b : Blob),
        let now := BlobReader.final past blobs
        now.next.1 = .ok (some b) →
          now.next.2.stream.position =
            now.stream.position + (4 + Frame.headerSizeAt now.stream + b.size) ∧
          now.next.2.stream.position ≤ bytes.size) ∧
      (∃ (blocks : List BlockMessage) (failure : Option ReadError),
        let elements := blocks.flatMap BlockMessage.blockElements
        blocks.length ≤ most ∧
        (∀ n, BlockIteration.nexts (blocks.length + 1 + n) .start r =
          blocks.map (.ok ∘ some) ++ ending failure :: List.replicate n (.ok none)) ∧
        (∀ n, ElementIteration.nexts (elements.length + 1 + n) .start r =
          elements.map (.ok ∘ some) ++ ending failure :: List.replicate n (.ok none)) ∧
        r.forEach.1 = elements ∧ r.forEach.2.failure = failure) ∧
      ∀ (α : Type) (m : Reduction α) (pool : Pool),
        (reduceInParallel m pool r).blobs.length ≤ most) ∧
    ∀ blobs : BlobReader (Recorder MemoryStream), blobs.IsMadeOn ⟨⟨bytes, place⟩, []⟩ →
      let r : ElementReader (Recorder MemoryStream) := ⟨blobs, supported⟩
      let reads (s : ElementReader (Recorder MemoryStream)) := s.blobs.stream.reads.length
      (∀ n, reads (readerAfter BlockIteration.next n .start r) ≤ 3 * (most + 1)) ∧
      (∀ n, reads (readerAfter ElementIteration.next n .start r) ≤ 3 * (most + 1)) ∧
      reads r.forEach.2.reader ≤ 3 * (most + 1) ∧
      ∀ (α : Type) (m : Reduction α) (pool : Pool),
        reads (reduceInParallel m pool r).reader ≤ 3 * (most + 1) := by
  intro most
  refine ⟨fun blobs hmade => ?_, fun blobs hmade => ?_⟩
  · intro r
    have hremaining : remaining blobs.stream = bytes.size - place := by
      rw [BlobReader.stream_of_isMadeOn hmade]
      rfl
    have hyields := r.yields_deliveries
    obtain ⟨helements, hfailure⟩ := forEach_of_yields hyields
    refine ⟨⟨blobs.outcome.blobs, blobs.outcome.lastAnswer, ?_, blobs.lastAnswer_cases,
      blobs.nexts_eq_outcome_append⟩, fun past b => ?_, ⟨itemsBeforeError r.deliveries,
      firstError? r.deliveries, ?_, BlockIteration.nexts_of_yields hyields,
      ElementIteration.nexts_of_yields hyields, helements, hfailure⟩, fun α m pool => ?_⟩
    · have hcount := blobs.four_mul_length_blobs_le
      omega
    · intro now hfound
      have hover : now.IsOver bytes :=
        BlobReader.isOver_final past (BlobReader.isOver_of_isMadeOn hmade)
      obtain ⟨hposition, hend⟩ := BlobReader.advance_of_found hfound
      rw [hover.bytes] at hend
      exact ⟨hposition, hend⟩
    · have hcount : 4 * _ ≤ remaining blobs.stream := hyields.four_mul_length_le
      omega
    · have hcount : 4 * _ ≤ remaining blobs.stream := r.four_mul_length_tasks_le m pool
      omega
  · intro r reads
    have hmost {s : ElementReader (Recorder MemoryStream)}
        (h : Affords False blobs s.blobs) : reads s ≤ 3 * (most + 1) := by
      have hreads := h.reads
      rw [BlobReader.effort_of_isMadeOn hmade] at hreads
      exact Nat.le_trans hreads (Nat.le_of_eq (Nat.mul_succ 3 most).symm)
    have hblocks := affords_readerAfter (fun _ => ⟨rfl, rfl⟩) BlockIteration.affords_next
    have helements := affords_readerAfter (fun _ => ⟨rfl, rfl⟩) ElementIteration.affords_next
    exact ⟨fun n => hmost (hblocks n .start r), fun n => hmost (helements n .start r),
      hmost (affords_restOfBlocksAfter #[] r.yields_deliveries),
      fun α m pool => hmost (affords_reduceFrom m pool [] (.start m) r)⟩

/-- Ten bytes, all of them zero. -/
def tenZeros : ByteArray := ⟨#[0, 0, 0, 0, 0, 0, 0, 0, 0, 0]⟩

/-- Four zeros are a blob of no known type without header and body. Ten of them hold at most two,
and a function is called on every element with no more than nine reads. -/
theorem ten_zeros_are_exhausted :
    (BlobReader.ofBytes true tenZeros).next.1 = .ok (some ⟨"", none, 0, .empty, some 0⟩) ∧
      (BlobReader.ofBytes true tenZeros).next.2.stream.position ≤ tenZeros.size ∧
      (∃ (found : List Blob) (last : Except ReadError (Option Blob)), found.length ≤ 2 ∧
        BlobReader.nexts (found.length + 1 + 1) (BlobReader.ofBytes true tenZeros) =
          found.map (.ok ∘ some) ++ [last, .ok none]) ∧
      let recorded : ElementReader (Recorder MemoryStream) :=
        ⟨.ofStream ⟨.ofBytes tenZeros, []⟩, []⟩
      recorded.forEach.2.reader.blobs.stream.reads.length ≤ 9 := by
  have hfound : (BlobReader.ofBytes true tenZeros).next.1 =
      .ok (some ⟨"", none, 0, .empty, some 0⟩) := eq_ok_of_toOption (by decide +kernel)
  have hmost : (tenZeros.size - 0) / 4 = 2 := rfl
  obtain ⟨hplain, hrecorded⟩ := reading_ends tenZeros 0 []
  obtain ⟨⟨found, last, hcount, -, hnexts⟩, hadvance, -⟩ :=
    hplain (BlobReader.ofBytes true tenZeros) (.inr rfl)
  obtain ⟨-, hend⟩ := hadvance [] _ hfound
  obtain ⟨-, -, hreads, -⟩ := hrecorded (.ofStream ⟨.ofBytes tenZeros, []⟩) (.inl rfl)
  exact ⟨hfound, hend, ⟨found, last, hcount, hnexts 1⟩, hreads⟩

end ElementReader

end MapArchive
