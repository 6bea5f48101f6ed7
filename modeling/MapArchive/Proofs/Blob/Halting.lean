import MapArchive.Proofs.Blob.History
import MapArchive.Proofs.Stream.Recorder

/-!
# Halting

A reader halts when it finds an error in the archive, and only then. Once it has halted it never
reads from its stream again, wherever the stream is moved; as long as it has not, every request for
a blob reads, also after the end of the stream was reached.
-/

namespace MapArchive.BlobReader

section Step

variable {σ : Type} [ByteStream σ] {r : BlobReader σ}

/-- A step halts the reader exactly if it finds an error in the archive. -/
theorem isHalted_after_step (request : Request) (r : BlobReader σ) :
    (r.step request).after.isHalted = true ↔ r.isHalted = true ∨ (r.step request).Fails := by
  have h := effect_step request r
  unfold Step.Fails
  generalize (r.step request).answer = answer at h ⊢
  generalize (r.step request).after = after at h ⊢
  cases h with
  | failed => simp
  | halted | refused | ended | found | moved | strayed | kept => simp

/-- A reader has halted after some requests exactly if one of them found an error in the archive. -/
theorem isHalted_final (requests : List Request) :
    (final requests r).isHalted = true ↔
      r.isHalted = true ∨ ∃ x ∈ history requests r, x.Fails := by
  induction requests generalizing r with
  | nil => simp
  | cons request requests ih =>
    rw [final_cons, history_cons, ih, isHalted_after_step, or_assoc]
    simp only [List.mem_cons, exists_eq_or_imp]

/-- A reader has not halted as long as no error in the archive was found. -/
theorem isHalted_final_of_forall {requests : List Request} (h : r.isHalted = false)
    (hrequests : ∀ x ∈ history requests r, ¬x.Fails) : (final requests r).isHalted = false := by
  refine Bool.eq_false_iff.2 fun hhalted => ?_
  rcases (isHalted_final requests).1 hhalted with hstart | ⟨x, hx, hfails⟩
  · rw [h] at hstart
    cases hstart
  · exact hrequests x hx hfails

/-- Once halted, a reader stays so. -/
theorem isHalted_final_of_isHalted (h : r.isHalted = true) (requests : List Request) :
    (final requests r).isHalted = true :=
  (isHalted_final requests).2 (.inl h)

/-- Moving the stream does not halt the reader, nor does it end a halt. -/
theorem isHalted_final_of_moves {moves : List Request} (h : .next ∉ moves) :
    (final moves r).isHalted = r.isHalted := by
  induction moves generalizing r with
  | nil => rfl
  | cons request moves ih =>
    obtain ⟨hrequest, hmoves⟩ := not_or.1 (mt List.mem_cons.2 h)
    rw [final_cons, ih hmoves]
    have heffect := effect_step request r
    generalize (r.step request).answer = answer at heffect
    generalize (r.step request).after = after at heffect ⊢
    cases heffect with
    | halted | failed | refused | ended | found => exact absurd rfl hrequest
    | moved | strayed | kept => rfl

/-- A halted reader that does not know its offset finds it again only by moving the stream. -/
theorem offset_final_of_isHalted {requests : List Request} (h : r.isHalted = true)
    (hoffset : r.offset = none) (hrequests : ∀ x ∈ history requests r, ¬x.Locates) :
    (final requests r).offset = none := by
  induction requests generalizing r with
  | nil => exact hoffset
  | cons request requests ih =>
    obtain ⟨hstep, hrest⟩ := List.forall_mem_cons.1 hrequests
    have hhalted := (isHalted_after_step request r).2 (.inl h)
    refine ih hhalted ?_ hrest
    have heffect := effect_step request r
    unfold Step.Locates at hstep
    generalize (r.step request).answer = answer at heffect hstep
    generalize (r.step request).after = after at heffect
    cases heffect with
    | halted => exact hoffset
    | failed | strayed => rfl
    | refused | ended | kept => exact hoffset
    | found hrunning => rw [h] at hrunning; cases hrunning
    | @moved _ _ _ position => exact absurd ⟨position, rfl⟩ hstep

/-- An error in the archive halts the reader and makes it forget its offset. -/
theorem after_failure {e : ArchiveError} (h : r.next.1 = .error (.archive e)) :
    r.next.2.isHalted = true ∧ r.next.2.offset = none := by
  have heffect := r.effect_next
  rw [h] at heffect
  generalize r.next.2 = after at heffect ⊢
  cases heffect with
  | failed => exact ⟨rfl, rfl⟩

/-- At the end of the stream a reader does not halt. -/
theorem isHalted_of_end (h : r.isHalted = false) (hend : r.next.1 = .ok none) :
    r.next.2.isHalted = false := by
  have heffect := r.effect_next
  rw [hend] at heffect
  generalize r.next.2 = after at heffect ⊢
  cases heffect with
  | halted | ended => exact h

/-- The answer of a reader that has not halted is what its stream has to give. -/
theorem answer_of_running (h : r.isHalted = false) :
    r.next.1 = (Frame.read r.stream).1.map (Option.map (·.blob r.offset)) := by
  have heffect := r.effect_next
  generalize r.next.1 = answer at heffect ⊢
  generalize r.next.2 = after at heffect
  cases heffect with
  | halted hhalted => rw [h] at hhalted; cases hhalted
  | failed _ hread | refused _ hread | ended _ hread | found _ hread => rw [hread]; rfl

/-- A reader that has not halted gives nothing exactly if its stream gives no byte. -/
theorem next_eq_end_iff_of_running (h : r.isHalted = false) :
    r.next.1 = .ok none ↔ (ByteStream.read 4 r.stream).1 = .ok ByteArray.empty := by
  rw [answer_of_running h]
  constructor
  · intro hanswer
    have hnone : (Frame.read r.stream).1 = .ok none := by
      rcases hread : (Frame.read r.stream).1 with e | _ | frame
      · rw [hread] at hanswer
        cases hanswer
      · rfl
      · rw [hread] at hanswer
        cases hanswer
    rw [Frame.read_eq_end_iff.1 (Prod.ext hnone rfl)]
  · intro hread
    rw [Frame.read_eq_end_iff.2 (Prod.ext hread rfl)]
    rfl

end Step

section Recorded

variable {σ : Type} [ByteStream σ] {r : BlobReader (Recorder σ)}

/-- No request makes a halted reader read. -/
theorem reads_step_of_isHalted (h : r.isHalted = true) (request : Request) :
    (r.step request).after.stream.reads = r.stream.reads := by
  have hseek {offset whence : Int} {answer : Except StreamFault Nat} {t : Recorder σ}
      (hseek : ByteStream.seek offset whence r.stream = (answer, t)) :
      t.reads = r.stream.reads := by
    rw [← Recorder.reads_seek offset whence r.stream, hseek]
  have heffect := effect_step request r
  generalize (r.step request).answer = answer at heffect
  generalize (r.step request).after = after at heffect ⊢
  cases heffect with
  | halted => rfl
  | failed hrunning | refused hrunning | ended hrunning | found hrunning =>
    rw [h] at hrunning
    cases hrunning
  | moved _ hmoved | strayed _ hmoved | kept _ hmoved => exact hseek hmoved

/-- Once halted, a reader never reads again. -/
theorem reads_final_of_isHalted (h : r.isHalted = true) (requests : List Request) :
    (final requests r).stream.reads = r.stream.reads := by
  induction requests generalizing r with
  | nil => rfl
  | cons request requests ih =>
    rw [final_cons, ih ((isHalted_after_step request r).2 (.inl h)), reads_step_of_isHalted h]

/-- A reader that has not halted starts with reading four bytes. -/
theorem reads_next_of_running (h : r.isHalted = false) :
    ∃ more, r.next.2.stream.reads = r.stream.reads ++ 4 :: more := by
  obtain ⟨more, hreads⟩ := Recorder.reads_readFrame r.stream
  have heffect := r.effect_next
  generalize r.next.1 = answer at heffect
  generalize r.next.2 = after at heffect ⊢
  cases heffect with
  | halted hhalted => rw [h] at hhalted; cases hhalted
  | failed _ hread | refused _ hread | ended _ hread | found _ hread =>
    rw [hread] at hreads
    exact ⟨more, hreads⟩

/-- After an error in the archive a reader gives nothing and does not read, whatever it is asked
for, and it knows its offset again only once the stream has been moved. Before the first such error
every request for a blob reads from the stream and gives what the stream has to give; in
particular, a stream that has ended can be moved and read again. -/
theorem halts_exactly_for_good {s : Recorder σ} (hmade : r.IsMadeOn s) :
    (∀ (past later : List Request) (e : ArchiveError),
      (final past r).next.1 = .error (.archive e) →
        let failed := (final past r).next.2
        let now := final later failed
        now.next = (.ok none, now) ∧ now.stream.reads = failed.stream.reads ∧
          ((∀ x ∈ history later failed, ¬x.Locates) → now.offset = none)) ∧
    (∀ past : List Request, (∀ x ∈ history past r, ¬x.Fails) →
        let now := final past r
        now.isHalted = false ∧
          now.next.1 = (Frame.read now.stream).1.map (Option.map (·.blob now.offset)) ∧
          (now.next.1 = .ok none ↔ (ByteStream.read 4 now.stream).1 = .ok ByteArray.empty) ∧
          ∃ more, now.next.2.stream.reads = now.stream.reads ++ 4 :: more) ∧
    (∀ past moves : List Request, (∀ x ∈ history past r, ¬x.Fails) → .next ∉ moves →
      (final past r).next.1 = .ok none →
        let now := final moves (final past r).next.2
        now.isHalted = false ∧
          ∃ more, now.next.2.stream.reads = now.stream.reads ++ 4 :: more) := by
  have hrunning {past : List Request} (hpast : ∀ x ∈ history past r, ¬x.Fails) :
      (final past r).isHalted = false := by
    refine Bool.eq_false_iff.2 fun hhalted => ?_
    rcases (isHalted_final past).1 hhalted with h | ⟨x, hx, hfails⟩
    · rw [isHalted_of_isMadeOn hmade] at h
      cases h
    · exact hpast x hx hfails
  refine ⟨?_, ?_, ?_⟩
  · intro past later e herror failed now
    obtain ⟨hhalted, hoffset⟩ := after_failure herror
    have hlater := isHalted_final_of_isHalted hhalted later
    exact ⟨next_of_isHalted hlater, reads_final_of_isHalted hhalted later,
      offset_final_of_isHalted hhalted hoffset⟩
  · intro past hpast now
    have h := hrunning hpast
    exact ⟨h, answer_of_running h, next_eq_end_iff_of_running h, reads_next_of_running h⟩
  · intro past moves hpast hmoves hend now
    have h : now.isHalted = false := by
      rw [isHalted_final_of_moves hmoves]
      exact isHalted_of_end (hrunning hpast) hend
    exact ⟨h, reads_next_of_running h⟩

/-- A reader at the start of a single byte. -/
def ofOneByte : BlobReader (Recorder MemoryStream) := .ofStream ⟨.ofBytes ⟨#[0]⟩, []⟩

/-- A single byte is no length. The reader halts, and although the stream is moved back to the
start, it is not read again. -/
theorem halts_after_one_byte :
    let start : BlobReader (Recorder MemoryStream) := .ofStream ⟨.ofBytes ⟨#[0]⟩, []⟩
    let failed := start.next.2
    let now := final [.next, .seek 0] failed
    start.next.1 = .error (.archive .invalidHeaderSize) ∧ failed.stream.reads = [4] ∧
      now.offset = some 0 ∧ now.next = (.ok none, now) ∧ now.stream.reads = [4] := by
  have hmade : ofOneByte.IsMadeOn ⟨.ofBytes ⟨#[0]⟩, []⟩ := .inl rfl
  have herror : ofOneByte.next.1 = .error (.archive .invalidHeaderSize) := rfl
  have hreads : ofOneByte.next.2.stream.reads = [4] := rfl
  have hoffset : (final [.next, .seek 0] ofOneByte.next.2).offset = some 0 := rfl
  have hhalts := (halts_exactly_for_good hmade).1 [] [.next, .seek 0] .invalidHeaderSize
  simp only [final_nil] at hhalts
  obtain ⟨hnext, hstill, _⟩ := hhalts herror
  exact ⟨herror, hreads, hoffset, hnext, hstill.trans hreads⟩

end Recorded

end MapArchive.BlobReader
