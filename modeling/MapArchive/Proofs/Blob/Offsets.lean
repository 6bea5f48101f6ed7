import MapArchive.Proofs.Blob.Alike
import MapArchive.Proofs.Blob.History
import MapArchive.Proofs.Stream.Positioned

/-!
# Offsets

The offset of a reader is kept by adding up lengths, while the stream has a position of its own.
The two never disagree: whatever is asked of the reader, its offset is unknown or the position of
its stream. It is unknown only with a reason, and a blob that is found lies where its offset says.
-/

namespace MapArchive.BlobReader

open PositionedStream (position)

variable {σ : Type} [ByteStream σ] {r : BlobReader σ}

/-- If a reader does not know its offset, it has just lost it or not known it before. -/
theorem unknown_after_step {request : Request} (h : (r.step request).after.offset = none) :
    (r.step request).Loses ∨ r.offset = none ∧ ¬(r.step request).Locates := by
  have heffect := effect_step request r
  unfold Step.Loses Step.Fails Step.Strays Step.Locates
  generalize (r.step request).answer = answer at heffect ⊢
  generalize (r.step request).after = after at heffect h
  cases heffect with
  | halted | refused | ended | kept => exact .inr ⟨h, by simp⟩
  | @failed e => exact .inl (.inl ⟨e, rfl⟩)
  | found => exact .inr ⟨Option.map_eq_none_iff.1 h, by simp⟩
  | moved => cases h
  | @strayed _ _ _ fault _ _ _ hfault => exact .inl (.inr ⟨fault, hfault, rfl⟩)

/-- If a reader does not know its offset, it has never known it, or it has lost it since it last
knew it. -/
theorem unknown_final {requests : List Request} (h : (final requests r).offset = none) :
    (r.offset = none ∧ ∀ x ∈ history requests r, ¬x.Locates) ∨
      ∃ before request later, requests = before ++ request :: later ∧
        ((final before r).step request).Loses ∧
        ∀ x ∈ history later ((final before r).step request).after, ¬x.Locates := by
  induction requests generalizing r with
  | nil => exact .inl ⟨h, List.forall_mem_nil _⟩
  | cons request requests ih =>
    rcases ih h with ⟨hunknown, hrest⟩ | ⟨before, other, later, rfl, hloses, hlater⟩
    · rcases unknown_after_step hunknown with hloses | ⟨hoffset, hlocates⟩
      · exact .inr ⟨[], request, requests, rfl, hloses, hrest⟩
      · exact .inl ⟨hoffset, List.forall_mem_cons.2 ⟨hlocates, hrest⟩⟩
    · exact .inr ⟨request :: before, other, later, rfl, hloses, hlater⟩

/-- Readers on one stream, of which only one knows offsets, give the same apart from offsets. -/
theorem nexts_ofStream {s : σ} (h : ofSeekable s = .ok r) (n : Nat) :
    nexts n (ofStream s) = (nexts n r).map Relocation.forget.answer := by
  obtain ⟨p, _, rfl⟩ := ofSeekable_eq_ok h
  have hR : ReadsAlike (fun a b : σ => a = b) := by
    rintro n s t rfl
    exact ⟨rfl, rfl⟩
  have hrelated : Related (fun a b : σ => a = b) Relocation.forget (ofStream s)
      ⟨s, some p, false, false⟩ := ⟨rfl, rfl, rfl⟩
  exact nexts_of_related hR hrelated n

variable [PositionedStream σ]

/-- The offset is where the stream stands, if it is known. -/
def Truthful (r : BlobReader σ) : Prop := ∀ p, r.offset = some p → p = position r.stream

/-- A reader that was just made is truthful. -/
theorem truthful_of_isMadeOn {s : σ} (h : r.IsMadeOn s) : r.Truthful := by
  intro p hp
  rcases h with rfl | h
  · cases hp
  · obtain ⟨q, htell, rfl⟩ := ofSeekable_eq_ok h
    cases hp
    exact PositionedStream.position_of_tell htell

/-- No step makes a truthful reader lie. -/
theorem truthful_after_step (request : Request) (r : BlobReader σ) (h : r.Truthful) :
    (r.step request).after.Truthful := by
  have heffect := effect_step request r
  generalize (r.step request).answer = answer at heffect
  generalize (r.step request).after = after at heffect ⊢
  intro p hp
  cases heffect with
  | halted => exact h p hp
  | failed | strayed => cases hp
  | refused _ hread => rw [Frame.position_of_refused_frame hread, h p hp]
  | ended _ hread => rw [Frame.position_of_read_end hread, h p hp]
  | found _ hread =>
    obtain ⟨q, hq, rfl⟩ := Option.map_eq_some_iff.1 hp
    rw [Frame.position_of_read_frame hread, h q hq]
  | moved _ hseek =>
    cases hp
    exact (PositionedStream.position_of_seek hseek).symm
  | kept _ hseek hfault =>
    rw [PositionedStream.position_of_refused_seek hseek hfault, h p hp]

/-- Whatever is asked of a truthful reader, it stays truthful. -/
theorem truthful_final (requests : List Request) (h : r.Truthful) :
    (final requests r).Truthful :=
  final_induction truthful_after_step requests h

/-- The length in the stream of a blob that a reader is about to give. -/
def extent (r : BlobReader σ) (b : Blob) : Nat := 4 + Frame.headerSizeAt r.stream + b.size

/-- A blob that is found starts with its length at its offset, and the reader goes on at its end. -/
theorem found_at {b : Blob} (h : r.next.1 = .ok (some b)) :
    b.offset = r.offset ∧
      (∃ bytes, (ByteStream.read 4 r.stream).1 = .ok bytes ∧ bytes.size = 4) ∧
      r.next.2.offset = b.offset.map (· + r.extent b) ∧
      position r.next.2.stream = position r.stream + r.extent b := by
  have heffect := r.effect_next
  rw [h] at heffect
  generalize r.next.2 = after at heffect ⊢
  cases heffect with
  | @found frame t _ hread =>
    obtain ⟨bytes, hbytes, hsize, hheader⟩ := Frame.headerSize_of_read hread
    have hextent : r.extent (frame.blob r.offset) = frame.size := by
      rw [extent, ← hheader]
      rfl
    refine ⟨rfl, ⟨bytes, hbytes, hsize⟩, ?_, ?_⟩
    · rw [hextent]
      rfl
    · rw [hextent]
      exact Frame.position_of_read_frame hread

/-- The blobs that are found in some steps lie one right after the other from a position on. -/
def Tile (start : Nat) : List (Step σ) → Prop
  | [] => True
  | x :: steps =>
    match x.answer with
    | .blob (.ok (some b)) =>
      position x.before.stream = start ∧ Tile (start + x.before.extent b) steps
    | _ => Tile start steps

/-- A halted reader finds nothing. -/
theorem tile_of_isHalted {requests : List Request} (hnext : ∀ q ∈ requests, q = .next)
    (h : r.isHalted = true) (start : Nat) : Tile start (history requests r) := by
  induction requests with
  | nil => trivial
  | cons request requests ih =>
    obtain ⟨rfl, hrest⟩ := List.forall_mem_cons.1 hnext
    show Tile start (⟨r, .next, .blob r.next.1, r.next.2⟩ :: history requests r.next.2)
    rw [next_of_isHalted h]
    exact ih hrest

/-- Blobs that are found without moving the stream in between lie one right after the other. -/
theorem tile_history {requests : List Request} (hnext : ∀ q ∈ requests, q = .next) :
    Tile (position r.stream) (history requests r) := by
  induction requests generalizing r with
  | nil => trivial
  | cons request requests ih =>
    obtain ⟨rfl, hrest⟩ := List.forall_mem_cons.1 hnext
    show Tile _ (⟨r, .next, .blob r.next.1, r.next.2⟩ :: history requests r.next.2)
    have hfound {b : Blob} (h : r.next.1 = .ok (some b)) := (found_at h).2.2.2
    have heffect := r.effect_next
    generalize r.next.1 = answer at heffect hfound ⊢
    generalize r.next.2 = after at heffect hfound ⊢
    have htiles := ih (r := after) hrest
    cases heffect with
    | halted h => exact tile_of_isHalted hrest h _
    | failed => exact tile_of_isHalted hrest rfl _
    | refused _ hread =>
      rw [Frame.position_of_refused_frame hread] at htiles
      exact htiles
    | ended _ hread =>
      rw [Frame.position_of_read_end hread] at htiles
      exact htiles
    | found =>
      rw [hfound rfl] at htiles
      exact ⟨rfl, htiles⟩

/-- The offset of a reader is never wrong, and it is unknown only if it was never told or if it was
lost since: to an error in the archive, or to the system refusing to move the stream. A blob that is
found has the offset of the reader, which then is that of its end; blobs that are found one after
the other tile the stream; and whether the reader knows offsets makes no other difference. -/
theorem offsets_are_true {s : σ} (hmade : r.IsMadeOn s) :
    (∀ past, (final past r).Truthful) ∧
    (∀ past, (final past r).offset = none →
      (r = ofStream s ∧ ∀ x ∈ history past r, ¬x.Locates) ∨
        ∃ before request later, past = before ++ request :: later ∧
          ((final before r).step request).Loses ∧
          ∀ x ∈ history later ((final before r).step request).after, ¬x.Locates) ∧
    (∀ (past : List Request) (b : Blob), (final past r).next.1 = .ok (some b) →
      let now := final past r
      (b.offset = now.offset ∧ ∀ p, b.offset = some p → p = position now.stream) ∧
        (∃ bytes, (ByteStream.read 4 now.stream).1 = .ok bytes ∧ bytes.size = 4) ∧
        now.next.2.offset = b.offset.map (· + now.extent b) ∧
        position now.next.2.stream = position now.stream + now.extent b) ∧
    (∀ past requests : List Request, (∀ q ∈ requests, q = .next) →
      Tile (position (final past r).stream) (history requests (final past r))) ∧
    (∀ tracked, ofSeekable s = .ok tracked →
      ∀ n, nexts n (ofStream s) = (nexts n tracked).map Relocation.forget.answer) := by
  have htruthful (past : List Request) : (final past r).Truthful :=
    truthful_final past (truthful_of_isMadeOn hmade)
  refine ⟨htruthful, ?_, ?_, fun past requests => tile_history, fun tracked => nexts_ofStream⟩
  · intro past hunknown
    rcases unknown_final hunknown with ⟨hoffset, hpast⟩ | hlost
    · refine .inl ⟨?_, hpast⟩
      rcases hmade with h | h
      · exact h
      · obtain ⟨p, _, rfl⟩ := ofSeekable_eq_ok h
        cases hoffset
    · exact .inr hlost
  · intro past b hfound now
    obtain ⟨hoffset, hbytes, hafter, hposition⟩ := found_at hfound
    refine ⟨⟨hoffset, ?_⟩, hbytes, hafter, hposition⟩
    rw [hoffset]
    exact htruthful past

/-- Two blobs without content, one after the other. -/
def twoBlobs : MemoryStream :=
  .ofBytes ⟨#[0, 0, 0, 5, 10, 1, 120, 24, 0, 0, 0, 0, 5, 10, 1, 120, 24, 0]⟩

/-- The second of two blobs starts where the first one ends, and the reader goes on where the second
one ends. -/
theorem offset_of_second_blob :
    let now : BlobReader MemoryStream := final [.next] ⟨twoBlobs, some 0, false, false⟩
    let b : Blob := ⟨"x", none, 0, .empty, some 9⟩
    now.next.1 = .ok (some b) ∧ 9 = position now.stream ∧
      now.next.2.offset = (some 9).map (· + now.extent b) ∧ now.extent b = 9 := by
  have hmade : IsMadeOn ⟨twoBlobs, some 0, false, false⟩ twoBlobs := .inr rfl
  have hfound : (final [.next] ⟨twoBlobs, some 0, false, false⟩).next.1 =
      .ok (some ⟨"x", none, 0, .empty, some 9⟩) := eq_ok_of_toOption (by decide +kernel)
  obtain ⟨⟨_, hposition⟩, _, hafter, _⟩ := (offsets_are_true hmade).2.2.1 [.next] _ hfound
  exact ⟨hfound, hposition 9 rfl, hafter, by decide +kernel⟩

end MapArchive.BlobReader
