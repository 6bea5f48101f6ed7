import MapArchive.Reader.Data

/-!
# What the next blob leads to

What a search for data does is told by the next blob and its disposition: a blob with data ends the
search, and after a blob that is passed over the search goes on as if there had been none.
-/

namespace MapArchive

/-- No feature is missing if and only if every required one is supported. -/
theorem HeaderBlock.unsupportedFeatures_eq_nil_iff {header : HeaderBlock}
    {supported : List String} : header.unsupportedFeatures supported = [] ↔
      ∀ feature ∈ header.requiredFeatures, feature ∈ supported := by
  have hperm := List.mergeSort_perm
    (header.requiredFeatures.filter fun feature => !supported.contains feature)
    fun a b => decide (a ≤ b)
  have hnil : header.unsupportedFeatures supported = [] ↔
      (header.requiredFeatures.filter fun feature => !supported.contains feature) = [] := by
    rw [unsupportedFeatures, ← List.length_eq_zero_iff, hperm.length_eq, List.length_eq_zero_iff]
  rw [hnil, List.filter_eq_nil_iff]
  simp only [Bool.not_eq_true, Bool.not_eq_false', List.contains_iff_mem]

namespace ElementReader

variable {σ : Type} {supported : List String} {blob : Blob}

/-- A blob with data is used. -/
theorem disposition_of_data (h : blob.kind = .data) : disposition supported blob = .use := by
  rw [disposition, h]

/-- A header is passed over when it asks for nothing that is not supported. -/
theorem disposition_of_header {header : HeaderBlock} (h : blob.kind = .header)
    (hheader : blob.toHeader = .ok header)
    (hsupported : ∀ feature ∈ header.requiredFeatures, feature ∈ supported) :
    disposition supported blob = .passOver [] := by
  have hcheck : checkHeader supported blob = .ok () := by
    have hnone := HeaderBlock.unsupportedFeatures_eq_nil_iff.2 hsupported
    rw [checkHeader, hheader]
    exact if_neg (not_not_intro hnone)
  rw [disposition, h]
  dsimp only
  rw [hcheck]

variable [FiniteStream σ] {r : ElementReader σ} {before : List LogEvent} {blobs : BlobReader σ}

/-- At the end of the blobs there are no data. -/
theorem nextDataAfter_of_end (h : r.blobs.next = (.ok none, blobs)) :
    nextDataAfter before r = ⟨.ok none, before, { r with blobs }⟩ := by
  rw [nextDataAfter]
  split
  case h_1 hnext => rw [h] at hnext; cases hnext
  case h_2 hnext => rw [h] at hnext; cases hnext; rfl
  case h_3 hnext => rw [h] at hnext; cases hnext

/-- An error among the blobs is passed on, with what was noted before it. -/
theorem nextDataAfter_of_error {e : ReadError} (h : r.blobs.next = (.error e, blobs)) :
    nextDataAfter before r =
      ⟨.error e, before ++ r.blobs.eventsOfNext (.error e), { r with blobs }⟩ := by
  rw [nextDataAfter]
  split
  case h_1 hnext => rw [h] at hnext; cases hnext; rfl
  case h_2 hnext => rw [h] at hnext; cases hnext
  case h_3 hnext => rw [h] at hnext; cases hnext

/-- A header that asks for too much ends the search. -/
theorem nextDataAfter_of_refuse {e : ArchiveError} (h : r.blobs.next = (.ok (some blob), blobs))
    (hrefuse : disposition r.supported blob = .refuse e) :
    nextDataAfter before r = ⟨.error (.archive e), before, { r with blobs }⟩ := by
  rw [nextDataAfter]
  split
  case h_1 hnext => rw [h] at hnext; cases hnext
  case h_2 hnext => rw [h] at hnext; cases hnext
  case h_3 hnext =>
    rw [h] at hnext
    cases hnext
    split
    case h_1 hother => rw [hrefuse] at hother; cases hother
    case h_2 hother => rw [hrefuse] at hother; cases hother; rfl
    case h_3 hother => rw [hrefuse] at hother; cases hother

/-- A blob with data is what is sought. -/
theorem nextDataAfter_of_use (h : r.blobs.next = (.ok (some blob), blobs))
    (huse : disposition r.supported blob = .use) :
    nextDataAfter before r = ⟨.ok (some blob), before, { r with blobs }⟩ := by
  rw [nextDataAfter]
  split
  case h_1 hnext => rw [h] at hnext; cases hnext
  case h_2 hnext => rw [h] at hnext; cases hnext
  case h_3 hnext =>
    rw [h] at hnext
    cases hnext
    split
    case h_1 => rfl
    case h_2 hother => rw [huse] at hother; cases hother
    case h_3 hother => rw [huse] at hother; cases hother

/-- After a blob that is passed over the search goes on. -/
theorem nextDataAfter_of_passOver {more : List LogEvent}
    (h : r.blobs.next = (.ok (some blob), blobs))
    (hpass : disposition r.supported blob = .passOver more) :
    nextDataAfter before r = nextDataAfter (before ++ more) { r with blobs } := by
  rw [nextDataAfter]
  split
  case h_1 hnext => rw [h] at hnext; cases hnext
  case h_2 hnext => rw [h] at hnext; cases hnext
  case h_3 hnext =>
    rw [h] at hnext
    cases hnext
    split
    case h_1 hother => rw [hpass] at hother; cases hother
    case h_2 hother => rw [hpass] at hother; cases hother
    case h_3 hother => rw [hpass] at hother; cases hother; rfl

/-- At the end there is no next block. -/
theorem nextBlock_of_end (h : r.blobs.next = (.ok none, blobs)) :
    r.nextBlock = ⟨.ok none, [], { r with blobs }⟩ := by
  rw [nextBlock, nextData, nextDataAfter_of_end h]

/-- The block in the next blob is the next block. -/
theorem nextBlock_of_use {block : BlockMessage} (h : r.blobs.next = (.ok (some blob), blobs))
    (huse : disposition r.supported blob = .use) (hblock : blob.toBlock = .ok block) :
    r.nextBlock = ⟨.ok (some block), [], { r with blobs }⟩ := by
  rw [nextBlock, nextData, nextDataAfter_of_use h huse]
  dsimp only
  rw [hblock]
  rfl

/-- After a blob that is passed over in silence, the next block is sought in the blobs after it. -/
theorem nextBlock_of_passOver (h : r.blobs.next = (.ok (some blob), blobs))
    (hpass : disposition r.supported blob = .passOver []) :
    r.nextBlock = nextBlock { r with blobs } := by
  have hdata : r.nextData = nextData { r with blobs } := nextDataAfter_of_passOver h hpass
  rw [nextBlock, hdata]
  rfl

end ElementReader

end MapArchive
