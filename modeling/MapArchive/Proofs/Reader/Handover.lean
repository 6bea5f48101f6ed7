import MapArchive.Proofs.Reader.FirstFailure

/-!
# Data on the way to its decoding

When blobs are decoded later, or elsewhere, reading a file hands over its blobs with data as they
are. It stops at the first header that asks for too much, or where framing breaks off; what is wrong
with the data is not known yet. Decoding what is handed over gives the deliveries.
-/

namespace MapArchive

namespace Blob

/-- What becomes of a blob before it is decoded: it is handed over if it has data, and a header may
amount to an error. -/
def handover? (supported : List String) (blob : Blob) : Option (Except ArchiveError Blob) :=
  if blob.kind = .data then some (.ok blob)
  else (blob.delivery? supported).map fun delivery => delivery.map fun _ => blob

variable {supported : List String} {blob : Blob}

/-- A blob with data is handed over. -/
theorem handover?_of_data (h : blob.kind = .data) : blob.handover? supported = some (.ok blob) :=
  if_pos h

/-- A blob that amounts to nothing is not handed over. -/
theorem handover?_of_nothing (h : blob.delivery? supported = none) :
    blob.handover? supported = none := by
  rw [handover?, if_neg (kind_ne_data_of_nothing h), h]
  rfl

/-- A header that is refused is handed over as its error. -/
theorem handover?_of_refused {e : ArchiveError} (hkind : blob.kind = .header)
    (h : blob.delivery? supported = some (.error e)) :
    blob.handover? supported = some (.error e) := by
  rw [handover?, if_neg (by rw [hkind]; decide), h]
  rfl

/-- A blob amounts to what it hands over, decoded. -/
theorem delivery?_eq_map_handover? (supported : List String) (blob : Blob) :
    blob.delivery? supported =
      (blob.handover? supported).map fun handover => handover.bind Blob.toBlock := by
  rcases ElementReader.disposition_cases supported blob with
    ⟨hdata, _⟩ | ⟨hnothing, _⟩ | ⟨e, hheader, hrefused, _⟩
  · rw [delivery?_of_data hdata, handover?_of_data hdata]
    rfl
  · rw [hnothing, handover?_of_nothing hnothing]
    rfl
  · rw [hrefused, handover?_of_refused hheader hrefused]
    rfl

end Blob

namespace ElementReader

variable {σ : Type} [FiniteStream σ] {r : ElementReader σ}

/-- The blobs with data of a file, and the errors that are found without decoding them, from first
to last. -/
def handovers (r : ElementReader σ) : List (Except ReadError Blob) :=
  r.blobs.outcome.amounting (Blob.handover? r.supported)

/-- What is delivered is what is handed over, decoded. -/
theorem deliveries_eq_map_handovers (r : ElementReader σ) :
    r.deliveries = r.handovers.map fun handover =>
      handover.bind fun blob => blob.toBlock.mapError .archive := by
  have hdelivery : Blob.delivery? r.supported = fun blob =>
      (blob.handover? r.supported).map fun handover => handover.bind Blob.toBlock :=
    funext (Blob.delivery?_eq_map_handover? r.supported)
  have hmap (handover : Except ArchiveError Blob) :
      (handover.bind Blob.toBlock).mapError ReadError.archive =
        (handover.mapError ReadError.archive).bind fun blob => blob.toBlock.mapError .archive := by
    cases handover with
    | error e => rfl
    | ok blob => rfl
  rw [deliveries, handovers, BlobReader.Outcome.amounting, BlobReader.Outcome.amounting, hdelivery,
    List.map_append, ← List.map_filterMap, List.map_map, List.map_map, List.map_map]
  congr 1
  exact List.map_congr_left fun handover _ => hmap handover

/-- All that looking for data can lead to: a blob that is handed over, or the end of what is. -/
inductive Hands (r : ElementReader σ) :
    Except ReadError (Option Blob) → ElementReader σ → Prop where
  /-- A blob is handed over. -/
  | blob {blob : Blob} {s : ElementReader σ} (h : r.handovers = .ok blob :: s.handovers) :
      Hands r (.ok (some blob)) s
  /-- Nothing is handed over any more, because of an error or at the end. -/
  | stop {failure : Option ReadError} {s : ElementReader σ}
      (hitems : itemsBeforeError r.handovers = []) (hfailure : firstError? r.handovers = failure) :
      Hands r (ending failure) s

/-- Looking for data takes what is handed over first. -/
theorem hands_nextData (r : ElementReader σ) : Hands r r.nextData.result r.nextData.reader := by
  have hsought := r.sought_nextData
  generalize r.nextData = report at hsought ⊢
  obtain ⟨answer, events, s⟩ := report
  dsimp only at hsought ⊢
  have hpass {passed : List Blob} (h : ∀ b ∈ passed, b.delivery? r.supported = none) :
      ∀ b ∈ passed, b.handover? r.supported = none :=
    fun b hb => Blob.handover?_of_nothing (h b hb)
  cases hsought with
  | found hpassed houtcome hdata =>
    refine .blob ?_
    rw [handovers, houtcome, BlobReader.Outcome.amounting_after (hpass hpassed)
      (Blob.handover?_of_data hdata)]
    rfl
  | @refused _ _ blobs e hpassed houtcome hheader hrefused =>
    have h : r.handovers = .error (.archive e) :: handovers { r with blobs } := by
      rw [handovers, houtcome, BlobReader.Outcome.amounting_after (hpass hpassed)
        (Blob.handover?_of_refused hheader hrefused)]
      rfl
    show Hands r (ending (some (.archive e))) _
    exact .stop (by rw [h]; rfl) (by rw [h]; rfl)
  | @failed _ _ e hpassed houtcome _ =>
    have h : r.handovers = [.error e] := by
      rw [handovers, houtcome, BlobReader.Outcome.amounting_of_nothing (hpass hpassed)]
      rfl
    show Hands r (ending (some e)) _
    exact .stop (by rw [h]; rfl) (by rw [h]; rfl)
  | ended hpassed houtcome _ =>
    have h : r.handovers = [] := by
      rw [handovers, houtcome, BlobReader.Outcome.amounting_of_nothing (hpass hpassed)]
      rfl
    show Hands r (ending none) _
    exact .stop (by rw [h]; rfl) (by rw [h]; rfl)

/-- The blocks before the first error are those of the blobs that are handed over, as far as these
can be decoded. -/
theorem itemsBeforeError_deliveries (r : ElementReader σ) : itemsBeforeError r.deliveries =
    itemsBeforeError ((itemsBeforeError r.handovers).map Blob.toBlock) := by
  rw [deliveries_eq_map_handovers, itemsBeforeError_bind,
    ← itemsBeforeError_mapError ReadError.archive, List.map_map]
  rfl

/-- Iterating stops at the first blob that cannot be decoded, or else where handing over stops. -/
theorem firstError?_deliveries (r : ElementReader σ) : firstError? r.deliveries =
    ((firstError? ((itemsBeforeError r.handovers).map Blob.toBlock)).map .archive).or
      (firstError? r.handovers) := by
  rw [deliveries_eq_map_handovers, firstError?_bind, ← firstError?_mapError, List.map_map]
  rfl

/-- An iteration over the elements raises the error of the first blob that cannot be decoded, or
else the one at which handing over stops. -/
theorem error_mem_nexts_iff_handovers {e : ReadError} :
    (∃ n, .error e ∈ ElementIteration.nexts n .start r) ↔
      ((firstError? ((itemsBeforeError r.handovers).map Blob.toBlock)).map .archive).or
        (firstError? r.handovers) = some e := by
  rw [error_mem_nexts_iff, firstError?_deliveries]

end ElementReader

end MapArchive
