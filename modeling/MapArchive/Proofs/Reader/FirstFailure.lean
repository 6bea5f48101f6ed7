import MapArchive.Proofs.Blob.Continuation
import MapArchive.Proofs.Blob.Truncation
import MapArchive.Proofs.Reader.FirstError
import MapArchive.Proofs.Reader.Iteration
import MapArchive.Proofs.Reader.Records
import MapArchive.Proofs.Reader.WholeFile

/-!
# Stopping at the first failure

However the elements of a file are gone through, what is given are the deliveries before the first
error among them, and then that error: block by block, element by element, or by a function that is
called on every element. Blobs of unknown types make no difference wherever they stand.
-/

namespace MapArchive

namespace ElementReader

section Deliveries

variable {σ : Type} [FiniteStream σ] {r : ElementReader σ}

/-- A reader gives the deliveries before the first error, and ends with that error. -/
theorem yields_deliveries (r : ElementReader σ) :
    r.Yields (itemsBeforeError r.deliveries) (firstError? r.deliveries) := by
  generalize hdeliveries : r.deliveries = deliveries
  induction deliveries generalizing r with
  | nil =>
    have hdelivers := r.delivers_nextBlock
    generalize hnext : r.nextBlock = report at hdelivers
    obtain ⟨answer, events, s⟩ := report
    cases hdelivers with
    | block h | refused h | failed h => rw [hdeliveries] at h; cases h
    | ended => exact ⟨events, _, hnext⟩
  | cons delivery deliveries ih =>
    have hdelivers := r.delivers_nextBlock
    generalize hnext : r.nextBlock = report at hdelivers
    obtain ⟨answer, events, s⟩ := report
    cases hdelivers with
    | block h =>
      rw [hdeliveries] at h
      obtain ⟨rfl, hrest⟩ := List.cons.inj h
      exact ⟨events, s, hnext, ih s hrest.symm⟩
    | refused h | failed h =>
      rw [hdeliveries] at h
      obtain ⟨rfl, _⟩ := List.cons.inj h
      exact ⟨events, _, hnext⟩
    | ended h => rw [hdeliveries] at h; cases h

/-- Two readers give the same, however their elements are gone through. -/
structure GivesAlike {σ τ : Type} [FiniteStream σ] [FiniteStream τ] (r : ElementReader σ)
    (s : ElementReader τ) : Prop where
  /-- Iterations over the blocks do not differ. -/
  blocks : ∀ n, BlockIteration.nexts n .start r = BlockIteration.nexts n .start s
  /-- Iterations over the elements do not differ. -/
  elements : ∀ n, ElementIteration.nexts n .start r = ElementIteration.nexts n .start s
  /-- A function is called on the same elements. -/
  calls : r.forEach.1 = s.forEach.1
  /-- Calling a function on every element ends in the same way. -/
  failure : r.forEach.2.failure = s.forEach.2.failure

/-- Deliveries decide all that is given. -/
theorem givesAlike_of_deliveries {τ : Type} [FiniteStream τ] {s : ElementReader τ}
    (h : r.deliveries = s.deliveries) : GivesAlike r s := by
  have hr := r.yields_deliveries
  have hs := s.yields_deliveries
  rw [← h] at hs
  obtain ⟨hrElements, hrFailure⟩ := forEach_of_yields hr
  obtain ⟨hsElements, hsFailure⟩ := forEach_of_yields hs
  exact ⟨BlockIteration.nexts_congr hr hs, ElementIteration.nexts_congr hr hs,
    hrElements.trans hsElements.symm, hrFailure.trans hsFailure.symm⟩

/-- An iteration over the elements raises the first error among the deliveries, and no other. -/
theorem error_mem_nexts_iff {e : ReadError} :
    (∃ n, .error e ∈ ElementIteration.nexts n .start r) ↔ firstError? r.deliveries = some e := by
  have hnexts := ElementIteration.nexts_of_yields r.yields_deliveries
  constructor
  · rintro ⟨n, hmem⟩
    rw [← ElementIteration.take_nexts] at hmem
    have hmore := List.mem_of_mem_take hmem
    rw [hnexts n, List.mem_append, List.mem_cons, List.mem_map] at hmore
    rcases hmore with ⟨element, _, helement⟩ | hending | hreplicate
    · cases helement
    · cases hfailure : firstError? r.deliveries with
      | none => rw [hfailure] at hending; cases hending
      | some failure => rw [hfailure] at hending; cases hending; rfl
    · cases List.eq_of_mem_replicate hreplicate
  · intro hfailure
    have hend := hnexts 0
    rw [hfailure] at hend
    exact ⟨_, hend ▸ List.mem_append_right _ List.mem_cons_self⟩

end Deliveries

section Known

variable {σ τ : Type} [FiniteStream σ] [FiniteStream τ] {r : ElementReader σ} {s : ElementReader τ}

/-- The blobs of known types, wherever they stand. -/
def knownBlobs (r : ElementReader σ) : List Blob :=
  (r.blobs.outcome.blobs.filter fun blob => blob.kind ≠ .unknown).map ({ · with offset := none })

/-- Only blobs of known types amount to something, and it does not matter where they stand. -/
theorem filterMap_knownBlobs (r : ElementReader σ) (supported : List String) :
    r.knownBlobs.filterMap (Blob.delivery? supported) =
      r.blobs.outcome.blobs.filterMap (Blob.delivery? supported) := by
  rw [knownBlobs, List.filterMap_map, List.filterMap_filter]
  refine congrArg (List.filterMap · _) (funext fun blob => ?_)
  split
  case isTrue => rfl
  case isFalse hunknown =>
    rw [decide_eq_true_eq, ne_eq, Decidable.not_not] at hunknown
    exact (Blob.delivery?_of_unknown hunknown).symm

/-- Readers with the same blobs of known types deliver the same. -/
theorem deliveries_congr (hsupported : r.supported = s.supported)
    (hblobs : r.knownBlobs = s.knownBlobs)
    (hfailure : r.blobs.outcome.failure = s.blobs.outcome.failure) :
    r.deliveries = s.deliveries := by
  rw [deliveries, deliveries, BlobReader.Outcome.amounting, BlobReader.Outcome.amounting,
    ← filterMap_knownBlobs, ← filterMap_knownBlobs, hsupported, hblobs, hfailure]

end Known

section Features

variable {supported : List String} {blob other : Blob} {header otherHeader : HeaderBlock}

/-- A header that asks for more than there is amounts to an error with all that is missing. -/
theorem delivery?_of_missing (h : blob.kind = .header) (hheader : blob.toHeader = .ok header)
    (hmissing : ¬∀ feature ∈ header.requiredFeatures, feature ∈ supported) :
    blob.delivery? supported =
      some (.error (.unsupportedFeatures (header.unsupportedFeatures supported))) := by
  have hsome := mt HeaderBlock.unsupportedFeatures_eq_nil_iff.1 hmissing
  rw [Blob.delivery?, h]
  dsimp only
  rw [hheader]
  dsimp only
  split
  case h_1 hnil => exact absurd hnil hsome
  case h_2 => rfl

/-- The order in which headers ask for features does not matter. -/
theorem delivery?_congr (h : blob.kind = .header) (hother : other.kind = .header)
    (hheader : blob.toHeader = .ok header) (hotherHeader : other.toHeader = .ok otherHeader)
    (hperm : header.requiredFeatures.Perm otherHeader.requiredFeatures) :
    blob.delivery? supported = other.delivery? supported := by
  rw [Blob.delivery?, Blob.delivery?, h, hother]
  dsimp only
  rw [hheader, hotherHeader]
  dsimp only
  rw [HeaderBlock.unsupportedFeatures_congr supported hperm]

end Features

/-- What bytes deliver is told by the outcome of reading their blobs. -/
theorem deliveries_ofBytes (knowsOffset : Bool) (supported : List String) (bytes : ByteArray) :
    (ofBytes knowsOffset supported bytes).deliveries =
      (BlobReader.ofBytes knowsOffset bytes).outcome.amounting (Blob.delivery? supported) := rfl

section Insertion

variable {knowsOffset : Bool} {front inserted back : ByteArray} {supported : List String}

/-- What whole records amount to does not depend on what follows, nor does what follows depend on
them. -/
theorem deliveries_append (hfront : (BlobReader.ofBytes knowsOffset front).outcome.failure = none) :
    (ofBytes knowsOffset supported (front ++ back)).deliveries =
      (ofBytes knowsOffset supported front).deliveries ++
        (ofBytes knowsOffset supported back).deliveries := by
  obtain ⟨last, hlast, hfailure, hextend⟩ :=
    BlobReader.exists_last (BlobReader.standsIn_ofBytes knowsOffset front)
  have hend : last.next.1 = .ok none := by
    rw [BlobReader.next_of_blobs_eq_nil (congrArg BlobReader.Outcome.blobs hfailure), hfailure]
    exact congrArg (BlobReader.Outcome.lastAnswer ⟨[], ·⟩) hfront
  have hboth : (BlobReader.ofBytes knowsOffset (front ++ back)).outcome = _ :=
    (hextend back).trans (congrArg (BlobReader.Outcome.after _)
      (BlobReader.outcome_extend_of_end hlast hend))
  have hrelocate (blobs : List Blob) (f : Relocation) :
      (blobs.map f.blob).filterMap (Blob.delivery? supported) =
        blobs.filterMap (Blob.delivery? supported) := by
    rw [List.filterMap_map]
    rfl
  simp only [deliveries_ofBytes, BlobReader.Outcome.amounting, hboth, hfront,
    BlobReader.Outcome.blobs_after, BlobReader.Outcome.failure_after, BlobReader.Outcome.relocate,
    List.filterMap_append, hrelocate, List.map_append, Option.toList_none, List.map_nil,
    List.append_nil, List.append_assoc]

/-- Whole records of unknown types amount to nothing. -/
theorem deliveries_of_unknown
    (hwhole : (BlobReader.ofBytes knowsOffset inserted).outcome.failure = none)
    (hunknown : ∀ blob ∈ (BlobReader.ofBytes knowsOffset inserted).outcome.blobs,
      blob.kind = .unknown) :
    (ofBytes knowsOffset supported inserted).deliveries = [] := by
  have hnothing (blob : Blob) (h : blob ∈ (BlobReader.ofBytes knowsOffset inserted).outcome.blobs) :
      blob.delivery? supported = none := Blob.delivery?_of_unknown (hunknown blob h)
  have houtcome : (BlobReader.ofBytes knowsOffset inserted).outcome =
      ⟨(BlobReader.ofBytes knowsOffset inserted).outcome.blobs, none⟩ := by rw [← hwhole]
  rw [deliveries_ofBytes, houtcome, BlobReader.Outcome.amounting_of_nothing hnothing]
  rfl

end Insertion

/-- A small block fits into a blob as it is. -/
theorem fits_nodeBlock_raw : Sample.compressors.Fits Sample.nodeBlock .raw :=
  ⟨Sample.fits_nodeBlock.size, trivial⟩

section Written

variable {compressors : Compressors} {block : BlockMessage} {packing : Packing}

/-- A block in its frame is a whole record. -/
theorem outcome_of_block (knowsOffset : Bool) (h : compressors.Fits block packing) :
    ∃ blob, (BlobReader.ofBytes knowsOffset (compressors.block block packing)).outcome =
      ⟨[blob], none⟩ ∧ blob.kind = .data ∧ blob.toBlock = .ok block := by
  let r := ofBytes knowsOffset [] (compressors.block block packing)
  have hrest : r.blobs.stream.rest = octets (compressors.block block packing) ++ [] :=
    (List.append_nil _).symm
  obtain ⟨blob, blobs, hnext, htype, hblock, hlive, hafter⟩ :=
    next_of_rest BlobType.dataName h rfl (by decide) hrest
  refine ⟨blob, ?_, ?_, hblock⟩
  · show r.blobs.outcome = _
    rw [BlobReader.outcome_of_blob (congrArg Prod.fst hnext), hnext,
      BlobReader.outcome_of_rest_nil hlive hafter]
    rfl
  · rw [Blob.kind, htype]
    rfl

/-- A block in its frame is delivered. -/
theorem deliveries_of_block (knowsOffset : Bool) (supported : List String)
    (h : compressors.Fits block packing) :
    (ofBytes knowsOffset supported (compressors.block block packing)).deliveries = [.ok block] := by
  obtain ⟨blob, houtcome, hkind, hblock⟩ := outcome_of_block knowsOffset h
  have hdelivery : blob.delivery? supported = some (.ok block) := by
    rw [Blob.delivery?_of_data hkind, hblock]
  rw [deliveries_ofBytes, houtcome, BlobReader.Outcome.amounting]
  simp only [List.filterMap_cons, hdelivery]
  rfl

end Written

/-- A blob with data that has no content, at the start. -/
def hollowBlob : Blob := ⟨BlobType.dataName, none, 0, .empty, some 0⟩

/-- A blob with data that has no content, and a single byte. -/
def hollowFile : ByteArray := ⟨#[0, 0, 0, 11, 10, 7, 79, 83, 77, 68, 97, 116, 97, 24, 0, 0]⟩

/-- The blob is found, and reading breaks off at the byte. -/
theorem outcome_hollowFile : (BlobReader.ofBytes true hollowFile).outcome =
    ⟨[hollowBlob], some (.archive .invalidHeaderSize)⟩ := by
  have hfound : (BlobReader.ofBytes true hollowFile).next.1 = .ok (some hollowBlob) :=
    eq_ok_of_toOption (by decide +kernel)
  have hfailure : (BlobReader.ofBytes true hollowFile).next.2.next.1 =
      .error (.archive .invalidHeaderSize) := eq_error_of_firstError? (by decide +kernel)
  rw [BlobReader.outcome_of_blob hfound, BlobReader.outcome_of_error hfailure]
  rfl

/-- A header that asks for the features `b`, `a` and `b`. -/
def demandingBlob : Blob where
  type := BlobType.headerName
  indexData := none
  size := 0
  body := BlobBody.ofMessage Sample.compressors .raw (HeaderBlock.ofFeatures ["b", "a", "b"])
  offset := none

end ElementReader

end MapArchive
