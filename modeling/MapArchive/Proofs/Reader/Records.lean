import MapArchive.Proofs.Blob.Outcome
import MapArchive.Proofs.Reader.Data

/-!
# What the records of a file amount to

For a reader of elements a blob amounts to a block, to an error in the place of one, or to nothing:
blobs of unknown types and headers that ask for no more than there is leave no trace. The deliveries
of a reader are what its blobs amount to, in order, with the error at which framing breaks off as
the last one. Looking for the next block takes the first delivery, whatever it is, and leaves the
others.
-/

namespace MapArchive

namespace HeaderBlock

/-- The missing features are the required ones that are not supported, each as often as it is
required. -/
theorem unsupportedFeatures_perm (header : HeaderBlock) (supported : List String) :
    (header.unsupportedFeatures supported).Perm
      (header.requiredFeatures.filter fun feature => feature ∉ supported) := by
  have hfilter : (header.requiredFeatures.filter fun feature => !supported.contains feature) =
      header.requiredFeatures.filter fun feature => feature ∉ supported := by
    simp only [List.contains_eq_mem, decide_not]
  rw [← hfilter]
  exact List.mergeSort_perm _ _

/-- The missing features are in order. -/
theorem pairwise_unsupportedFeatures (header : HeaderBlock) (supported : List String) :
    (header.unsupportedFeatures supported).Pairwise (· ≤ ·) := by
  have hsorted := @List.pairwise_mergeSort String (fun a b => decide (a ≤ b))
    (fun a b c hab hbc => decide_eq_true (String.le_trans (of_decide_eq_true hab)
      (of_decide_eq_true hbc)))
    (fun a b => by simpa only [Bool.or_eq_true, decide_eq_true_eq] using String.le_total a b)
    (header.requiredFeatures.filter fun feature => !supported.contains feature)
  exact hsorted.imp of_decide_eq_true

/-- The order in which features are required does not matter. -/
theorem unsupportedFeatures_congr {header other : HeaderBlock} (supported : List String)
    (h : header.requiredFeatures.Perm other.requiredFeatures) :
    header.unsupportedFeatures supported = other.unsupportedFeatures supported := by
  have hperm := (header.unsupportedFeatures_perm supported).trans
    ((h.filter _).trans (other.unsupportedFeatures_perm supported).symm)
  exact hperm.eq_of_pairwise (fun _ _ _ _ => String.le_antisymm)
    (header.pairwise_unsupportedFeatures supported) (other.pairwise_unsupportedFeatures supported)

end HeaderBlock

/-- Features that are in order stay so in an error. -/
theorem ArchiveError.ofFeatures_of_pairwise {features : List String}
    (h : features.Pairwise (· ≤ ·)) : ofFeatures features = .unsupportedFeatures features := by
  have hsorted : features.mergeSort (fun a b => decide (a ≤ b)) = features :=
    List.mergeSort_of_pairwise (h.imp decide_eq_true)
  rw [ofFeatures, hsorted]

/-- What a blob amounts to: a block, an error in the place of one, or nothing. -/
def Blob.delivery? (supported : List String) (blob : Blob) :
    Option (Except ArchiveError BlockMessage) :=
  match blob.kind with
  | .data => some blob.toBlock
  | .header =>
    match blob.toHeader with
    | .error e => some (.error e)
    | .ok header =>
      match header.unsupportedFeatures supported with
      | [] => none
      | missing => some (.error (.unsupportedFeatures missing))
  | .unknown => none

namespace Blob

variable {supported : List String} {blob : Blob}

/-- A blob with data amounts to its block. -/
theorem delivery?_of_data (h : blob.kind = .data) :
    blob.delivery? supported = some blob.toBlock := by
  rw [delivery?, h]

/-- A blob with data amounts to something. -/
theorem kind_ne_data_of_nothing (h : blob.delivery? supported = none) : blob.kind ≠ .data := by
  intro hdata
  rw [delivery?_of_data hdata] at h
  cases h

/-- A blob of unknown type amounts to nothing. -/
theorem delivery?_of_unknown (h : blob.kind = .unknown) : blob.delivery? supported = none := by
  rw [delivery?, h]

end Blob

namespace BlobReader.Outcome

variable {α : Type} {f : Blob → Option (Except ArchiveError α)} {passed : List Blob}

/-- What comes of the blobs, if each of them amounts to something or nothing, and then the error at
the end, if there is one. -/
def amounting (f : Blob → Option (Except ArchiveError α)) (o : Outcome) :
    List (Except ReadError α) :=
  (o.blobs.filterMap f).map (Except.mapError .archive) ++ o.failure.toList.map .error

/-- Blobs that amount to nothing leave no trace. -/
theorem amounting_after {blob : Blob} {amount : Except ArchiveError α}
    (hpassed : ∀ b ∈ passed, f b = none) (hblob : f blob = some amount) (o : Outcome) :
    (o.after (passed ++ [blob])).amounting f = amount.mapError .archive :: o.amounting f := by
  rw [amounting, blobs_after, List.filterMap_append, List.filterMap_append,
    List.filterMap_eq_nil_iff.2 hpassed]
  simp only [List.filterMap_cons, hblob]
  rfl

/-- Where all blobs amount to nothing only the failure is left. -/
theorem amounting_of_nothing (hpassed : ∀ b ∈ passed, f b = none) (failure : Option ReadError) :
    amounting f ⟨passed, failure⟩ = failure.toList.map .error := by
  rw [amounting, List.filterMap_eq_nil_iff.2 hpassed]
  rfl

end BlobReader.Outcome

namespace ElementReader

section Disposition

variable {supported : List String} {blob : Blob}

/-- What a header amounts to is found out by the check. -/
theorem delivery?_of_header (h : blob.kind = .header) : blob.delivery? supported =
    match checkHeader supported blob with
    | .ok () => none
    | .error e => some (.error e) := by
  rw [Blob.delivery?, h, checkHeader]
  dsimp only
  cases blob.toHeader with
  | error e => rfl
  | ok header =>
    have hsorted := header.pairwise_unsupportedFeatures supported
    cases hmissing : header.unsupportedFeatures supported with
    | nil =>
      simp only [bind, Except.bind, hmissing]
      rfl
    | cons feature features =>
      rw [hmissing] at hsorted
      simp only [bind, Except.bind, hmissing, ArchiveError.ofFeatures_of_pairwise hsorted]
      rfl

/-- A blob is used if it has data, passed over if it amounts to nothing, and refused if it is a
header that amounts to an error. -/
theorem disposition_cases (supported : List String) (blob : Blob) :
    (blob.kind = .data ∧ disposition supported blob = .use) ∨
      (blob.delivery? supported = none ∧
        ∃ events, disposition supported blob = .passOver events) ∨
      ∃ e, blob.kind = .header ∧ blob.delivery? supported = some (.error e) ∧
        disposition supported blob = .refuse e := by
  cases hkind : blob.kind with
  | data => exact .inl ⟨rfl, disposition_of_data hkind⟩
  | unknown =>
    refine .inr (.inl ⟨Blob.delivery?_of_unknown hkind, [.skippedBlob blob.type], ?_⟩)
    rw [disposition, hkind]
  | header =>
    rw [delivery?_of_header hkind, disposition, hkind]
    cases checkHeader supported blob with
    | ok _ => exact .inr (.inl ⟨rfl, [], rfl⟩)
    | error e => exact .inr (.inr ⟨e, rfl, rfl, rfl⟩)

end Disposition

variable {σ : Type} [FiniteStream σ]

/-- All that looking for data can lead to. Some blobs that amount to nothing are passed over
before. -/
inductive Sought (r : ElementReader σ) :
    Except ReadError (Option Blob) → ElementReader σ → Prop where
  /-- There is a blob with data. -/
  | found {passed : List Blob} {blob : Blob} {blobs : BlobReader σ}
      (hpassed : ∀ b ∈ passed, b.delivery? r.supported = none)
      (houtcome : r.blobs.outcome = blobs.outcome.after (passed ++ [blob]))
      (hdata : blob.kind = .data) : Sought r (.ok (some blob)) { r with blobs }
  /-- There is a header that amounts to an error. -/
  | refused {passed : List Blob} {blob : Blob} {blobs : BlobReader σ} {e : ArchiveError}
      (hpassed : ∀ b ∈ passed, b.delivery? r.supported = none)
      (houtcome : r.blobs.outcome = blobs.outcome.after (passed ++ [blob]))
      (hheader : blob.kind = .header) (hrefused : blob.delivery? r.supported = some (.error e)) :
      Sought r (.error (.archive e)) { r with blobs }
  /-- There is no next blob, because of an error. -/
  | failed {passed : List Blob} {last : BlobReader σ} {e : ReadError}
      (hpassed : ∀ b ∈ passed, b.delivery? r.supported = none)
      (houtcome : r.blobs.outcome = ⟨passed, some e⟩) (hlast : last.next.1 = .error e) :
      Sought r (.error e) { r with blobs := last.next.2 }
  /-- There is no next blob. -/
  | ended {passed : List Blob} {last : BlobReader σ}
      (hpassed : ∀ b ∈ passed, b.delivery? r.supported = none)
      (houtcome : r.blobs.outcome = ⟨passed, none⟩) (hlast : last.next.1 = .ok none) :
      Sought r (.ok none) { r with blobs := last.next.2 }

variable {r s : ElementReader σ} {blob : Blob} {answer : Except ReadError (Option Blob)}

/-- A blob that amounts to nothing may stand in front. -/
theorem Sought.cons (hblob : r.blobs.next.1 = .ok (some blob))
    (hnothing : blob.delivery? r.supported = none)
    (h : Sought { r with blobs := r.blobs.next.2 } answer s) : Sought r answer s := by
  have houtcome := BlobReader.outcome_of_blob hblob
  have hmem {passed : List Blob} (hpassed : ∀ b ∈ passed, b.delivery? r.supported = none) :
      ∀ b ∈ blob :: passed, b.delivery? r.supported = none :=
    List.forall_mem_cons.2 ⟨hnothing, hpassed⟩
  cases h with
  | found hpassed hrest hdata =>
    refine .found (hmem hpassed) ?_ hdata
    rw [houtcome, hrest, ← BlobReader.Outcome.after_append]
    rfl
  | refused hpassed hrest hheader hrefused =>
    refine .refused (hmem hpassed) ?_ hheader hrefused
    rw [houtcome, hrest, ← BlobReader.Outcome.after_append]
    rfl
  | failed hpassed hrest hlast => exact .failed (hmem hpassed) (by rw [houtcome, hrest]; rfl) hlast
  | ended hpassed hrest hlast => exact .ended (hmem hpassed) (by rw [houtcome, hrest]; rfl) hlast

/-- Looking for data leads to one of the things that it can lead to. -/
theorem sought_nextDataAfter (blobs : BlobReader σ) (supported : List String)
    (before : List LogEvent) :
    Sought ⟨blobs, supported⟩ (nextDataAfter before ⟨blobs, supported⟩).result
      (nextDataAfter before ⟨blobs, supported⟩).reader := by
  induction blobs using BlobReader.outcome_induction generalizing before with
  | hend blobs hnext =>
    rw [nextDataAfter_of_end (Prod.ext hnext rfl)]
    exact .ended (List.forall_mem_nil _) (BlobReader.outcome_of_end hnext) hnext
  | herror blobs e hnext =>
    rw [nextDataAfter_of_error (Prod.ext hnext rfl)]
    exact .failed (List.forall_mem_nil _) (BlobReader.outcome_of_error hnext) hnext
  | hblob blobs blob hnext ih =>
    have houtcome := BlobReader.outcome_of_blob hnext
    have hpair : blobs.next = (.ok (some blob), blobs.next.2) := Prod.ext hnext rfl
    rcases disposition_cases supported blob with
      ⟨hdata, huse⟩ | ⟨hnothing, events, hpass⟩ | ⟨e, hheader, hrefused, hrefuse⟩
    · rw [nextDataAfter_of_use (r := ⟨blobs, supported⟩) hpair huse]
      exact .found (List.forall_mem_nil _) houtcome hdata
    · rw [nextDataAfter_of_passOver (r := ⟨blobs, supported⟩) hpair hpass]
      exact Sought.cons hnext hnothing (ih (before ++ events))
    · rw [nextDataAfter_of_refuse (r := ⟨blobs, supported⟩) hpair hrefuse]
      exact .refused (List.forall_mem_nil _) houtcome hheader hrefused

/-- The search for data comes upon what the reader has in front of it. -/
theorem sought_nextData (r : ElementReader σ) : Sought r r.nextData.result r.nextData.reader :=
  sought_nextDataAfter r.blobs r.supported []

/-- What the blobs of a file amount to, from first to last, and then the error at which reading
breaks off, if there is one. -/
def deliveries (r : ElementReader σ) : List (Except ReadError BlockMessage) :=
  r.blobs.outcome.amounting (Blob.delivery? r.supported)

/-- All that looking for the next block can lead to: the first delivery, or the end if there is
none. -/
inductive Delivers (r : ElementReader σ) :
    Except ReadError (Option BlockMessage) → ElementReader σ → Prop where
  /-- The first delivery is a block. -/
  | block {block : BlockMessage} {s : ElementReader σ}
      (h : r.deliveries = .ok block :: s.deliveries) : Delivers r (.ok (some block)) s
  /-- The first delivery is an error in the place of a block, and others may follow. -/
  | refused {e : ArchiveError} {s : ElementReader σ}
      (h : r.deliveries = .error (.archive e) :: s.deliveries) : Delivers r (.error (.archive e)) s
  /-- Reading breaks off. -/
  | failed {e : ReadError} {last : BlobReader σ} (h : r.deliveries = [.error e])
      (hlast : last.next.1 = .error e) : Delivers r (.error e) { r with blobs := last.next.2 }
  /-- There is none. -/
  | ended {last : BlobReader σ} (h : r.deliveries = []) (hlast : last.next.1 = .ok none) :
      Delivers r (.ok none) { r with blobs := last.next.2 }

/-- Looking for the next block takes the first delivery. -/
theorem delivers_nextBlock (r : ElementReader σ) :
    Delivers r r.nextBlock.result r.nextBlock.reader := by
  have hsought := r.sought_nextData
  rw [nextBlock]
  generalize r.nextData = report at hsought ⊢
  obtain ⟨answer, events, s⟩ := report
  dsimp only at hsought
  cases hsought with
  | @found _ blob blobs hpassed houtcome hdata =>
    have h : r.deliveries = blob.toBlock.mapError .archive :: deliveries { r with blobs } := by
      rw [deliveries, houtcome, BlobReader.Outcome.amounting_after hpassed
        (Blob.delivery?_of_data hdata)]
      rfl
    dsimp only
    cases hblock : blob.toBlock with
    | ok block =>
      rw [hblock] at h
      exact .block h
    | error e =>
      rw [hblock] at h
      exact .refused h
  | refused hpassed houtcome _ hrefused =>
    refine .refused ?_
    rw [deliveries, houtcome, BlobReader.Outcome.amounting_after hpassed hrefused]
    rfl
  | failed hpassed houtcome hlast =>
    refine .failed ?_ hlast
    rw [deliveries, houtcome, BlobReader.Outcome.amounting_of_nothing hpassed]
    rfl
  | ended hpassed houtcome hlast =>
    refine .ended ?_ hlast
    rw [deliveries, houtcome, BlobReader.Outcome.amounting_of_nothing hpassed]
    rfl

end ElementReader

end MapArchive
