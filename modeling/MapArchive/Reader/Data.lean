import MapArchive.Blob.Reader
import MapArchive.Header.Features

/-!
# Finding the data blobs

An `ElementReader` goes through the blobs of a file for the ones with data. Headers on the way are
checked: if one asks for features that are not supported, the data after it might be misunderstood.
Blobs of unknown types are passed over. A `Report` tells what came of a request, what is to be
noted, and the reader afterwards.
-/

namespace MapArchive

/-- A reader of elements. -/
structure ElementReader (σ : Type) where
  /-- Where the blobs come from. -/
  blobs : BlobReader σ
  /-- The features that headers may ask for. -/
  supported : List String

/-- The outcome of a request to a reader. -/
structure Report (σ α : Type) where
  /-- What was found. -/
  result : Except ReadError α
  /-- What is to be noted. -/
  events : List LogEvent
  /-- The reader afterwards. -/
  reader : ElementReader σ

/-- What to do with a blob. -/
inductive Disposition where
  /-- It has data. -/
  | use
  /-- It is passed over, with something to be noted. -/
  | passOver (events : List LogEvent)
  /-- It makes reading stop. -/
  | refuse (error : ArchiveError)
  deriving DecidableEq, Repr

namespace ElementReader

variable {σ : Type}

/-- Checks the header in a blob. -/
def checkHeader (supported : List String) (blob : Blob) : Except ArchiveError Unit := do
  let unsupported := (← blob.toHeader).unsupportedFeatures supported
  if unsupported ≠ [] then
    .error (.ofFeatures unsupported)

/-- What to do with a blob. -/
def disposition (supported : List String) (blob : Blob) : Disposition :=
  match blob.kind with
  | .data => .use
  | .header =>
    match checkHeader supported blob with
    | .ok () => .passOver []
    | .error e => .refuse e
  | .unknown => .passOver [.skippedBlob blob.type]

variable [FiniteStream σ]

open FiniteStream (remaining)

/-- Finds the next blob with data, after noting `events`. -/
def nextDataAfter (events : List LogEvent) (r : ElementReader σ) : Report σ (Option Blob) :=
  match h : r.blobs.next with
  | (.error e, blobs) => ⟨.error e, events ++ r.blobs.eventsOfNext (.error e), { r with blobs }⟩
  | (.ok none, blobs) => ⟨.ok none, events, { r with blobs }⟩
  | (.ok (some blob), blobs) =>
    match disposition r.supported blob with
    | .use => ⟨.ok (some blob), events, { r with blobs }⟩
    | .refuse e => ⟨.error (.archive e), events, { r with blobs }⟩
    | .passOver more =>
      have := BlobReader.remaining_of_next h
      nextDataAfter (events ++ more) { r with blobs }
termination_by remaining r.blobs.stream

/-- Finds the next blob with data, if there is one. -/
def nextData (r : ElementReader σ) : Report σ (Option Blob) := nextDataAfter [] r

/-- Data that are found come from a record of at least four bytes. -/
theorem remaining_of_nextDataAfter {before after : List LogEvent} {r s : ElementReader σ}
    {blob : Blob} (h : nextDataAfter before r = ⟨.ok (some blob), after, s⟩) :
    remaining s.blobs.stream + 4 ≤ remaining r.blobs.stream := by
  induction before, r using nextDataAfter.induct with
  | case1 before r e blobs hnext => unfold nextDataAfter at h; split at h <;> simp_all
  | case2 before r blobs hnext => unfold nextDataAfter at h; split at h <;> simp_all
  | case3 before r b blobs hnext huse =>
    have := BlobReader.remaining_of_next hnext
    unfold nextDataAfter at h
    split at h <;> simp_all
    obtain ⟨_, _, rfl⟩ := h
    omega
  | case4 before r b blobs hnext e hrefuse => unfold nextDataAfter at h; split at h <;> simp_all
  | case5 before r b blobs hnext more hpass hlt ih =>
    rw [nextDataAfter] at h
    split at h
    case h_1 => simp_all
    case h_2 => simp_all
    case h_3 c d hnext' =>
      rw [hnext] at hnext'
      cases hnext'
      split at h
      case h_1 => simp_all
      case h_2 => simp_all
      case h_3 more' hpass' =>
        rw [hpass] at hpass'
        cases hpass'
        have := ih h
        dsimp only at this
        omega

/-- Finding data takes at least four bytes from the stream. -/
theorem remaining_of_nextData {events : List LogEvent} {r s : ElementReader σ} {blob : Blob}
    (h : r.nextData = ⟨.ok (some blob), events, s⟩) :
    remaining s.blobs.stream + 4 ≤ remaining r.blobs.stream :=
  remaining_of_nextDataAfter h

/-- Reads the next block. -/
def nextBlock (r : ElementReader σ) : Report σ (Option BlockMessage) :=
  match r.nextData with
  | ⟨.error e, events, s⟩ => ⟨.error e, events, s⟩
  | ⟨.ok none, events, s⟩ => ⟨.ok none, events, s⟩
  | ⟨.ok (some blob), events, s⟩ => ⟨(some <$> blob.toBlock).mapError .archive, events, s⟩

/-- Reading a block takes at least four bytes from the stream. -/
theorem remaining_of_nextBlock {events : List LogEvent} {r s : ElementReader σ}
    {block : BlockMessage} (h : r.nextBlock = ⟨.ok (some block), events, s⟩) :
    remaining s.blobs.stream + 4 ≤ remaining r.blobs.stream := by
  unfold nextBlock at h
  split at h
  case h_1 => cases h
  case h_2 => cases h
  case h_3 blob _ t hdata =>
    obtain ⟨_, _, rfl⟩ := Report.mk.inj h
    exact remaining_of_nextData hdata

end ElementReader

end MapArchive
