import MapArchive.Proofs.Blob.Alike

/-!
# All that a reader gives

A reader on a finite stream gives blobs until it comes to the end or meets an error. Its outcome
tells both: the blobs, and the error if there is one.
-/

namespace MapArchive.BlobReader

/-- What a reader gives until it comes to an end. -/
structure Outcome where
  /-- The blobs, from first to last. -/
  blobs : List Blob
  /-- The error at the end, if any. -/
  failure : Option ReadError
  deriving DecidableEq

namespace Outcome

/-- Some blobs, and then all of an outcome. -/
def after (blobs : List Blob) (o : Outcome) : Outcome := { o with blobs := blobs ++ o.blobs }

/-- Blobs given earlier stand in front. -/
@[simp] theorem blobs_after (blobs : List Blob) (o : Outcome) :
    (o.after blobs).blobs = blobs ++ o.blobs := rfl

/-- Blobs given earlier change nothing about how reading ends. -/
@[simp] theorem failure_after (blobs : List Blob) (o : Outcome) :
    (o.after blobs).failure = o.failure := rfl

/-- Putting no blobs in front changes nothing. -/
@[simp] theorem after_nil (o : Outcome) : o.after [] = o := rfl

/-- Blobs in front of nothing are all that there is. -/
@[simp] theorem after_nothing (blobs : List Blob) (failure : Option ReadError) :
    after blobs ⟨[], failure⟩ = ⟨blobs, failure⟩ :=
  congrArg (Outcome.mk · failure) (List.append_nil blobs)

/-- Blobs may be put in front in two parts. -/
theorem after_append (first second : List Blob) (o : Outcome) :
    o.after (first ++ second) = (o.after second).after first :=
  congrArg (Outcome.mk · o.failure) (List.append_assoc first second o.blobs)

/-- What comes after some blobs is told by the whole. -/
theorem after_cancel {blobs : List Blob} {o p : Outcome} (h : o.after blobs = p.after blobs) :
    o = p := by
  obtain ⟨hblobs, hfailure⟩ := Outcome.mk.inj h
  have hblobs := List.append_cancel_left hblobs
  cases o
  cases p
  cases hblobs
  cases hfailure
  rfl

/-- The same outcome, with the blobs at changed offsets. -/
def relocate (f : Relocation) (o : Outcome) : Outcome := { o with blobs := o.blobs.map f.blob }

/-- The last answer of a reader with this outcome. -/
def lastAnswer (o : Outcome) : Except ReadError (Option Blob) :=
  match o.failure with
  | none => .ok none
  | some e => .error e

end Outcome

variable {σ : Type} [FiniteStream σ]

open FiniteStream (remaining)

/-- Reads until there is no more blob. -/
def outcome (r : BlobReader σ) : Outcome :=
  match h : r.next with
  | (.error e, _) => ⟨[], some e⟩
  | (.ok none, _) => ⟨[], none⟩
  | (.ok (some b), s) =>
    have := remaining_of_next h
    s.outcome.after [b]
termination_by remaining r.stream

variable {r : BlobReader σ}

/-- Reading that fails at once gives nothing but the error. -/
theorem outcome_of_error {e : ReadError} (h : r.next.1 = .error e) : r.outcome = ⟨[], some e⟩ := by
  rw [outcome]
  split
  case h_1 hnext => rw [hnext] at h; cases h; rfl
  case h_2 hnext => rw [hnext] at h; cases h
  case h_3 hnext => rw [hnext] at h; cases h

/-- Reading that ends at once gives nothing. -/
theorem outcome_of_end (h : r.next.1 = .ok none) : r.outcome = ⟨[], none⟩ := by
  rw [outcome]
  split
  case h_1 hnext => rw [hnext] at h; cases h
  case h_2 hnext => rfl
  case h_3 hnext => rw [hnext] at h; cases h

/-- The first blob stands in front of what reading after it comes to. -/
theorem outcome_of_blob {b : Blob} (h : r.next.1 = .ok (some b)) :
    r.outcome = r.next.2.outcome.after [b] := by
  rw [outcome]
  split
  case h_1 hnext => rw [hnext] at h; cases h
  case h_2 hnext => rw [hnext] at h; cases h
  case h_3 c s hnext =>
    have hafter : r.next.2 = s := congrArg Prod.snd hnext
    rw [hnext] at h
    cases h
    rw [hafter]

/-- What holds of a reader if it holds after the next blob, and if there is none, holds of every
reader. -/
theorem outcome_induction {P : BlobReader σ → Prop}
    (hend : ∀ r : BlobReader σ, r.next.1 = .ok none → P r)
    (herror : ∀ (r : BlobReader σ) (e : ReadError), r.next.1 = .error e → P r)
    (hblob : ∀ (r : BlobReader σ) (b : Blob), r.next.1 = .ok (some b) → P r.next.2 → P r)
    (r : BlobReader σ) : P r := by
  induction r using outcome.induct with
  | case1 r e _ hnext => exact herror r e (congrArg Prod.fst hnext)
  | case2 r _ hnext => exact hend r (congrArg Prod.fst hnext)
  | case3 r b s hnext hlt ih =>
    refine hblob r b (congrArg Prod.fst hnext) ?_
    rw [hnext]
    exact ih

/-- Asked one by one, a reader gives the blobs of its outcome and then what the outcome ends
with. -/
theorem nexts_eq_outcome (r : BlobReader σ) :
    nexts (r.outcome.blobs.length + 1) r =
      r.outcome.blobs.map (.ok ∘ some) ++ [r.outcome.lastAnswer] := by
  induction r using outcome_induction with
  | hend r h =>
    rw [outcome_of_end h, nexts, h]
    rfl
  | herror r e h =>
    rw [outcome_of_error h, nexts, h]
    rfl
  | hblob r b h ih =>
    rw [outcome_of_blob h, nexts, h]
    exact congrArg (Except.ok (some b) :: ·) ih

/-- If there are no blobs, the reader gives at once what its outcome ends with. -/
theorem next_of_blobs_eq_nil (h : r.outcome.blobs = []) : r.next.1 = r.outcome.lastAnswer := by
  have hnexts := nexts_eq_outcome r
  rw [h] at hnexts
  exact List.head_eq_of_cons_eq hnexts

/-- Related readers have the same outcome, apart from offsets. -/
theorem outcome_of_related {τ : Type} [FiniteStream τ] {R : σ → τ → Prop} {f : Relocation}
    {s : BlobReader τ} (hR : ReadsAlike R) (h : Related R f r s) :
    r.outcome = s.outcome.relocate f := by
  induction s using outcome_induction generalizing r with
  | hend s hnext =>
    obtain ⟨hanswer, _⟩ := related_next hR h
    rw [hnext] at hanswer
    rw [outcome_of_end hnext, outcome_of_end hanswer]
    rfl
  | herror s e hnext =>
    obtain ⟨hanswer, _⟩ := related_next hR h
    rw [hnext] at hanswer
    rw [outcome_of_error hnext, outcome_of_error hanswer]
    rfl
  | hblob s b hnext ih =>
    obtain ⟨hanswer, hafter⟩ := related_next hR h
    rw [hnext] at hanswer
    rw [outcome_of_blob hnext, outcome_of_blob hanswer, ih hafter]
    rfl

end MapArchive.BlobReader
