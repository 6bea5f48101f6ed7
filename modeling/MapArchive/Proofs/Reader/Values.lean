import MapArchive.Proofs.Block.ElementWalk
import MapArchive.Proofs.Reader.FirstError
import MapArchive.Reader.Parallel

/-!
# Values of blobs

The value of a file combines those of its blobs, in order, and fails with the first blob that cannot
be decoded. If reading fails as well, it depends on the window which error is found first: while
there is more to read, a task is collected only when there is no room for another one.
-/

namespace MapArchive

namespace Reduction

variable {α : Type} {m : Reduction α} {limit i j : Nat} {blobs before after : List Blob}
  {bad : Blob} {failure : Option ReadError} {e : ArchiveError}

/-- Combines the values of blobs, up to an error. -/
def ofBlobs (m : Reduction α) (blobs : List Blob) : Except ArchiveError α :=
  blobs.foldlM (fun a blob => m.reduce a <$> m.ofBlob blob) m.identity

/-- One blob more adds its value. -/
theorem ofBlobs_take_succ (h : i < blobs.length) : m.ofBlobs (blobs.take (i + 1)) =
    (m.ofBlobs (blobs.take i)).bind fun a => m.reduce a <$> m.ofBlob blobs[i] := by
  rw [← List.take_append_getElem h, ofBlobs, List.foldlM_append]
  simp only [List.foldlM_cons, List.foldlM_nil, bind_pure]
  rfl

/-- Blobs after an error make no difference. -/
theorem ofBlobs_take_of_le (hle : i ≤ j) (h : m.ofBlobs (blobs.take i) = .error e) :
    m.ofBlobs (blobs.take j) = .error e := by
  have hfront : (blobs.take j).take i = blobs.take i := by
    rw [List.take_take, Nat.min_eq_left hle]
  rw [← List.take_append_drop i (blobs.take j), hfront, ofBlobs, List.foldlM_append]
  rw [ofBlobs] at h
  rw [h]
  rfl

/-- Reducing blobs one by one reduces their blocks, or fails with the first error among them. -/
theorem foldlM_ofBlob (m : Reduction α) (a : α) (blobs : List Blob) :
    blobs.foldlM (fun a blob => m.reduce a <$> m.ofBlob blob) a =
      match firstError? (blobs.map Blob.toBlock) with
      | some e => .error e
      | none =>
        .ok (((itemsBeforeError (blobs.map Blob.toBlock)).map m.ofBlock).foldl m.reduce a) := by
  induction blobs generalizing a with
  | nil => rfl
  | cons blob blobs ih =>
    rw [List.foldlM_cons, ofBlob, List.map_cons]
    cases blob.toBlock with
    | error e => rfl
    | ok block => exact ih (m.reduce a (m.ofBlock block))

/-- Combining the values of blobs fails with the first error of decoding, or else gives the values
combined in order. -/
theorem ofBlobs_eq (m : Reduction α) (blobs : List Blob) : m.ofBlobs blobs =
    match firstError? (blobs.map Blob.toBlock) with
    | some e => .error e
    | none =>
      .ok (((itemsBeforeError (blobs.map Blob.toBlock)).map m.ofBlock).foldl m.reduce m.identity) :=
  m.foldlM_ofBlob m.identity blobs

/-- Reducing blobs fails just with the first error among their blocks. -/
theorem ofBlobs_eq_error_iff :
    m.ofBlobs blobs = .error e ↔ firstError? (blobs.map Blob.toBlock) = some e := by
  rw [ofBlobs_eq]
  cases firstError? (blobs.map Blob.toBlock) with
  | none => exact iff_of_false nofun nofun
  | some failure => exact ⟨fun h => by cases h; rfl, fun h => by cases h; rfl⟩

/-- Blobs can be combined as far as they can be decoded. -/
theorem ofBlobs_take_ok_iff {count : Nat} (hcount : count ≤ blobs.length) :
    (∃ a, m.ofBlobs (blobs.take count) = .ok a) ↔
      count ≤ (itemsBeforeError (blobs.map Blob.toBlock)).length := by
  have hlength : count ≤ (blobs.map Blob.toBlock).length := by rwa [List.length_map]
  rw [← firstError?_take_eq_none_iff hlength, ← List.map_take, ofBlobs_eq]
  cases firstError? ((blobs.take count).map Blob.toBlock) with
  | none => exact iff_of_true ⟨_, rfl⟩ rfl
  | some e => exact iff_of_false nofun nofun

/-- The value of a block combines those of its elements. -/
theorem ofBlock_eq (m : Reduction α) (block : BlockMessage) : m.ofBlock block =
    block.blockElements.foldl (fun a e => m.reduce a (m.map e)) m.identity := by
  rw [ofBlock, BlockMessage.toList_walk, BlockMessage.blockElements, List.foldl_map]

/-- The result once nothing more is handed over: a failure, or what the blobs come to. -/
def resultAtEnd (m : Reduction α) (blobs : List Blob) : Option ReadError → Except ReadError α
  | some e => .error e
  | none => (m.ofBlobs blobs).mapError .archive

/-- The result of reducing blobs if reading stops after them, with a failure or at the end. An error
of a task that is collected while there is more to read comes first. -/
def expected (m : Reduction α) (limit : Nat) (blobs : List Blob) (failure : Option ReadError) :
    Except ReadError α :=
  match m.ofBlobs (blobs.take (blobs.length + 1 - limit)) with
  | .error e => .error (.archive e)
  | .ok _ => m.resultAtEnd blobs failure

/-- Blobs that can be decoded can be combined as far as one likes. -/
theorem ofBlobs_take_of_good (h : firstError? (blobs.map Blob.toBlock) = none) (count : Nat) :
    ∃ a, m.ofBlobs (blobs.take count) = .ok a := by
  rw [ofBlobs_eq, List.map_take, firstError?_take_of_eq_none h]
  exact ⟨_, rfl⟩

/-- If all blobs can be decoded, a failure of reading is the only one. -/
theorem expected_of_good (h : firstError? (blobs.map Blob.toBlock) = none) :
    m.expected limit blobs failure = m.resultAtEnd blobs failure := by
  obtain ⟨a, hvalue⟩ := ofBlobs_take_of_good (m := m) h (blobs.length + 1 - limit)
  rw [expected, hvalue]

/-- Combining the values of decoded blocks fails no more. -/
theorem resultAtEnd_of_good (h : firstError? (blobs.map Blob.toBlock) = none) :
    m.resultAtEnd blobs none = .ok
      (((itemsBeforeError (blobs.map Blob.toBlock)).map m.ofBlock).foldl m.reduce m.identity) := by
  rw [resultAtEnd, ofBlobs_eq, h]
  rfl

/-- If all blobs can be decoded, only the failure of reading is left to be expected. -/
theorem expected_eq_error_iff_of_good (h : firstError? (blobs.map Blob.toBlock) = none)
    {f : ReadError} : m.expected limit blobs failure = .error f ↔ failure = some f := by
  rw [expected_of_good h]
  cases failure with
  | none =>
    rw [resultAtEnd_of_good h]
    exact iff_of_false nofun nofun
  | some cause => exact ⟨fun h => by cases h; rfl, fun h => by cases h; rfl⟩

/-- The error of the first blob that cannot be decoded is found if its task is collected while there
is more to read, or if nothing else fails. -/
theorem expected_of_bad (hbefore : firstError? (before.map Blob.toBlock) = none)
    (hbad : bad.toBlock = .error e) :
    m.expected limit (before ++ bad :: after) failure =
      .error (if limit - 1 ≤ after.length then .archive e else failure.getD (.archive e)) := by
  have herror (later : List Blob) : m.ofBlobs (before ++ bad :: later) = .error e := by
    rw [ofBlobs_eq_error_iff, List.map_append, firstError?_append, hbefore, List.map_cons, hbad]
    rfl
  have hlength : (before ++ bad :: after).length = before.length + (after.length + 1) := by
    rw [List.length_append, List.length_cons]
  rw [expected]
  by_cases hcollected : limit - 1 ≤ after.length
  · have hfirst : (before ++ bad :: after).take (before.length + 1) = before ++ [bad] :=
      List.take_length_add_append 1
    have hcount : before.length + 1 ≤ (before ++ bad :: after).length + 1 - limit := by omega
    rw [ofBlobs_take_of_le hcount (hfirst ▸ herror []), if_pos hcollected]
  · have hcount : (before ++ bad :: after).length + 1 - limit ≤ before.length := by omega
    obtain ⟨a, hvalue⟩ :=
      ofBlobs_take_of_good (m := m) hbefore ((before ++ bad :: after).length + 1 - limit)
    rw [List.take_append_of_le_length hcount, hvalue, if_neg hcollected]
    cases failure with
    | some f => rfl
    | none =>
      show (m.ofBlobs (before ++ bad :: after)).mapError _ = _
      rw [herror]
      rfl

/-- The first blob that cannot be decoded is one of these. -/
theorem exists_bad (h : firstError? (blobs.map Blob.toBlock) = some e) :
    ∃ before bad after, blobs = before ++ bad :: after ∧
      firstError? (before.map Blob.toBlock) = none ∧ bad.toBlock = .error e := by
  induction blobs with
  | nil => cases h
  | cons blob blobs ih =>
    cases hblob : blob.toBlock with
    | error failure =>
      rw [List.map_cons, hblob] at h
      cases h
      exact ⟨[], blob, blobs, rfl, rfl, hblob⟩
    | ok block =>
      rw [List.map_cons, hblob] at h
      obtain ⟨before, bad, after, rfl, hbefore, hbad⟩ := ih h
      refine ⟨blob :: before, bad, after, rfl, ?_, hbad⟩
      rw [List.map_cons, hblob]
      exact hbefore

/-- There is an error if decoding or reading fails. -/
theorem exists_expected_eq_error_iff : (∃ f, m.expected limit blobs failure = .error f) ↔
    ∃ f, ((firstError? (blobs.map Blob.toBlock)).map .archive).or failure = some f := by
  cases hfirst : firstError? (blobs.map Blob.toBlock) with
  | none => exact exists_congr fun f => expected_eq_error_iff_of_good hfirst
  | some e =>
    obtain ⟨before, bad, after, rfl, hbefore, hbad⟩ := exists_bad hfirst
    exact iff_of_true ⟨_, expected_of_bad hbefore hbad⟩ ⟨.archive e, rfl⟩

/-- If there is room for one task only, errors of decoding come first. -/
theorem expected_eq_error_iff_of_le_one (hlimit : limit ≤ 1) {f : ReadError} :
    m.expected limit blobs failure = .error f ↔
      ((firstError? (blobs.map Blob.toBlock)).map .archive).or failure = some f := by
  cases hfirst : firstError? (blobs.map Blob.toBlock) with
  | none => exact expected_eq_error_iff_of_good hfirst
  | some e =>
    obtain ⟨before, bad, after, rfl, hbefore, hbad⟩ := exists_bad hfirst
    rw [expected_of_bad hbefore hbad, if_pos (by omega)]
    exact ⟨fun h => by cases h; rfl, fun h => by cases h; rfl⟩

/-- Whole blocks may be combined first if it does not matter how values are put together. -/
theorem foldl_blocks (hassoc : ∀ a b c, m.reduce (m.reduce a b) c = m.reduce a (m.reduce b c))
    (hunit : ∀ a, m.reduce a m.identity = a) (blocks : List BlockMessage) :
    (blocks.map m.ofBlock).foldl m.reduce m.identity =
      (blocks.flatMap BlockMessage.blockElements).foldl (fun a e => m.reduce a (m.map e))
        m.identity := by
  have hassociative : Std.Associative m.reduce := ⟨hassoc⟩
  have hblock (a : α) (block : BlockMessage) : m.reduce a (m.ofBlock block) =
      block.blockElements.foldl (fun a e => m.reduce a (m.map e)) a := by
    let values := block.blockElements.map m.map
    calc m.reduce a (m.ofBlock block)
        = m.reduce a (values.foldl m.reduce m.identity) := by rw [ofBlock_eq, List.foldl_map]
      _ = values.foldl m.reduce (m.reduce a m.identity) := List.foldl_assoc.symm
      _ = block.blockElements.foldl (fun a e => m.reduce a (m.map e)) a := by
        rw [hunit, List.foldl_map]
  rw [List.foldl_map, List.foldl_flatMap]
  exact congrArg (fun f => blocks.foldl f m.identity) (funext fun a => funext (hblock a))

end Reduction

end MapArchive
