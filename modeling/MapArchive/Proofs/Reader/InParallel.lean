import MapArchive.Proofs.Reader.Reduction

/-!
# What a reduction in parallel promises

For a file that can be read to the end, a reduction in parallel has the same result as combining the
values of the elements one after the other, whatever the window and the workers are like. For any
file it keeps its window, fails if and only if reading fails, and settles its accounts.
-/

namespace MapArchive

open TaskEvent (submittedIn collectedIn cancelledIn KeepsWindow)

/-- If nothing amounts to an error, the blobs with data are what there is. -/
theorem Blob.filterMap_delivery? {supported : List String} {blobs : List Blob}
    (h : firstError? (blobs.filterMap (delivery? supported)) = none) :
    blobs.filterMap (delivery? supported) =
      (blobs.filter fun blob => blob.kind = .data).map toBlock := by
  induction blobs with
  | nil => rfl
  | cons blob blobs ih =>
    rcases ElementReader.disposition_cases supported blob with
      ⟨hdata, _⟩ | ⟨hnothing, _⟩ | ⟨e, _, hrefused, _⟩
    · rw [List.filterMap_cons_some (delivery?_of_data hdata)] at h ⊢
      have hrest : firstError? (blobs.filterMap (delivery? supported)) = none := by
        rw [← List.singleton_append, firstError?_append, Option.or_eq_none_iff] at h
        exact h.2
      rw [List.filter_cons, if_pos (decide_eq_true hdata), List.map_cons, ih hrest]
    · have hkind := kind_ne_data_of_nothing hnothing
      rw [List.filterMap_cons_none hnothing] at h ⊢
      rw [List.filter_cons, if_neg (by rwa [decide_eq_true_eq]), ih h]
    · rw [List.filterMap_cons_some hrefused] at h
      cases h

namespace ElementReader

variable {σ : Type} [FiniteStream σ] {r : ElementReader σ}

/-- If nothing fails, the blocks that are delivered are those of all blobs with data. -/
theorem map_toBlock_of_deliveries (h : firstError? r.deliveries = none) :
    (r.blobs.outcome.blobs.filter fun blob => blob.kind = .data).map Blob.toBlock =
      (itemsBeforeError r.deliveries).map .ok := by
  rw [deliveries, BlobReader.Outcome.amounting, firstError?_append, Option.or_eq_none_iff,
    firstError?_mapError, Option.map_eq_none_iff] at h
  obtain ⟨hblobs, hfailure⟩ := h
  have hend : r.blobs.outcome.failure = none := by
    cases hcase : r.blobs.outcome.failure with
    | none => rfl
    | some e => rw [hcase] at hfailure; cases hfailure
  rw [deliveries, BlobReader.Outcome.amounting, hend, Option.toList_none, List.map_nil,
    List.append_nil, itemsBeforeError_mapError, ← map_ok_itemsBeforeError hblobs,
    Blob.filterMap_delivery? hblobs]

/-- For a file whose elements can all be gone through, reducing in parallel combines the values of
its blocks in order, each of which combines the values of its elements in order, whatever the window
is and whenever the workers do their tasks. If it does not matter how values are put together, this
is the same as combining the values of all elements. -/
theorem parallel_equals_sequential {σ : Type} [FiniteStream σ] (r : ElementReader σ)
    (h : ∀ n, ∀ answer ∈ ElementIteration.nexts n .start r, ∃ element, answer = .ok element) :
    let blocks := itemsBeforeError r.deliveries
    let elements := blocks.flatMap BlockMessage.blockElements
    ((r.blobs.outcome.blobs.filter fun blob => blob.kind = .data).map Blob.toBlock =
        blocks.map .ok ∧
      ∀ n, ElementIteration.nexts (elements.length + n) .start r =
        elements.map (.ok ∘ some) ++ List.replicate n (.ok none)) ∧
    ∀ (α : Type) (m : Reduction α) (pool : Pool),
      (reduceInParallel m pool r).result =
        .ok ((blocks.map fun block => block.blockElements.foldl (fun a e => m.reduce a (m.map e))
          m.identity).foldl m.reduce m.identity) ∧
      ((∀ a b c, m.reduce (m.reduce a b) c = m.reduce a (m.reduce b c)) →
        (∀ a, m.reduce m.identity a = a ∧ m.reduce a m.identity = a) →
        (reduceInParallel m pool r).result =
          .ok (elements.foldl (fun a e => m.reduce a (m.map e)) m.identity)) := by
  intro blocks elements
  have hnone : firstError? r.deliveries = none := by
    cases hfailure : firstError? r.deliveries with
    | none => rfl
    | some e =>
      obtain ⟨n, hmem⟩ := error_mem_nexts_iff.2 hfailure
      obtain ⟨element, helement⟩ := h n _ hmem
      cases helement
  have hgives : r.Gives blocks := by
    have hyields := r.yields_deliveries
    rwa [hnone] at hyields
  have hstages := r.firstError?_deliveries
  rw [hnone, eq_comm, Option.or_eq_none_iff, Option.map_eq_none_iff] at hstages
  obtain ⟨hgood, hend⟩ := hstages
  refine ⟨⟨map_toBlock_of_deliveries hnone, ElementIteration.nexts_of_gives hgives⟩, ?_⟩
  intro α m pool
  have hresult : (reduceInParallel m pool r).result =
      .ok ((blocks.map m.ofBlock).foldl m.reduce m.identity) := by
    rw [(reduces_reduceInParallel m pool r).result_eq, hend, Reduction.expected_of_good hgood,
      Reduction.resultAtEnd_of_good hgood, ← itemsBeforeError_deliveries]
  refine ⟨?_, fun hassoc hunit => ?_⟩
  · rw [hresult, show m.ofBlock = _ from funext m.ofBlock_eq]
  · rw [hresult, Reduction.foldl_blocks hassoc fun a => (hunit a).2]

/-- Two blocks are reduced in order, by workers who wait and in the smallest window. -/
theorem two_blocks_in_parallel :
    let front := Sample.compressors.block Sample.nodeBlock .raw
    let r := ofBytes true [] (front ++ front)
    let m : Reduction (List Element) := ⟨fun e => [e.element], [], (· ++ ·)⟩
    (∀ n, ∀ answer ∈ ElementIteration.nexts n .start r, ∃ element, answer = .ok element) ∧
      (reduceInParallel m ⟨.onDemand, -1, true⟩ r).result =
        .ok [.node Sample.node, .node Sample.node] := by
  intro front r m
  have hfront : (BlobReader.ofBytes true front).outcome.failure = none := by
    obtain ⟨blob, houtcome, _⟩ := outcome_of_block true fits_nodeBlock_raw
    rw [houtcome]
  have hdeliveries : r.deliveries = [.ok Sample.nodeBlock, .ok Sample.nodeBlock] := by
    rw [deliveries_append hfront, deliveries_of_block true [] fits_nodeBlock_raw]
    rfl
  have hends (n : Nat) : ∀ answer ∈ ElementIteration.nexts n .start r,
      ∃ element, answer = .ok element := by
    intro answer hmem
    cases answer with
    | ok element => exact ⟨element, rfl⟩
    | error e =>
      have hfailure := error_mem_nexts_iff.1 ⟨n, hmem⟩
      rw [hdeliveries] at hfailure
      cases hfailure
  have hresult := ((parallel_equals_sequential r hends).2 _ m ⟨.onDemand, -1, true⟩).2
    (fun a b c => List.append_assoc a b c) fun a => ⟨List.nil_append a, List.append_nil a⟩
  rw [hdeliveries] at hresult
  refine ⟨hends, hresult.trans ?_⟩
  simp only [itemsBeforeError, List.flatMap_cons, List.flatMap_nil, Sample.blockElements_nodeBlock]
  rfl

/-- A reduction in parallel hands over the blobs with data in the order of the file, each of them
once, until a failure is found. While more is looked for there is room for another task, and there
are never more tasks under way than fit into the window. It fails if and only if an iteration over
the elements does. If a blob cannot be decoded, its error is found if nothing else fails or if
enough blobs follow to fill the window; otherwise the error is the one that stops reading. With a
window for a single task it is the error that the iteration raises. In the end every task that was
handed over has been collected or cancelled. -/
theorem window_is_kept {σ α : Type} [FiniteStream σ] (m : Reduction α) (pool : Pool)
    (r : ElementReader σ) :
    let blobs := itemsBeforeError r.handovers
    let refusal := firstError? r.handovers
    let report := reduceInParallel m pool r
    let Raises (e : ReadError) := ∃ n, .error e ∈ ElementIteration.nexts n .start r
    (report.blobs =
        blobs.take ((itemsBeforeError (blobs.map Blob.toBlock)).length + pool.limit) ∧
      submittedIn report.history = List.range report.blobs.length) ∧
    KeepsWindow pool.limit report.history ∧
    ((∃ e, report.result = .error e) ↔ ∃ e, Raises e) ∧
    (firstError? (blobs.map Blob.toBlock) = none →
      ∀ e, report.result = .error e ↔ refusal = some e) ∧
    (∀ before bad after e, blobs = before ++ bad :: after →
      firstError? (before.map Blob.toBlock) = none → bad.toBlock = .error e →
      report.result = .error
        (if pool.limit - 1 ≤ after.length then .archive e else refusal.getD (.archive e))) ∧
    (pool.window ≤ 1 → ∀ e, report.result = .error e ↔ Raises e) ∧
    collectedIn report.history ++ cancelledIn report.history = submittedIn report.history := by
  intro blobs refusal report Raises
  have hraises (e : ReadError) : Raises e ↔
      ((firstError? (blobs.map Blob.toBlock)).map .archive).or refusal = some e :=
    error_mem_nexts_iff_handovers
  obtain ⟨hblobs, hsettled, hresult⟩ := reduces_reduceInParallel m pool r
  have hexpected : report.result = m.expected pool.limit blobs refusal := hresult
  refine ⟨⟨hblobs, hsettled.submittedIn_eq⟩, hsettled.keepsWindow, ?_, fun hgood e => ?_,
    fun before bad after e hsplit hbefore hbad => ?_, fun hwindow e => ?_, hsettled.settled⟩
  · rw [hexpected, Reduction.exists_expected_eq_error_iff]
    exact exists_congr fun e => (hraises e).symm
  · rw [hexpected]
    exact Reduction.expected_eq_error_iff_of_good hgood
  · rw [hexpected, hsplit]
    exact Reduction.expected_of_bad hbefore hbad
  · have hlimit : pool.limit ≤ 1 := by
      rw [Pool.limit]
      omega
    rw [hexpected, hraises]
    exact Reduction.expected_eq_error_iff_of_le_one hlimit

/-- A blob that cannot be decoded stands before a single byte. It is to blame if there is room for
one task only, while two tasks are not collected before the byte is found. -/
theorem window_decides_who_is_blamed :
    let r := ofBytes true [] hollowFile
    let count : Reduction Nat := ⟨fun _ => 1, 0, (· + ·)⟩
    (itemsBeforeError r.handovers = [hollowBlob] ∧ hollowBlob.toBlock = .error .emptyBlob) ∧
      (reduceInParallel count ⟨.immediate, 1, true⟩ r).result = .error (.archive .emptyBlob) ∧
      (reduceInParallel count ⟨.immediate, 2, true⟩ r).result =
        .error (.archive .invalidHeaderSize) := by
  intro r count
  have houtcome : r.blobs.outcome = ⟨[hollowBlob], some (.archive .invalidHeaderSize)⟩ :=
    outcome_hollowFile
  have hhandovers : r.handovers = [.ok hollowBlob, .error (.archive .invalidHeaderSize)] := by
    rw [handovers, houtcome]
    rfl
  have hitems : itemsBeforeError r.handovers = [hollowBlob] := by
    rw [hhandovers]
    rfl
  have hrefusal : firstError? r.handovers = some (.archive .invalidHeaderSize) := by
    rw [hhandovers]
    rfl
  have hhollow : hollowBlob.toBlock = .error .emptyBlob := rfl
  obtain ⟨_, _, _, _, hsmall, _⟩ := window_is_kept count ⟨.immediate, 1, true⟩ r
  obtain ⟨_, _, _, _, hlarge, _⟩ := window_is_kept count ⟨.immediate, 2, true⟩ r
  have hone := hsmall [] hollowBlob [] .emptyBlob hitems rfl hhollow
  have htwo := hlarge [] hollowBlob [] .emptyBlob hitems rfl hhollow
  rw [hrefusal] at hone htwo
  exact ⟨⟨hitems, hhollow⟩, hone, htwo⟩

end ElementReader

end MapArchive
