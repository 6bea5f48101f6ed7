import MapArchive.Proofs.Reader.Handover
import MapArchive.Proofs.Reader.Tasks

/-!
# Reducing in parallel and in order

A reduction in parallel is a run over what is handed over: before each blob is looked for, all tasks
are collected that do not fit into the window together with one more. So the result is known from
the blobs that are handed over and from how this stops. It is the value that combining the elements
one after the other gives, however the workers do their tasks.
-/

namespace MapArchive

open TaskEvent (Settled)

/-- How many tasks there are room for. -/
def Pool.limit (pool : Pool) : Nat := (max 1 pool.window).toNat

/-- At least one task may be in flight. -/
theorem Pool.limit_pos (pool : Pool) : 0 < pool.limit := by
  rw [limit]
  omega

/-- The window is full when there is no room for one more task. -/
theorem Pool.window_le_iff (pool : Pool) {count : Nat} (h : 0 < count) :
    pool.window ≤ count ↔ pool.limit ≤ count := by
  rw [limit]
  omega

/-- The blobs of the tasks that are handed over, out of those that there are: once a task fails, no
more than fit into the window. -/
def withinWindow (limit : Nat) (blobs : List Blob) : List Blob :=
  blobs.take ((itemsBeforeError (blobs.map Blob.toBlock)).length + limit)

namespace Progress

variable {α : Type} {m : Reduction α} {pool : Pool} {p : Progress α}

/-- After a task is handed over, one is collected unless there is room for one more. -/
theorem Sound.collectIfFull (h : p.Sound m pool.limit (p.blobs.length - pool.limit))
    (hpos : 0 < p.blobs.length)
    (hvalue : m.ofBlobs (p.blobs.take (p.blobs.length - pool.limit)) = .ok p.value) :
    (p.collectIfFull m pool).2.Sound m pool.limit (p.blobs.length + 1 - pool.limit) ∧
      (p.collectIfFull m pool).2.blobs = p.blobs ∧
      answer (p.collectIfFull m pool) =
        m.ofBlobs (p.blobs.take (p.blobs.length + 1 - pool.limit)) := by
  have hlimit := pool.limit_pos
  have hlength := h.length_pending
  have hpending : 0 < p.pending.length := by omega
  rw [Progress.collectIfFull]
  by_cases hfull : pool.limit ≤ p.blobs.length
  · have hnext : p.blobs.length + 1 - pool.limit = p.blobs.length - pool.limit + 1 := by omega
    have hlt : p.blobs.length - pool.limit < p.blobs.length := by omega
    have hwindow : pool.window ≤ p.pending.length := by
      rw [pool.window_le_iff hpending]
      omega
    obtain ⟨hsound, hblobs, _⟩ := h.collect pool.schedule hlt
    rw [if_pos hwindow, hnext]
    exact ⟨hsound, hblobs, h.answer_collect pool.schedule hlt hvalue⟩
  · have hnext : p.blobs.length + 1 - pool.limit = p.blobs.length - pool.limit := by omega
    have hwindow : ¬pool.window ≤ p.pending.length := by
      rw [pool.window_le_iff hpending]
      omega
    rw [if_neg hwindow, hnext]
    exact ⟨h, rfl, hvalue.symm⟩

/-- A round of reading: a blob is found, and its task is handed over. -/
def round (m : Reduction α) (pool : Pool) (blob : Blob) (p : Progress α) :
    Option ArchiveError × Progress α :=
  ((p.happen m pool.schedule .sought).submit m pool.schedule blob).collectIfFull m pool

/-- What a round of reading leaves behind. -/
structure Round (m : Reduction α) (pool : Pool) (blobs : List Blob)
    (full : Option ArchiveError × Progress α) : Prop where
  /-- There is one blob more. -/
  blobs_eq : full.2.blobs = blobs
  /-- There is room for another task. -/
  sound : full.2.Sound m pool.limit (blobs.length + 1 - pool.limit)
  /-- No task that was collected before has failed. -/
  value : ∃ a, m.ofBlobs (blobs.take (blobs.length - pool.limit)) = .ok a
  /-- The value is that of all tasks collected. -/
  answer_eq : answer full = m.ofBlobs (blobs.take (blobs.length + 1 - pool.limit))

/-- A round of reading keeps tasks in order. -/
theorem Sound.round (h : p.Sound m pool.limit (p.blobs.length + 1 - pool.limit))
    (hvalue : m.ofBlobs (p.blobs.take (p.blobs.length + 1 - pool.limit)) = .ok p.value)
    (blob : Blob) : Round m pool (p.blobs ++ [blob]) (p.round m pool blob) := by
  have hlimit := pool.limit_pos
  have hroom : p.blobs.length - (p.blobs.length + 1 - pool.limit) < pool.limit := by omega
  have hcount : (p.blobs ++ [blob]).length = p.blobs.length + 1 := List.length_append
  let q := (p.happen m pool.schedule .sought).submit m pool.schedule blob
  have hsubmit : q.Sound m pool.limit ((p.blobs ++ [blob]).length - pool.limit) := by
    rw [hcount]
    exact (h.seek pool.schedule hroom).submit pool.schedule List.getLast?_concat hroom blob
  have hbefore : m.ofBlobs ((p.blobs ++ [blob]).take ((p.blobs ++ [blob]).length - pool.limit)) =
      .ok p.value := by
    rw [hcount, List.take_append_of_le_length (by omega)]
    exact hvalue
  have hpos : 0 < q.blobs.length := by
    show 0 < (p.blobs ++ [blob]).length
    omega
  obtain ⟨hsound, hblobs, hanswer⟩ := hsubmit.collectIfFull hpos hbefore
  exact ⟨hblobs, hsound, ⟨p.value, hbefore⟩, hanswer⟩

end Progress

namespace ElementReader

variable {σ α : Type} {m : Reduction α} {pool : Pool} {p : Progress α}
  {events : List LogEvent} {r : ElementReader σ} {failure : Option ReadError}

section Conclude

/-- In the end the accounts are settled. Unless there is a failure, all tasks are collected. -/
theorem conclude_of_sound {limit collected : Nat} (failure : Option ReadError)
    (h : p.Sound m limit collected)
    (hvalue : m.ofBlobs (p.blobs.take collected) = .ok p.value ∨ failure.isSome) :
    (conclude m pool failure events p r).blobs = p.blobs ∧
      Settled limit p.blobs.length (conclude m pool failure events p r).history ∧
      (conclude m pool failure events p r).result = m.resultAtEnd p.blobs failure := by
  have hsettled {history : List TaskEvent} (h : Settled limit p.blobs.length history) :
      Settled limit p.blobs.length
        (if pool.isOwned then history ++ [.shutDown] else history) := by
    split
    · exact h.shutDown
    · exact h
  cases failure with
  | some e => exact ⟨rfl, hsettled h.cancel, rfl⟩
  | none =>
    have hcount : collected + p.pending.length = p.blobs.length := by
      rw [h.length_pending]
      exact Nat.add_sub_cancel' h.collected_le
    obtain ⟨⟨last, hlast⟩, hblobs, hanswer⟩ :=
      h.collectMany pool.schedule (Nat.le_of_eq hcount) (hvalue.resolve_right nofun)
    rw [hcount, List.take_length] at hanswer
    rw [conclude, Reduction.resultAtEnd, ← hanswer]
    cases hmany : p.collectMany m pool.schedule p.pending.length with
    | mk error q =>
      rw [hmany] at hlast hblobs
      have hcancel := hlast.cancel
      dsimp only at hcancel hblobs ⊢
      rw [hblobs] at hcancel
      cases error with
      | none => exact ⟨hblobs, hsettled hcancel, rfl⟩
      | some e => exact ⟨hblobs, hsettled hcancel, rfl⟩

/-- What a reduction in parallel comes to if so many blobs are handed over before reading stops. -/
structure Reduces (m : Reduction α) (pool : Pool) (blobs : List Blob) (failure : Option ReadError)
    (report : ParallelReport σ α) : Prop where
  /-- The tasks are about these blobs, from the first one on. -/
  blobs_eq : report.blobs = withinWindow pool.limit blobs
  /-- The accounts are settled. -/
  settled : Settled pool.limit report.blobs.length report.history
  /-- The result depends on nothing else. -/
  result_eq : report.result = m.expected pool.limit blobs failure

/-- If no task that is collected while reading has failed, the end of reading decides. -/
theorem reduces_of_ending (h : p.Sound m pool.limit (p.blobs.length + 1 - pool.limit))
    (hvalue : m.ofBlobs (p.blobs.take (p.blobs.length + 1 - pool.limit)) = .ok p.value) :
    Reduces m pool p.blobs failure (conclude m pool failure events p r) := by
  have hlimit := pool.limit_pos
  obtain ⟨hblobs, hsettled, hresult⟩ := conclude_of_sound failure h (.inl hvalue)
  have hgood := (Reduction.ofBlobs_take_ok_iff (by omega)).1 ⟨p.value, hvalue⟩
  refine ⟨?_, hblobs ▸ hsettled, ?_⟩
  · rw [hblobs, withinWindow, List.take_of_length_le (by omega)]
  · rw [hresult, Reduction.expected, hvalue]

/-- If a task that is collected while reading has failed, its error is the result, whatever else
there is to read. -/
theorem reduces_of_error {collected : Nat} {e : ArchiveError} (later : List Blob)
    (h : p.Sound m pool.limit collected)
    (hvalue : ∃ a, m.ofBlobs (p.blobs.take (p.blobs.length - pool.limit)) = .ok a)
    (herror : m.ofBlobs (p.blobs.take (p.blobs.length + 1 - pool.limit)) = .error e) :
    Reduces m pool (p.blobs ++ later) failure
      (conclude m pool (some (.archive e)) events p r) := by
  have hlimit := pool.limit_pos
  have hlength : (p.blobs ++ later).length = p.blobs.length + later.length := List.length_append
  have htake (count : Nat) (hcount : count ≤ p.blobs.length) :
      (p.blobs ++ later).take count = p.blobs.take count := List.take_append_of_le_length hcount
  obtain ⟨a, hvalue⟩ := hvalue
  -- A task has been collected, so the window is full.
  have hfull : pool.limit ≤ p.blobs.length := by
    refine Decidable.byContradiction fun hroom => ?_
    have hsame : p.blobs.length + 1 - pool.limit = p.blobs.length - pool.limit := by omega
    rw [hsame, hvalue] at herror
    cases herror
  rw [← htake _ (by omega)] at hvalue herror
  have hgood : (itemsBeforeError ((p.blobs ++ later).map Blob.toBlock)).length =
      p.blobs.length - pool.limit := by
    have hle := (Reduction.ofBlobs_take_ok_iff (by omega)).1 ⟨a, hvalue⟩
    have hlt : ¬p.blobs.length + 1 - pool.limit ≤
        (itemsBeforeError ((p.blobs ++ later).map Blob.toBlock)).length := by
      rw [← Reduction.ofBlobs_take_ok_iff (by omega), herror]
      exact nofun
    omega
  obtain ⟨hblobs, hsettled, hresult⟩ := conclude_of_sound (some (.archive e)) h (.inr rfl)
  refine ⟨?_, hblobs ▸ hsettled, ?_⟩
  · rw [withinWindow, hgood, hblobs, List.take_left']
    omega
  · have hle : p.blobs.length + 1 - pool.limit ≤ (p.blobs ++ later).length + 1 - pool.limit := by
      omega
    rw [hresult, Reduction.expected, Reduction.ofBlobs_take_of_le hle herror]
    rfl

end Conclude

section Run

variable [FiniteStream σ] {before : List LogEvent} {s : ElementReader σ}

/-- At the end of the data all tasks that are left are collected. -/
theorem reduceFrom_of_ending (h : r.nextData = ⟨ending failure, events, s⟩) :
    reduceFrom m pool before p r =
      conclude m pool failure (before ++ events) (p.happen m pool.schedule .sought) s := by
  rw [reduceFrom]
  cases failure with
  | none =>
    split
    case h_1 hnext => rw [h] at hnext; cases hnext
    case h_2 hnext => rw [h] at hnext; cases hnext; rfl
    case h_3 hnext => rw [h] at hnext; cases hnext
  | some e =>
    split
    case h_1 hnext => rw [h] at hnext; cases hnext; rfl
    case h_2 hnext => rw [h] at hnext; cases hnext
    case h_3 hnext => rw [h] at hnext; cases hnext

/-- A blob with data is submitted, and reading goes on unless a task that is collected fails. -/
theorem reduceFrom_of_blob {blob : Blob} (h : r.nextData = ⟨.ok (some blob), events, s⟩) :
    reduceFrom m pool before p r = match p.round m pool blob with
      | (some e, p) => conclude m pool (some (.archive e)) (before ++ events) p s
      | (none, p) => reduceFrom m pool (before ++ events) p s := by
  rw [reduceFrom]
  split
  case h_1 hnext => rw [h] at hnext; cases hnext
  case h_2 hnext => rw [h] at hnext; cases hnext
  case h_3 hnext => rw [h] at hnext; cases hnext; rfl

/-- Going on with a reduction comes to what is expected of the blobs that are handed over. -/
theorem reduces_reduceFrom (before : List LogEvent)
    (h : p.Sound m pool.limit (p.blobs.length + 1 - pool.limit))
    (hvalue : m.ofBlobs (p.blobs.take (p.blobs.length + 1 - pool.limit)) = .ok p.value) :
    Reduces m pool (p.blobs ++ itemsBeforeError r.handovers) (firstError? r.handovers)
      (reduceFrom m pool before p r) := by
  have hlimit := pool.limit_pos
  generalize hitems : itemsBeforeError r.handovers = items
  -- One blob after the other is handed over; all tasks but the last `limit - 1` are collected then.
  induction items generalizing before p r with
  | nil =>
    have hhands := r.hands_nextData
    generalize hnext : r.nextData = report at hhands
    obtain ⟨answer, events, s⟩ := report
    dsimp only at hhands
    cases hhands with
    | blob hblob => rw [hblob] at hitems; cases hitems
    | stop _ hfailure =>
      have hseek := h.seek pool.schedule (by omega)
      rw [reduceFrom_of_ending hnext, hfailure, List.append_nil]
      show Reduces m pool (p.happen m pool.schedule .sought).blobs _ _
      exact reduces_of_ending hseek hvalue
  | cons blob items ih =>
    have hhands := r.hands_nextData
    generalize hnext : r.nextData = report at hhands
    obtain ⟨answer, events, s⟩ := report
    dsimp only at hhands
    cases hhands with
    | stop hnone _ => rw [hnone] at hitems; cases hitems
    | @blob first _ hblob =>
      rw [hblob] at hitems ⊢
      obtain ⟨rfl, hrest⟩ := List.cons.inj hitems
      have hround := h.round hvalue first
      have hall : p.blobs ++ first :: items = p.blobs ++ [first] ++ items :=
        (List.append_cons p.blobs first items)
      rw [reduceFrom_of_blob hnext, hall]
      generalize p.round m pool first = full at hround ⊢
      obtain ⟨error, q⟩ := full
      obtain ⟨hblobs, hsound, hbefore, hanswer⟩ := hround
      dsimp only at hblobs hsound
      rw [← hblobs] at hsound hbefore hanswer ⊢
      cases error with
      | some e => exact reduces_of_error items hsound hbefore hanswer.symm
      | none => exact ih (before ++ events) hsound hanswer.symm hrest

/-- A reduction in parallel comes to what is expected of the blobs that are handed over. -/
theorem reduces_reduceInParallel (m : Reduction α) (pool : Pool) (r : ElementReader σ) :
    Reduces m pool (itemsBeforeError r.handovers) (firstError? r.handovers)
      (reduceInParallel m pool r) := by
  have hnone : (Progress.start m).blobs.length + 1 - pool.limit = 0 :=
    Nat.sub_eq_zero_of_le pool.limit_pos
  refine reduces_reduceFrom (p := .start m) [] ?_ ?_
  · rw [hnone]
    exact Progress.sound_start m pool.limit
  · rw [hnone]
    rfl

end Run

end ElementReader

end MapArchive
