import MapArchive.Proofs.Reader.Accounts
import MapArchive.Proofs.Reader.Values

/-!
# Tasks in order

What tasks come to is settled when they are handed over: the workers may only make it known sooner
or later. While the file is read, the tasks that are pending are those after the ones collected, in
order, so that each one collected adds the value of the next blob. Every step of a reduction keeps
this, and in the end the accounts are settled.
-/

namespace MapArchive

open TaskEvent (Account Settled)

namespace Task

variable {α : Type} {m : Reduction α}

/-- A task that is done has the same outcome as before. -/
theorem outcome_finish (task : Task α) : (task.finish m).outcome m = task.outcome m := rfl

end Task

namespace Progress

variable {α : Type} {m : Reduction α} {schedule : Schedule} {limit collected : Nat} {p : Progress α}

/-- What comes of collecting: an error, or the value combined so far. -/
def answer : Option ArchiveError × Progress α → Except ArchiveError α
  | (some e, _) => .error e
  | (none, p) => .ok p.value

/-- So many tasks are collected, and the others are pending in order. -/
structure Sound (m : Reduction α) (limit collected : Nat) (p : Progress α) : Prop where
  /-- No more tasks are collected than were handed over. -/
  collected_le : collected ≤ p.blobs.length
  /-- The numbers of the pending tasks are those after the ones collected. -/
  numbers : p.pending.map Task.number = (List.range p.blobs.length).drop collected
  /-- The pending tasks come to what their blobs do. -/
  outcomes : p.pending.map (Task.outcome m) = (p.blobs.map m.ofBlob).drop collected
  /-- The history agrees. -/
  account : Account limit p.blobs.length collected p.history

section Happen

/-- The workers keep the order of the tasks. -/
theorem map_number_happen (event : TaskEvent) (p : Progress α) :
    (p.happen m schedule event).pending.map Task.number = p.pending.map Task.number := by
  rw [happen, List.map_map]
  refine List.map_congr_left fun task _ => ?_
  dsimp only [Function.comp_apply]
  split <;> rfl

/-- The workers do not change what tasks come to. -/
theorem map_outcome_happen (event : TaskEvent) (p : Progress α) :
    (p.happen m schedule event).pending.map (Task.outcome m) =
      p.pending.map (Task.outcome m) := by
  rw [happen, List.map_map]
  refine List.map_congr_left fun task _ => ?_
  dsimp only [Function.comp_apply]
  split
  · exact task.outcome_finish
  · rfl

end Happen

/-- Before any blob the progress is sound. -/
theorem sound_start (m : Reduction α) (limit : Nat) : Sound m limit 0 (start m) :=
  ⟨Nat.le_refl 0, rfl, rfl, .nil limit⟩

namespace Sound

/-- As many tasks are pending as blobs have been submitted and not collected. -/
theorem length_pending (h : p.Sound m limit collected) :
    p.pending.length = p.blobs.length - collected := by
  have hlength := congrArg List.length h.numbers
  rwa [List.length_map, List.length_drop, List.length_range] at hlength

/-- More data is looked for. -/
theorem seek (h : p.Sound m limit collected) (schedule : Schedule)
    (hroom : p.blobs.length - collected < limit) :
    (p.happen m schedule .sought).Sound m limit collected where
  collected_le := h.collected_le
  numbers := (map_number_happen _ p).trans h.numbers
  outcomes := (map_outcome_happen _ p).trans h.outcomes
  account := h.account.seek hroom

/-- A task is handed over. -/
theorem submit (h : p.Sound m limit collected) (schedule : Schedule)
    (hsought : p.history.getLast? = some .sought) (hroom : p.blobs.length - collected < limit)
    (blob : Blob) :
    (p.submit m schedule blob).Sound m limit collected where
  collected_le := by
    show collected ≤ (p.blobs ++ [blob]).length
    rw [List.length_append]
    exact Nat.le_add_right_of_le h.collected_le
  numbers := by
    refine (map_number_happen _ _).trans ?_
    show (p.pending ++ [_]).map _ = (List.range (p.blobs ++ [blob]).length).drop collected
    have hle : collected ≤ (List.range p.blobs.length).length := by
      rw [List.length_range]
      exact h.collected_le
    rw [List.map_append, h.numbers, List.length_append, List.length_singleton, List.range_succ,
      List.drop_append_of_le_length hle]
    rfl
  outcomes := by
    refine (map_outcome_happen _ _).trans ?_
    show (p.pending ++ [_]).map _ = ((p.blobs ++ [blob]).map _).drop collected
    have hle : collected ≤ (p.blobs.map m.ofBlob).length := by
      rw [List.length_map]
      exact h.collected_le
    rw [List.map_append, List.map_append, h.outcomes, List.drop_append_of_le_length hle]
    rfl
  account := by
    have haccount := h.account.submit hsought hroom
    show Account limit (p.blobs ++ [blob]).length collected _
    rw [List.length_append]
    exact haccount

/-- The next task is collected. -/
theorem collect (h : p.Sound m limit collected) (schedule : Schedule)
    (hlt : collected < p.blobs.length) :
    (p.collect m schedule).2.Sound m limit (collected + 1) ∧
      (p.collect m schedule).2.blobs = p.blobs ∧
      answer (p.collect m schedule) = m.reduce p.value <$> m.ofBlob p.blobs[collected] := by
  have hnumbers := h.numbers
  have houtcomes := h.outcomes
  rw [List.drop_eq_getElem_cons (by rwa [List.length_range])] at hnumbers
  rw [List.drop_eq_getElem_cons (by rwa [List.length_map])] at houtcomes
  cases hpending : p.pending with
  | nil => rw [hpending] at hnumbers; cases hnumbers
  | cons task rest =>
    rw [hpending, List.map_cons, List.cons.injEq, List.getElem_range] at hnumbers
    rw [hpending, List.map_cons, List.cons.injEq, List.getElem_map] at houtcomes
    obtain ⟨hnumber, hnumbers⟩ := hnumbers
    obtain ⟨houtcome, houtcomes⟩ := houtcomes
    let q := happen m schedule (.collected task.number) { p with pending := rest }
    have hsound (value : α) : { q with value }.Sound m limit (collected + 1) := by
      refine ⟨hlt, (map_number_happen _ _).trans hnumbers, (map_outcome_happen _ _).trans houtcomes,
        ?_⟩
      show Account limit p.blobs.length (collected + 1) (p.history ++ [.collected task.number])
      rw [hnumber]
      exact h.account.collect
    rw [Progress.collect, hpending]
    dsimp only
    rw [houtcome]
    cases m.ofBlob p.blobs[collected] with
    | error e => exact ⟨hsound _, rfl, rfl⟩
    | ok a => exact ⟨hsound _, rfl, rfl⟩

/-- Collecting the next task adds the value of its blob. -/
theorem answer_collect (h : p.Sound m limit collected) (schedule : Schedule)
    (hlt : collected < p.blobs.length)
    (hvalue : m.ofBlobs (p.blobs.take collected) = .ok p.value) :
    answer (p.collect m schedule) = m.ofBlobs (p.blobs.take (collected + 1)) := by
  rw [(h.collect schedule hlt).2.2, Reduction.ofBlobs_take_succ hlt, hvalue]
  rfl

/-- Collecting so many tasks adds the values of their blobs. -/
theorem collectMany {count : Nat} (h : p.Sound m limit collected) (schedule : Schedule)
    (hle : collected + count ≤ p.blobs.length)
    (hvalue : m.ofBlobs (p.blobs.take collected) = .ok p.value) :
    (∃ last, (p.collectMany m schedule count).2.Sound m limit last) ∧
      (p.collectMany m schedule count).2.blobs = p.blobs ∧
      answer (p.collectMany m schedule count) = m.ofBlobs (p.blobs.take (collected + count)) := by
  induction count generalizing collected p with
  | zero => exact ⟨⟨collected, h⟩, rfl, hvalue.symm⟩
  | succ count ih =>
    have hlt : collected < p.blobs.length := by omega
    obtain ⟨hsound, hblobs, _⟩ := h.collect schedule hlt
    have hanswer := h.answer_collect schedule hlt hvalue
    rw [Progress.collectMany]
    cases hcollect : p.collect m schedule with
    | mk error q =>
      rw [hcollect] at hsound hblobs hanswer
      cases error with
      | some e =>
        have hmany := Reduction.ofBlobs_take_of_le (Nat.add_le_add_left count.succ_pos collected)
          hanswer.symm
        exact ⟨⟨_, hsound⟩, hblobs, hmany.symm⟩
      | none =>
        obtain ⟨hlast, hsame, hmany⟩ := ih hsound (by rw [hblobs]; omega) (hblobs ▸ hanswer.symm)
        rw [hblobs, Nat.add_assoc, Nat.add_comm 1] at hmany
        exact ⟨hlast, hsame.trans hblobs, hmany⟩

/-- Once the pending tasks are cancelled, the accounts are settled. -/
theorem cancel (h : p.Sound m limit collected) :
    Settled limit p.blobs.length p.cancel.history := by
  have hhistory : p.cancel.history = p.history ++ (p.pending.map Task.number).map .cancelled := by
    rw [List.map_map]
    rfl
  rw [hhistory, h.numbers]
  exact h.account.cancel h.collected_le

end Sound

end Progress

end MapArchive
